/-
`build`: one configuration becomes IGVM bytes and a measurement.
-/
import Kettle.Igvm.Builder
import Kettle.Igvm.Measure

namespace Kettle

namespace Igvm

inductive Platform where
  | snp
  | native
  | snpNative
deriving DecidableEq, Repr

inductive BootMode where
  | real16
  | flat32
deriving DecidableEq, Repr

structure BuildConfig where
  firmware : Bytes
  vars : Option Bytes
  kernel : Option Bytes
  shim : Option Bytes
  pk : Option Bytes
  kek : Option Bytes
  db : Option Bytes
  dbx : Option Bytes
  platform : Platform
  bootMode : BootMode
  smp : UInt32
deriving DecidableEq, Repr

structure BuildResult where
  igvmBytes : Bytes
  measurement : MeasureResult

namespace BuildConfig

/-- `HobInputs::has_data`. -/
def hasData (config : BuildConfig) : Bool :=
  config.kernel.isSome || config.shim.isSome || config.pk.isSome ||
    config.kek.isSome || config.db.isSome || config.dbx.isSome

def useSnp (config : BuildConfig) : Bool :=
  config.platform matches .snp | .snpNative

def useNative (config : BuildConfig) : Bool :=
  config.platform matches .native | .snpNative

end BuildConfig

/-- `hoblist.add(blob, ..)` for a blob that is given. -/
def IgvmDataList.addOptional (list : IgvmDataList) (blob : Option Bytes)
    (dataType : IgvmDataType) (measured : Bool) : IgvmDataList :=
  match blob with
  | none => list
  | some blob => list.add blob dataType measured

/-- The blobs in the order in which they get their addresses, from 512 MiB
on.  Only the shim is unmeasured. -/
def BuildConfig.hobList (config : BuildConfig) : IgvmDataList :=
  (((((IgvmDataList.new 0x20000000
    |>.addOptional config.pk .pk true)
    |>.addOptional config.kek .kek true)
    |>.addOptional config.db .db true)
    |>.addOptional config.dbx .dbx true)
    |>.addOptional config.shim .shim false)
    |>.addOptional config.kernel .kernel true

/-- Make room for a blob and place it, as measured or unmeasured pages. -/
def Builder.placeBlob (measured : Bool) (builder : Builder)
    (blob : Nat × Bytes) : Builder :=
  (builder.removePageDataInRange blob.1 blob.2.length).addDataPagesFlags
    blob.1 blob.2 { unmeasured := !measured }

def Builder.placeHobs (builder : Builder) (hobarea : OvmfRegion)
    (list : IgvmDataList) : Builder :=
  (builder.removePageDataInRange hobarea.base hobarea.size).addDataPages
    hobarea.base list.hobs

def addHobData (builder : Builder) (ovmfmeta : Option OvmfMeta)
    (config : BuildConfig) : Except String Builder :=
  if !config.hasData then .ok builder
  else do
    let hobarea ← okOr
      "OVMF firmware has no IgvmHobArea region (needed for kernel/shim/cert injection)"
      (ovmfmeta.bind fun m =>
        m.regions.find? (fun r => r.etype = .igvmHobArea))
    let hoblist := config.hobList
    let builder := builder.placeHobs hobarea hoblist
    let builder := (hoblist.blobs true).foldl (Builder.placeBlob true) builder
    .ok ((hoblist.blobs false).foldl (Builder.placeBlob false) builder)

/-- The contexts of vCPUs 1 to `smp - 1`; the index must fit in a `u16`. -/
def addApContexts (crate : IgvmCrate) (apRegs : List X86Register) :
    Nat → Nat → Builder → Except String Builder
  | 0, _, builder => .ok builder
  | count + 1, vp, builder =>
      if 2 ^ 16 ≤ vp then .error "vCPU index exceeds u16 range"
      else
        addApContexts crate apRegs count (vp + 1)
          (builder.addSnpVmsaContext crate apRegs false (.ofNat vp))

def addNative (crate : IgvmCrate) (config : BuildConfig)
    (builder : Builder) : Builder :=
  let builder := builder.addNativePlatform
  match config.bootMode with
  | .flat32 => builder.addNativeContext crate (flat32ModeRegs none)
  | .real16 => builder

/-- The contexts of the other vCPUs, when there are any. -/
def addAps (crate : IgvmCrate) (config : BuildConfig)
    (ovmfmeta : Option OvmfMeta) (builder : Builder) :
    Except String Builder :=
  if 1 < config.smp then do
    let apResetAddr ← okOr
      "OVMF firmware does not contain SEV-ES reset address (needed for --smp > 1)"
      (ovmfmeta.bind (·.sevResetAddr))
    addApContexts crate (realModeRegsAt apResetAddr)
      (config.smp.toNat - 1) 1 builder
  else .ok builder

def bspRegs : BootMode → List X86Register
  | .flat32 => flat32ModeRegs none
  | .real16 => realModeRegsAt 0xFFFFFFF0

def addSnp (crate : IgvmCrate) (config : BuildConfig)
    (ovmfmeta : Option OvmfMeta) (builder : Builder) :
    Except String Builder := do
  let builder ← addAps crate config ovmfmeta
    (builder.addSnpPlatform.addSnpVmsaContext crate
      (bspRegs config.bootMode) false 0)
  let builder := match ovmfmeta with
    | some ovmfmeta => builder.addOvmfSnpPages ovmfmeta
    | none => builder
  .ok (builder.addSnpPolicy crate)

/-- The platforms with their CPU contexts. -/
def addPlatforms (crate : IgvmCrate) (config : BuildConfig)
    (ovmfmeta : Option OvmfMeta) : Except String Builder :=
  let builder :=
    if config.useNative then addNative crate config .new else .new
  if config.useSnp then addSnp crate config ovmfmeta builder
  else .ok builder

/-- Real mode starts from a copy below 1 MiB. -/
def addLowFirmware (config : BuildConfig) (builder : Builder) : Builder :=
  match config.bootMode with
  | .real16 => builder.addFirmware1m config.firmware
  | .flat32 => builder

/-- The firmware copies and the variable store. -/
def addImages (config : BuildConfig) (builder : Builder) : Builder :=
  let builder :=
    (addLowFirmware config builder).addFirmware4g config.firmware
  match config.vars with
  | some vars => builder.addUefivars vars config.firmware.length
  | none => builder

/-- Everything up to the HOB data. -/
def prepare (crate : IgvmCrate) (config : BuildConfig) :
    Except String Builder := do
  let builder ← addPlatforms crate config (OvmfMeta.new config.firmware)
  let builder := match OvmfMeta.new config.firmware with
    | some ovmfmeta => builder.addOvmfIgvmParams ovmfmeta
    | none => builder
  .ok (addImages config builder)

/-- The builder that `build` finalizes. -/
def assemble (crate : IgvmCrate) (config : BuildConfig) :
    Except String Builder := do
  let builder ← prepare crate config
  addHobData builder (OvmfMeta.new config.firmware) config

/-- `map_err(|e| format!("{stage}: {e}"))`. -/
def atStage {α : Type} (stage : String) : Except String α → Except String α
  | .ok value => .ok value
  | .error e => .error (stage ++ ": " ++ e)

def build (sha384 : Bytes → Digest384) (crate : IgvmCrate)
    (config : BuildConfig) : Except String BuildResult := do
  let builder ← assemble crate config
  let igvm ← atStage "finalize igvm" (builder.finalize crate)
  let measurement ← measureSnp sha384 igvm
  let igvmBytes ← atStage "serialize igvm" (crate.serialize igvm)
  .ok ⟨igvmBytes, measurement⟩

end Igvm

end Kettle
