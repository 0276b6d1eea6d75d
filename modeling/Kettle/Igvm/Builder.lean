/-
The IGVM file builder: platforms, CPU contexts, OVMF regions, firmware images
and data blobs become directives, and finalization sorts them by address.

`usize` is 64 bits wide and its arithmetic wraps.
-/
import Kettle.Igvm.Hob
import Kettle.Igvm.Measure
import Kettle.Igvm.OvmfMeta
import Kettle.Igvm.X86Regs
import Kettle.Lib.StableSort

namespace Kettle

namespace Igvm

/-- What the builder uses of the igvm crate: the byte views of the two CPU
contexts, the bits of the guest policy, and the checks and the byte form of a
file. -/
structure IgvmCrate where
  vmsaBytes : SevVmsa → Bytes
  nativeContextBytes : NativeContext → Bytes
  snpPolicy (reservedMustBeOne smt : Nat) : UInt64
  newFile : List IgvmPlatformHeader → List IgvmInitializationHeader →
    List IgvmDirectiveHeader → Except String IgvmFile
  serialize : IgvmFile → Except String Bytes
  newFromBinary : Bytes → Except String IgvmFile

def nativeCompat : UInt32 := 1

def sevSnpCompat : UInt32 := 2

structure Builder where
  platforms : List IgvmPlatformHeader
  initializations : List IgvmInitializationHeader
  directives : List IgvmDirectiveHeader
  compatibilityMaskAll : UInt32

namespace Builder

def new : Builder := ⟨[], [], [], 0⟩

def push (builder : Builder) (directives : List IgvmDirectiveHeader) :
    Builder :=
  { builder with directives := builder.directives ++ directives }

def addNativePlatform (builder : Builder) : Builder :=
  { builder with
    compatibilityMaskAll := builder.compatibilityMaskAll ||| nativeCompat
    platforms := builder.platforms ++ [⟨nativeCompat, 2, .native, 1, 0⟩] }

def addSnpPlatform (builder : Builder) : Builder :=
  { builder with
    compatibilityMaskAll := builder.compatibilityMaskAll ||| sevSnpCompat
    platforms := builder.platforms ++ [⟨sevSnpCompat, 2, .sevSnp, 1, 0⟩] }

def addNativeContext (crate : IgvmCrate) (builder : Builder)
    (regs : List X86Register) : Builder :=
  builder.push [.x64NativeVpContext nativeCompat 0
    (crate.nativeContextBytes (nativeContext regs))]

def addSnpVmsaContext (crate : IgvmCrate) (builder : Builder)
    (regs : List X86Register) (debug : Bool) (vpIndex : UInt16) : Builder :=
  builder.push [.snpVpContext {
    gpa := vmsaGpa
    compatibilityMask := sevSnpCompat
    vpIndex := vpIndex
    vmsa := crate.vmsaBytes (vmsaContext regs ⟨true, debug⟩) }]

/-- `add_snp_policy(None)`. -/
def addSnpPolicy (crate : IgvmCrate) (builder : Builder) : Builder :=
  { builder with
    initializations := builder.initializations ++
      [.guestPolicy (crate.snpPolicy 1 1) sevSnpCompat] }

/-- `size.div_ceil(PAGE_SIZE_4K)`. -/
def pagesOf (size : Nat) : Nat := (size + (pageSize - 1)) / pageSize

def addEmptyPages (builder : Builder) (base size : Nat)
    (compatibilityMask : UInt32) (dataType : IgvmPageDataType) : Builder :=
  builder.push ((List.range (pagesOf size)).map fun pg => .pageData {
    gpa := .ofNat (base + pg * pageSize)
    compatibilityMask := compatibilityMask
    flags := {}
    dataType := dataType
    data := [] })

/-- The page type of a SEV region, for those that get pages. -/
def sevPageType : OvmfRegionType → Option IgvmPageDataType
  | .sevMemory | .sevSvsmCca | .sevHashes => some .normal
  | .sevSecrets => some .secrets
  | .sevCpuid => some .cpuidData
  | _ => none

/-- Whether an IgvmParamArea covers the address. -/
def inParamArea (ovmfmeta : OvmfMeta) (gpa : Nat) : Bool :=
  ovmfmeta.regions.any fun r =>
    r.etype = .igvmParamArea && r.base ≤ gpa && gpa < r.base + r.size

def addOvmfSnpRegion (ovmfmeta : OvmfMeta) (builder : Builder)
    (r : OvmfRegion) : Builder :=
  match sevPageType r.etype with
  | none => builder
  | some t =>
      (List.range (pagesOf r.size)).foldl (fun builder pg =>
        let gpa := r.base + pg * pageSize
        if inParamArea ovmfmeta gpa then builder
        else builder.addEmptyPages gpa pageSize sevSnpCompat t) builder

def addOvmfSnpPages (builder : Builder) (ovmfmeta : OvmfMeta) : Builder :=
  ovmfmeta.regions.foldl (addOvmfSnpRegion ovmfmeta) builder

def igvmParam (r : OvmfRegion) : List IgvmDirectiveHeader :=
  match r.etype with
  | .igvmParamMemoryMap => [.memoryMap ⟨0, .ofNat r.base⟩]
  | .igvmParamVpCount => [.vpCount ⟨0, .ofNat r.base⟩]
  | _ => []

def addOvmfIgvmParams (builder : Builder) (ovmfmeta : OvmfMeta) : Builder :=
  match ovmfmeta.regions.find? (fun r => r.etype = .igvmParamArea) with
  | none => builder
  | some area =>
      builder.push ([.parameterArea (.ofNat area.size) 0 []] ++
        ovmfmeta.regions.flatMap igvmParam ++
        [.parameterInsert ⟨0, .ofNat area.base,
          builder.compatibilityMaskAll⟩])

/-- The directives of a data image, page by page; the last page may be
short. -/
def dataPages (base : Nat) (data : Bytes) (compatibilityMask : UInt32)
    (flags : IgvmPageDataFlags) : List PageData :=
  (List.range (pagesOf data.length)).map fun pg => {
    gpa := .ofNat (base + pg * pageSize)
    compatibilityMask := compatibilityMask
    flags := flags
    dataType := .normal
    data := data.slice (pg * pageSize) pageSize }

def addDataPagesFlags (builder : Builder) (base : Nat) (data : Bytes)
    (flags : IgvmPageDataFlags) : Builder :=
  builder.push ((dataPages base data builder.compatibilityMaskAll flags).map
    .pageData)

def addDataPages (builder : Builder) (base : Nat) (data : Bytes) : Builder :=
  builder.addDataPagesFlags base data {}

def addDataPagesUnmeasured (builder : Builder) (base : Nat) (data : Bytes) :
    Builder :=
  builder.addDataPagesFlags base data { unmeasured := true }

/-- `page_gpa >= base && page_gpa < base + size.max(psize)`. -/
def inRange (base size : Nat) (page : PageData) : Bool :=
  base ≤ page.gpa.toNat &&
    page.gpa.toNat < (base + max size pageSize) % 2 ^ 64

def keepDirective (base size : Nat) : IgvmDirectiveHeader → Bool
  | .pageData page => !inRange base size page
  | _ => true

def removePageDataInRange (builder : Builder) (base size : Nat) : Builder :=
  { builder with
    directives := builder.directives.filter (keepDirective base size) }

/-- `left - right` on `usize`. -/
def wrappingSub (left right : Nat) : Nat :=
  (left + 2 ^ 64 - right % 2 ^ 64) % 2 ^ 64

/-- Where the firmware ends at 4 GiB. -/
def firmwareBase (firmware : Bytes) : Nat :=
  wrappingSub (2 ^ 32) firmware.length

def addFirmware4g (builder : Builder) (firmware : Bytes) : Builder :=
  builder.addDataPages (firmwareBase firmware) firmware

/-- The tail of the firmware that is mapped below 1 MiB. -/
def lowFirmware (firmware : Bytes) : Bytes :=
  firmware.drop (firmware.length - min (128 * 1024) firmware.length)

def lowFirmwareBase (firmware : Bytes) : Nat :=
  2 ^ 20 - min (128 * 1024) firmware.length

def addFirmware1m (builder : Builder) (firmware : Bytes) : Builder :=
  builder.addDataPages (lowFirmwareBase firmware) (lowFirmware firmware)

def uefivarsBase (uefivars : Bytes) (fwsize : Nat) : Nat :=
  wrappingSub (wrappingSub (2 ^ 32) uefivars.length) fwsize

def addUefivars (builder : Builder) (uefivars : Bytes) (fwsize : Nat) :
    Builder :=
  builder.addDataPages (uefivarsBase uefivars fwsize) uefivars

/-- The sort key: a directive without a page sorts as address 0. -/
def sortGpa : IgvmDirectiveHeader → Nat
  | .pageData page => page.gpa.toNat
  | _ => 0

/-- `sort_by` is stable. -/
def sortPages (directives : List IgvmDirectiveHeader) :
    List IgvmDirectiveHeader :=
  StableSort.sortBy sortGpa directives

def finalize (crate : IgvmCrate) (builder : Builder) :
    Except String IgvmFile :=
  crate.newFile builder.platforms builder.initializations
    (sortPages builder.directives)

end Builder

end Igvm

end Kettle
