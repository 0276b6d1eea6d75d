/-
`build` for SNP as a run of builder operations: the platforms and contexts
first, then everything that depends on the firmware and the blobs.
-/
import Kettle.Igvm.Build
import Kettle.Igvm.BuilderOps
import Kettle.Lib.Result

namespace Kettle

namespace Igvm

section Operations

/-- A second platform, and its context for a 32-bit start. -/
def nativeOps (config : BuildConfig) : List BuilderOp :=
  if config.useNative then
    match config.bootMode with
    | .flat32 => [.addNativePlatform, .addNativeContext (flat32ModeRegs none)]
    | .real16 => [.addNativePlatform]
  else []

def bspOps (config : BuildConfig) : List BuilderOp :=
  [.addSnpPlatform, .addSnpVmsaContext (bspRegs config.bootMode) false 0]

def apOp (apRegs : List X86Register) (vp : Nat) : BuilderOp :=
  .addSnpVmsaContext apRegs false (.ofNat vp)

/-- The other vCPUs' contexts, or why there are none. -/
def apOps (config : BuildConfig) : Except String (List BuilderOp) :=
  if 1 < config.smp then do
    let apResetAddr ← okOr
      "OVMF firmware does not contain SEV-ES reset address (needed for --smp > 1)"
      ((OvmfMeta.new config.firmware).bind (·.sevResetAddr))
    if 2 ^ 16 < config.smp.toNat then .error "vCPU index exceeds u16 range"
    else
      .ok ((List.range' 1 (config.smp.toNat - 1)).map
        (apOp (realModeRegsAt apResetAddr)))
  else .ok []

/-- What the firmware's metadata asks for. -/
def metaOps (config : BuildConfig) : List BuilderOp :=
  match OvmfMeta.new config.firmware with
  | some ovmfmeta =>
      [.addOvmfSnpPages ovmfmeta, .addSnpPolicy none,
        .addOvmfIgvmParams ovmfmeta]
  | none => [.addSnpPolicy none]

def lowFirmwareOps (config : BuildConfig) : List BuilderOp :=
  match config.bootMode with
  | .real16 => [.addFirmware1m config.firmware]
  | .flat32 => []

def imageOps (config : BuildConfig) : List BuilderOp :=
  lowFirmwareOps config ++ [.addFirmware4g config.firmware] ++
    match config.vars with
    | some vars => [.addUefivars vars config.firmware.length]
    | none => []

def blobOps (measured : Bool) (blob : Nat × Bytes) : List BuilderOp :=
  [.removePageDataInRange blob.1 blob.2.length,
    .addDataPagesFlags blob.1 blob.2 { unmeasured := !measured }]

def hobOps (config : BuildConfig) : Except String (List BuilderOp) :=
  if !config.hasData then .ok []
  else do
    let hobarea ← okOr
      "OVMF firmware has no IgvmHobArea region (needed for kernel/shim/cert injection)"
      ((OvmfMeta.new config.firmware).bind fun m =>
        m.regions.find? (fun r => r.etype = .igvmHobArea))
    .ok ([.removePageDataInRange hobarea.base hobarea.size,
        .addDataPages hobarea.base config.hobList.hobs] ++
      (config.hobList.blobs true).flatMap (blobOps true) ++
      (config.hobList.blobs false).flatMap (blobOps false))

end Operations

section Run

theorem runOps_append (crate : IgvmCrate) (builder : Builder)
    (front back : List BuilderOp) :
    runOps crate builder (front ++ back) =
      runOps crate (runOps crate builder front) back :=
  List.foldl_append

theorem runOps_cons (crate : IgvmCrate) (builder : Builder) (op : BuilderOp)
    (rest : List BuilderOp) :
    runOps crate builder (op :: rest) =
      runOps crate (op.apply crate builder) rest := rfl

theorem runOps_flatMap {α : Type} {crate : IgvmCrate}
    {step : Builder → α → Builder} {ops : α → List BuilderOp}
    (hstep : ∀ builder x, step builder x = runOps crate builder (ops x))
    (list : List α) (builder : Builder) :
    list.foldl step builder = runOps crate builder (list.flatMap ops) := by
  induction list generalizing builder with
  | nil => rfl
  | cons x rest ih =>
      rw [List.foldl_cons, hstep, ih, List.flatMap_cons, runOps_append]

variable (crate : IgvmCrate) (config : BuildConfig)

/-- The contexts are added as long as their index fits. -/
theorem addApContexts_eq (apRegs : List X86Register) (count vp : Nat)
    (builder : Builder) :
    addApContexts crate apRegs count vp builder =
      if 0 < count ∧ 2 ^ 16 < vp + count then
        .error "vCPU index exceeds u16 range"
      else
        .ok (runOps crate builder
          ((List.range' vp count).map (apOp apRegs))) := by
  induction count generalizing vp builder with
  | zero => simp [addApContexts, runOps]
  | succ count ih =>
      rw [addApContexts]
      by_cases hvp : 2 ^ 16 ≤ vp
      · rw [if_pos hvp, if_pos ⟨by omega, by omega⟩]
      · rw [if_neg hvp, ih]
        by_cases hend : 2 ^ 16 < vp + (count + 1)
        · rw [if_pos ⟨by omega, by omega⟩, if_pos ⟨by omega, by omega⟩]
        · rw [if_neg (by omega), if_neg (by omega), List.range'_succ,
            List.map_cons, runOps_cons]
          rfl

theorem addAps_eq (builder : Builder) :
    addAps crate config (OvmfMeta.new config.firmware) builder =
      apOps config >>= fun aps => .ok (runOps crate builder aps) := by
  unfold addAps apOps
  by_cases hsmp : 1 < config.smp
  · rw [if_pos hsmp, if_pos hsmp]
    cases (OvmfMeta.new config.firmware).bind (·.sevResetAddr) with
    | none => rfl
    | some addr =>
        have hlarge : 1 < config.smp.toNat := hsmp
        simp only [okOr_some, ok_bind, addApContexts_eq]
        by_cases hindex : 2 ^ 16 < config.smp.toNat
        · rw [if_pos hindex, if_pos ⟨by omega, by omega⟩]
          rfl
        · rw [if_neg hindex, if_neg (by omega)]
          rfl
  · rw [if_neg hsmp, if_neg hsmp]
    rfl

theorem addHobData_eq_run (builder : Builder) :
    addHobData builder (OvmfMeta.new config.firmware) config =
      hobOps config >>= fun ops => .ok (runOps crate builder ops) := by
  unfold addHobData hobOps
  cases config.hasData with
  | false => rfl
  | true =>
      simp only [Bool.not_true, Bool.false_eq_true, if_false]
      cases (OvmfMeta.new config.firmware).bind fun m =>
          m.regions.find? (fun r => r.etype = .igvmHobArea) with
      | none => rfl
      | some hobarea =>
          have hblobs : ∀ (measured : Bool) (builder : Builder)
              (blob : Nat × Bytes), builder.placeBlob measured blob =
                runOps crate builder (blobOps measured blob) :=
            fun _ _ _ => rfl
          simp only [okOr_some, ok_bind, runOps_flatMap (hblobs true),
            runOps_flatMap (hblobs false), runOps_append]
          rfl

theorem addImages_eq_run (builder : Builder) :
    addImages config builder = runOps crate builder (imageOps config) := by
  unfold addImages imageOps addLowFirmware lowFirmwareOps
  cases config.bootMode <;> cases config.vars <;> rfl

/-- The whole of `assemble` for SNP. -/
theorem assemble_eq_run (hsnp : config.useSnp = true) :
    assemble crate config =
      apOps config >>= fun aps => hobOps config >>= fun hobs =>
        .ok (runOps crate .new (nativeOps config ++ bspOps config ++ aps ++
          (metaOps config ++ imageOps config ++ hobs))) := by
  have hnative : (if config.useNative = true then
      addNative crate config .new else .new) =
        runOps crate .new (nativeOps config) := by
    unfold nativeOps addNative
    cases config.useNative <;> cases config.bootMode <;> rfl
  rw [assemble, prepare, addPlatforms]
  simp only [hnative]
  rw [if_pos hsnp, addSnp, addAps_eq]
  cases apOps config with
  | error e => rfl
  | ok aps =>
      simp only [ok_bind, addHobData_eq_run crate, addImages_eq_run crate]
      cases hobOps config with
      | error e => rfl
      | ok hobs =>
          simp only [ok_bind, runOps_append, metaOps, bspOps]
          cases OvmfMeta.new config.firmware <;> rfl

end Run

end Igvm

end Kettle
