/-
The operations of the builder.  Each one drops some pages and appends
directives, so that a run of them is described by what was appended and what
is left of it.
-/
import Kettle.Igvm.Builder

namespace Kettle

namespace Igvm

section Push

namespace Builder

@[simp] theorem directives_push (builder : Builder)
    (directives : List IgvmDirectiveHeader) :
    (builder.push directives).directives = builder.directives ++ directives :=
  rfl

@[simp] theorem compatibilityMaskAll_push (builder : Builder)
    (directives : List IgvmDirectiveHeader) :
    (builder.push directives).compatibilityMaskAll =
      builder.compatibilityMaskAll := rfl

theorem push_nil (builder : Builder) : builder.push [] = builder := by
  simp [push]

theorem push_push (builder : Builder)
    (front back : List IgvmDirectiveHeader) :
    (builder.push front).push back = builder.push (front ++ back) := by
  simp [push, List.append_assoc]

/-- Appending for each element of a list is appending once. -/
theorem foldl_push {α : Type} {step : Builder → α → Builder}
    {adds : α → List IgvmDirectiveHeader}
    (hstep : ∀ builder x, step builder x = builder.push (adds x))
    (list : List α) (builder : Builder) :
    list.foldl step builder = builder.push (list.flatMap adds) := by
  induction list generalizing builder with
  | nil => exact (push_nil builder).symm
  | cons x rest ih =>
      rw [List.foldl_cons, hstep, ih, push_push, List.flatMap_cons]

/-- The page that a SEV region gets at an address. -/
def sevPage (dataType : IgvmPageDataType) (gpa : Nat) : PageData where
  gpa := .ofNat gpa
  compatibilityMask := sevSnpCompat
  flags := {}
  dataType := dataType
  data := []

/-- The addresses of a region's pages. -/
def pageStarts (r : OvmfRegion) : List Nat :=
  (List.range (pagesOf r.size)).map fun pg => r.base + pg * pageSize

/-- The pages that a region gets. -/
def sevPages (ovmfmeta : OvmfMeta) (r : OvmfRegion) : List PageData :=
  match sevPageType r.etype with
  | none => []
  | some t =>
      ((pageStarts r).filter (fun gpa => !inParamArea ovmfmeta gpa)).map
        (sevPage t)

theorem addEmptyPages_one (builder : Builder) (gpa : Nat)
    (dataType : IgvmPageDataType) :
    builder.addEmptyPages gpa pageSize sevSnpCompat dataType =
      builder.push [.pageData (sevPage dataType gpa)] := by
  have hone : pagesOf pageSize = 1 := by decide
  simp [addEmptyPages, hone, sevPage]

theorem flatMap_ite_nil {α β : Type} (p : α → Bool) (f : α → β)
    (list : List α) :
    (list.flatMap fun x => if p x = true then [] else [f x]) =
      (list.filter fun x => !p x).map f := by
  induction list with
  | nil => rfl
  | cons x rest ih =>
      rw [List.flatMap_cons, ih, List.filter_cons]
      cases p x <;> rfl

theorem addOvmfSnpRegion_eq (ovmfmeta : OvmfMeta) (builder : Builder)
    (r : OvmfRegion) :
    addOvmfSnpRegion ovmfmeta builder r =
      builder.push ((sevPages ovmfmeta r).map .pageData) := by
  unfold addOvmfSnpRegion sevPages
  cases sevPageType r.etype with
  | none => exact (push_nil builder).symm
  | some t =>
      have hstep : ∀ (builder : Builder) (pg : Nat),
          (let gpa := r.base + pg * pageSize
           if inParamArea ovmfmeta gpa then builder
           else builder.addEmptyPages gpa pageSize sevSnpCompat t) =
          builder.push (if inParamArea ovmfmeta (r.base + pg * pageSize) = true
            then []
            else [.pageData (sevPage t (r.base + pg * pageSize))]) := by
        intro builder pg
        simp only [addEmptyPages_one]
        split
        · exact (push_nil builder).symm
        · rfl
      simp only [foldl_push hstep, flatMap_ite_nil, pageStarts,
        List.filter_map, List.map_map]
      rfl

/-- All SEV pages at once, region by region. -/
theorem addOvmfSnpPages_eq (builder : Builder) (ovmfmeta : OvmfMeta) :
    builder.addOvmfSnpPages ovmfmeta =
      builder.push (ovmfmeta.regions.flatMap fun r =>
        (sevPages ovmfmeta r).map .pageData) :=
  foldl_push (addOvmfSnpRegion_eq ovmfmeta) _ builder

/-- What the parameters of the firmware become, with the mask of the
platforms. -/
def igvmParams (ovmfmeta : OvmfMeta) (mask : UInt32) :
    List IgvmDirectiveHeader :=
  match ovmfmeta.regions.find? (fun r => r.etype = .igvmParamArea) with
  | none => []
  | some area =>
      [.parameterArea (.ofNat area.size) 0 []] ++
        ovmfmeta.regions.flatMap igvmParam ++
        [.parameterInsert ⟨0, .ofNat area.base, mask⟩]

/-- The directives about a parameter area. -/
def isParam : IgvmDirectiveHeader → Bool
  | .parameterArea _ _ _ => true
  | .memoryMap _ => true
  | .vpCount _ => true
  | .parameterInsert _ => true
  | _ => false

theorem isParam_of_mem_igvmParams {ovmfmeta : OvmfMeta} {mask : UInt32}
    {d : IgvmDirectiveHeader} (hd : d ∈ igvmParams ovmfmeta mask) :
    isParam d = true := by
  unfold igvmParams at hd
  split at hd
  · cases hd
  · simp only [List.mem_append, List.mem_singleton, List.mem_flatMap] at hd
    rcases hd with (rfl | ⟨r, -, hparam⟩) | rfl
    · rfl
    · unfold igvmParam at hparam
      split at hparam <;> simp at hparam <;> rw [hparam] <;> rfl
    · rfl

theorem addOvmfIgvmParams_eq (builder : Builder) (ovmfmeta : OvmfMeta) :
    builder.addOvmfIgvmParams ovmfmeta =
      builder.push (igvmParams ovmfmeta builder.compatibilityMaskAll) := by
  unfold addOvmfIgvmParams igvmParams
  cases ovmfmeta.regions.find? (fun r => r.etype = .igvmParamArea) with
  | none => exact (push_nil builder).symm
  | some area => rfl

end Builder

end Push

section Operations

namespace Builder

def addSnpPolicyOr (crate : IgvmCrate) (builder : Builder)
    (policy : Option UInt64) : Builder :=
  { builder with
    initializations := builder.initializations ++
      [.guestPolicy (policy.getD (crate.snpPolicy 1 1)) sevSnpCompat] }

def addEmptyNormalPages (builder : Builder) (base size : Nat) : Builder :=
  builder.addEmptyPages base size builder.compatibilityMaskAll .normal

def addIgvmParamArea (builder : Builder) (index : UInt32) (bytes : UInt64) :
    Builder :=
  builder.push [.parameterArea bytes index []]

def addIgvmParam (builder : Builder)
    (mkdirective : IgvmParameter → IgvmDirectiveHeader)
    (index offset : UInt32) : Builder :=
  builder.push [mkdirective ⟨index, offset⟩]

def addIgvmParamMemmap (builder : Builder) (index offset : UInt32) :
    Builder :=
  builder.addIgvmParam .memoryMap index offset

def addIgvmParamVpcount (builder : Builder) (index offset : UInt32) :
    Builder :=
  builder.addIgvmParam .vpCount index offset

def addIgvmParamInsert (builder : Builder) (index : UInt32) (gpa : UInt64) :
    Builder :=
  builder.push [.parameterInsert ⟨index, gpa, builder.compatibilityMaskAll⟩]

end Builder

/-- A call of one of the public operations. -/
inductive BuilderOp where
  | addNativePlatform
  | addSnpPlatform
  | addNativeContext (regs : List X86Register)
  | addSnpVmsaContext (regs : List X86Register) (debug : Bool)
      (vpIndex : UInt16)
  | addSnpPolicy (policy : Option UInt64)
  | addEmptyPages (base size : Nat) (compatibilityMask : UInt32)
      (dataType : IgvmPageDataType)
  | addEmptyNormalPages (base size : Nat)
  | addOvmfSnpPages (ovmfmeta : OvmfMeta)
  | addIgvmParamArea (index : UInt32) (bytes : UInt64)
  | addIgvmParamMemmap (index offset : UInt32)
  | addIgvmParamVpcount (index offset : UInt32)
  | addIgvmParamInsert (index : UInt32) (gpa : UInt64)
  | addOvmfIgvmParams (ovmfmeta : OvmfMeta)
  | addDataPagesFlags (base : Nat) (data : Bytes) (flags : IgvmPageDataFlags)
  | addDataPages (base : Nat) (data : Bytes)
  | addDataPagesUnmeasured (base : Nat) (data : Bytes)
  | removePageDataInRange (base size : Nat)
  | addFirmware4g (firmware : Bytes)
  | addFirmware1m (firmware : Bytes)
  | addUefivars (uefivars : Bytes) (fwsize : Nat)

namespace BuilderOp

def apply (crate : IgvmCrate) (builder : Builder) : BuilderOp → Builder
  | addNativePlatform => builder.addNativePlatform
  | addSnpPlatform => builder.addSnpPlatform
  | addNativeContext regs => builder.addNativeContext crate regs
  | addSnpVmsaContext regs debug vpIndex =>
      builder.addSnpVmsaContext crate regs debug vpIndex
  | addSnpPolicy policy => builder.addSnpPolicyOr crate policy
  | addEmptyPages base size compatibilityMask dataType =>
      builder.addEmptyPages base size compatibilityMask dataType
  | addEmptyNormalPages base size => builder.addEmptyNormalPages base size
  | addOvmfSnpPages ovmfmeta => builder.addOvmfSnpPages ovmfmeta
  | addIgvmParamArea index bytes => builder.addIgvmParamArea index bytes
  | addIgvmParamMemmap index offset =>
      builder.addIgvmParamMemmap index offset
  | addIgvmParamVpcount index offset =>
      builder.addIgvmParamVpcount index offset
  | addIgvmParamInsert index gpa => builder.addIgvmParamInsert index gpa
  | addOvmfIgvmParams ovmfmeta => builder.addOvmfIgvmParams ovmfmeta
  | addDataPagesFlags base data flags =>
      builder.addDataPagesFlags base data flags
  | addDataPages base data => builder.addDataPages base data
  | addDataPagesUnmeasured base data =>
      builder.addDataPagesUnmeasured base data
  | removePageDataInRange base size =>
      builder.removePageDataInRange base size
  | addFirmware4g firmware => builder.addFirmware4g firmware
  | addFirmware1m firmware => builder.addFirmware1m firmware
  | addUefivars uefivars fwsize => builder.addUefivars uefivars fwsize

/-- Which directives stay. -/
def keeps : BuilderOp → IgvmDirectiveHeader → Bool
  | removePageDataInRange base size => Builder.keepDirective base size
  | _ => fun _ => true

/-- What the operation appends: what it leaves in a builder that has no
directive yet. -/
def adds (crate : IgvmCrate) (builder : Builder) (op : BuilderOp) :
    List IgvmDirectiveHeader :=
  (op.apply crate { builder with directives := [] }).directives

theorem directives_apply (crate : IgvmCrate) (builder : Builder)
    (op : BuilderOp) :
    (op.apply crate builder).directives =
      builder.directives.filter op.keeps ++ op.adds crate builder := by
  cases op with
  | removePageDataInRange base size =>
      simp [apply, adds, keeps, Builder.removePageDataInRange]
  | addOvmfSnpPages ovmfmeta =>
      simp [apply, adds, keeps, Builder.addOvmfSnpPages_eq]
  | addOvmfIgvmParams ovmfmeta =>
      simp [apply, adds, keeps, Builder.addOvmfIgvmParams_eq]
  | addNativePlatform | addSnpPlatform | addSnpPolicy policy =>
      simp [apply, adds, keeps, Builder.addNativePlatform,
        Builder.addSnpPlatform, Builder.addSnpPolicyOr]
  | _ =>
      simp only [keeps, List.filter_true]
      rfl

end BuilderOp

/-- The builder after a sequence of operations. -/
def runOps (crate : IgvmCrate) (builder : Builder) (ops : List BuilderOp) :
    Builder :=
  ops.foldl (BuilderOp.apply crate) builder

/-- Everything that the operations append, in order. -/
def addedBy (crate : IgvmCrate) (builder : Builder) :
    List BuilderOp → List IgvmDirectiveHeader
  | [] => []
  | op :: rest => op.adds crate builder ++
      addedBy crate (op.apply crate builder) rest

/-- What is left is what was appended, less what was dropped. -/
theorem runOps_sublist (crate : IgvmCrate) (builder : Builder)
    (ops : List BuilderOp) :
    (runOps crate builder ops).directives.Sublist
      (builder.directives ++ addedBy crate builder ops) := by
  induction ops generalizing builder with
  | nil => simp [runOps, addedBy]
  | cons op rest ih =>
      refine (ih _).trans ?_
      rw [op.directives_apply, addedBy, ← List.append_assoc]
      exact (List.filter_sublist.append_right _).append_right _

/-- A directive that no operation drops is left in its place. -/
theorem filter_runOps {p : IgvmDirectiveHeader → Bool}
    (hkept : ∀ (op : BuilderOp) d, p d = true → op.keeps d = true)
    (crate : IgvmCrate) (builder : Builder) (ops : List BuilderOp) :
    (runOps crate builder ops).directives.filter p =
      builder.directives.filter p ++
        (addedBy crate builder ops).filter p := by
  induction ops generalizing builder with
  | nil => simp [runOps, addedBy]
  | cons op rest ih =>
      have hfilter : (builder.directives.filter op.keeps).filter p =
          builder.directives.filter p := by
        rw [List.filter_filter]
        apply List.filter_congr
        intro d _
        cases hp : p d with
        | false => rfl
        | true => simp [hkept op d hp]
      have hstep := ih (op.apply crate builder)
      rw [op.directives_apply, List.filter_append, hfilter,
        List.append_assoc, ← List.filter_append] at hstep
      exact hstep

end Operations

end Igvm

end Kettle
