/-
What a launch digest is a digest of: the sequence of measured pages of an IGVM
file, stated without the batching registers of the measuring loop.
-/
import Kettle.Igvm.Measure
import Mathlib.Data.List.Chain
import Mathlib.Data.List.Perm.Basic

namespace Kettle

namespace Igvm

/-- One measured page: its SNP type, its guest address and, for the page types
whose contents are hashed, the 4096 bytes that are hashed. -/
structure MeasuredPage where
  pageType : UInt8
  gpa : UInt64
  contents : Option Bytes
deriving DecidableEq

/-- The CONTENTS field of the page's PAGE_INFO. -/
def MeasuredPage.contentsDigest (sha384 : Bytes → Digest384)
    (page : MeasuredPage) : Digest384 :=
  match page.contents with
  | some bytes => sha384 bytes
  | none => zeros48

/-- The (contents, type, gpa) triple that one PAGE_INFO adds to the digest. -/
structure PageEntry where
  contents : Digest384
  pageType : UInt8
  gpa : UInt64
deriving DecidableEq

def MeasuredPage.entry (sha384 : Bytes → Digest384) (page : MeasuredPage) :
    PageEntry :=
  ⟨page.contentsDigest sha384, page.pageType, page.gpa⟩

/-- The page that a PageData directive has measured. -/
def PageData.measured (page : PageData) : MeasuredPage :=
  match page.dataType with
  | .secrets => ⟨snpPageTypeSecrets, page.gpa, none⟩
  | .cpuidData | .cpuidXf => ⟨snpPageTypeCpuid, page.gpa, none⟩
  | .normal | .other _ =>
      if page.flags.unmeasured then ⟨snpPageTypeUnmeasured, page.gpa, none⟩
      else
        ⟨snpPageTypeNormal, page.gpa, some (page.data.zeroPad pageSize)⟩

/-- Data presence: only a hashed page counts as having data. -/
def PageData.hasData (page : PageData) : Bool :=
  page.measured.contents.isSome && !page.data.isEmpty

@[simp] theorem PageData.measured_gpa (page : PageData) :
    page.measured.gpa = page.gpa := by
  unfold PageData.measured
  split <;> first | rfl | (split <;> rfl)

theorem classifyPageData_eq (sha384 : Bytes → Digest384) (page : PageData) :
    classifyPageData sha384 page.dataType page.flags page.data =
      (page.measured.pageType, page.measured.contentsDigest sha384,
        page.hasData) := by
  unfold classifyPageData PageData.hasData PageData.measured
  cases page.dataType with
  | secrets => rfl
  | cpuidData => rfl
  | cpuidXf => rfl
  | normal => by_cases hflag : page.flags.unmeasured <;> simp [hflag,
      MeasuredPage.contentsDigest]
  | other code => by_cases hflag : page.flags.unmeasured <;> simp [hflag,
      MeasuredPage.contentsDigest]

/-- A PageData directive with its index in the directive list. -/
structure IndexedPage where
  dirIdx : Nat
  page : PageData

/-- `next` extends the batch that ends in `prev`: consecutive directives,
addresses one page apart, the same SNP type and the same data presence. -/
def Continues (prev next : IndexedPage) : Prop :=
  next.page.measured.pageType = prev.page.measured.pageType ∧
    next.page.hasData = prev.page.hasData ∧
    next.page.gpa = prev.page.gpa + UInt64.ofNat pageSize ∧
    next.dirIdx = prev.dirIdx + 1

instance : DecidableRel Continues := fun prev next => by
  unfold Continues
  infer_instance

/-- The batch that the pages seen so far end in: their longest suffix in which
every page continues the one before. -/
def currentBatch : List IndexedPage → List IndexedPage
  | [] => []
  | page :: rest =>
      if (page :: rest).IsChain Continues then page :: rest
      else currentBatch rest

theorem currentBatch_isChain (pages : List IndexedPage) :
    (currentBatch pages).IsChain Continues := by
  induction pages with
  | nil => exact List.IsChain.nil
  | cons page rest ih =>
      unfold currentBatch
      split
      · assumption
      · exact ih

/-- A page that continues the last one joins the batch; any other page starts
a batch of its own. -/
theorem currentBatch_concat (pages : List IndexedPage) (next : IndexedPage) :
    currentBatch (pages ++ [next]) =
      if ∀ prev ∈ pages.getLast?, Continues prev next then
        currentBatch pages ++ [next]
      else [next] := by
  induction pages with
  | nil => simp [currentBatch]
  | cons page rest ih =>
      have hchain : ((page :: rest) ++ [next]).IsChain Continues ↔
          (page :: rest).IsChain Continues ∧
            ∀ prev ∈ (page :: rest).getLast?, Continues prev next := by
        rw [List.isChain_append]
        simp
      rw [List.cons_append, currentBatch, ← List.cons_append]
      by_cases hlast : ∀ prev ∈ (page :: rest).getLast?, Continues prev next
      · rw [if_pos hlast]
        by_cases hwhole : (page :: rest).IsChain Continues
        · rw [if_pos (hchain.mpr ⟨hwhole, hlast⟩), currentBatch,
            if_pos hwhole]
        · have hrest : ∀ prev ∈ rest.getLast?, Continues prev next := by
            cases rest with
            | nil => simp
            | cons second rest' => simpa using hlast
          rw [if_neg (fun h => hwhole (hchain.mp h).1), ih, if_pos hrest,
            currentBatch, if_neg hwhole]
      · rw [if_neg hlast, if_neg (fun h => hlast (hchain.mp h).2), ih]
        cases rest with
        | nil => simp [currentBatch]
        | cons second rest' =>
            rw [if_neg]
            simpa using hlast

/-- The measured pages placed so far and the PageData directives among them. -/
structure Placement where
  placed : List MeasuredPage
  pages : List IndexedPage

def Placement.empty : Placement := ⟨[], []⟩

/-- Put `inserted` in front of the last `count` placed pages. -/
def insertBefore (placed inserted : List MeasuredPage) (count : Nat) :
    List MeasuredPage :=
  placed.take (placed.length - count) ++ inserted ++
    placed.drop (placed.length - count)

/-- The pages of a ParameterInsert into an area of the given size. -/
def insertPages (gpa areaSize : UInt64) : List MeasuredPage :=
  (insertGpas gpa areaSize).map (fun gpa => ⟨snpPageTypeUnmeasured, gpa, none⟩)

/-- The page of a VMSA, after the KVM overrides. -/
def SnpVpContext.measured (context : SnpVpContext) : MeasuredPage :=
  ⟨snpPageTypeVmsa, vmsaGpa,
    some (applyKvmVmsaOverrides (context.vmsa.zeroPad pageSize))⟩

section

variable (snpCompat : UInt32) (paramAreas : UInt32 → Option UInt64)

/-- The pages one directive contributes before the VMSA tail. -/
def directivePages : IgvmDirectiveHeader → List MeasuredPage
  | .pageData page =>
      if page.compatibilityMask &&& snpCompat = 0 then [] else [page.measured]
  | .parameterInsert insert =>
      if insert.compatibilityMask &&& snpCompat = 0 then []
      else
        match paramAreas insert.parameterAreaIndex with
        | none => []
        | some areaSize => insertPages insert.gpa areaSize
  | _ => []

/-- Place the pages of one directive: those of a PageData at the end, those of
a ParameterInsert in front of the current batch. -/
def Placement.place (dirIdx : Nat) (placement : Placement)
    (directive : IgvmDirectiveHeader) : Placement :=
  match directive with
  | .pageData page =>
      if page.compatibilityMask &&& snpCompat = 0 then placement
      else
        ⟨placement.placed ++ [page.measured],
          placement.pages ++ [⟨dirIdx, page⟩]⟩
  | .parameterInsert _ =>
      { placement with
        placed := insertBefore placement.placed
          (directivePages snpCompat paramAreas directive)
          (currentBatch placement.pages).length }
  | _ => placement

def Placement.placeAll : Nat → Placement → List IgvmDirectiveHeader → Placement
  | _, placement, [] => placement
  | dirIdx, placement, directive :: rest =>
      Placement.placeAll (dirIdx + 1)
        (placement.place snpCompat paramAreas dirIdx directive) rest

/-- The VMSA pages, in file order. -/
def vmsaPagesOf (directives : List IgvmDirectiveHeader) :
    List MeasuredPage :=
  directives.filterMap fun
    | .snpVpContext context =>
        if context.compatibilityMask &&& snpCompat = 0 then none
        else some context.measured
    | _ => none

end

/-- The compatibility mask of the first SEV_SNP platform. -/
def IgvmFile.snpCompat (igvm : IgvmFile) : UInt32 :=
  ((igvm.platforms.find? (fun plat => plat.platformType = .sevSnp)).map
    (·.compatibilityMask)).getD 0

/-- The measured sequence of a file: batched directive order, then VMSAs. -/
def measuredSequence (igvm : IgvmFile) : List MeasuredPage :=
  (Placement.placeAll igvm.snpCompat (collectParamAreas igvm) 0 .empty
      igvm.directives).placed ++
    vmsaPagesOf igvm.snpCompat igvm.directives

/-- The same pages in plain directive order, then VMSAs. -/
def directiveOrder (igvm : IgvmFile) : List MeasuredPage :=
  igvm.directives.flatMap
      (directivePages igvm.snpCompat (collectParamAreas igvm)) ++
    vmsaPagesOf igvm.snpCompat igvm.directives

end Igvm

end Kettle
