/-
The order in which `finalize` hands over the directives, after any sequence of
builder operations.  Everything but pages sorts as address 0, the key of a page
at address 0 too.
-/
import Kettle.Igvm.BuilderOps

namespace Kettle

namespace Igvm

namespace IgvmDirectiveHeader

def isPage : IgvmDirectiveHeader → Bool
  | .pageData _ => true
  | _ => false

/-- A page at the given address. -/
def isPageAt (gpa : Nat) : IgvmDirectiveHeader → Bool
  | .pageData page => page.gpa.toNat = gpa
  | _ => false

/-- The area that a `ParameterArea` declares. -/
def areaIndex : IgvmDirectiveHeader → Option UInt32
  | .parameterArea _ index _ => some index
  | _ => none

/-- The area that a `ParameterInsert` names. -/
def insertIndex : IgvmDirectiveHeader → Option UInt32
  | .parameterInsert insert => some insert.parameterAreaIndex
  | _ => none

theorem isPageAt_eq (gpa : Nat) (directive : IgvmDirectiveHeader) :
    directive.isPageAt gpa =
      (directive.isPage && decide (Builder.sortGpa directive = gpa)) := by
  cases directive <;> rfl

theorem sortGpa_of_not_isPage {directive : IgvmDirectiveHeader}
    (hpage : directive.isPage = false) : Builder.sortGpa directive = 0 := by
  cases directive with
  | pageData page => cases hpage
  | _ => rfl

theorem insertIndex_of_isPage {directive : IgvmDirectiveHeader}
    (hpage : directive.isPage = true) : directive.insertIndex = none := by
  cases directive with
  | parameterInsert insert => cases hpage
  | _ => rfl

theorem areaIndex_of_isPage {directive : IgvmDirectiveHeader}
    (hpage : directive.isPage = true) : directive.areaIndex = none := by
  cases directive with
  | parameterArea bytes index data => cases hpage
  | _ => rfl

end IgvmDirectiveHeader

/-- The parameters of the regions neither declare nor insert an area. -/
theorem indices_of_mem_igvmParam {r : OvmfRegion} {d : IgvmDirectiveHeader}
    (hd : d ∈ Builder.igvmParam r) :
    d.insertIndex = none ∧ d.areaIndex = none := by
  unfold Builder.igvmParam at hd
  split at hd
  · rw [List.mem_singleton.mp hd]
    exact ⟨rfl, rfl⟩
  · rw [List.mem_singleton.mp hd]
    exact ⟨rfl, rfl⟩
  · cases hd

section Order

open IgvmDirectiveHeader

/-- No area is declared behind an insert that names it. -/
def AreasFirst (directives : List IgvmDirectiveHeader) : Prop :=
  directives.Pairwise fun earlier later =>
    ∀ index, earlier.insertIndex = some index →
      later.areaIndex ≠ some index

/-- No page at address 0 stands before something that is not a page. -/
def ZeroPagesLast (directives : List IgvmDirectiveHeader) : Prop :=
  directives.Pairwise fun earlier later =>
    earlier.isPageAt 0 = true → later.isPage = true

/-- The order of a finalized list, against everything that was added and what
is left of it in the builder. -/
structure FinalOrder (added recorded final : List IgvmDirectiveHeader) :
    Prop where
  kept : recorded.Sublist added
  othersFirst : final.Pairwise fun earlier later =>
    earlier.isPage = true → later.isPage = true
  others : final.filter (!·.isPage) = added.filter (!·.isPage)
  ascending : (final.filter (·.isPage)).Pairwise fun earlier later =>
    Builder.sortGpa earlier ≤ Builder.sortGpa later
  stable : ∀ gpa, final.filter (isPageAt gpa) = recorded.filter (isPageAt gpa)
  areasFirst : AreasFirst final
  insertsFirst : final.Pairwise fun earlier later =>
    earlier.isPage = true → later.insertIndex = none

/-- The pages of an address stay in their order. -/
theorem filter_isPageAt_sortPages (gpa : Nat)
    (directives : List IgvmDirectiveHeader) :
    (Builder.sortPages directives).filter (isPageAt gpa) =
      directives.filter (isPageAt gpa) := by
  have hsplit : ∀ l : List IgvmDirectiveHeader, l.filter (isPageAt gpa) =
      (l.filter fun d => Builder.sortGpa d = gpa).filter (·.isPage) := by
    intro l
    rw [List.filter_filter]
    exact List.filter_congr fun d _ => isPageAt_eq gpa d
  rw [hsplit (Builder.sortPages directives), hsplit directives,
    Builder.sortPages, StableSort.filter_sortBy]

/-- So does everything that is not a page. -/
theorem filter_others_sortPages (directives : List IgvmDirectiveHeader) :
    (Builder.sortPages directives).filter (!·.isPage) =
      directives.filter (!·.isPage) := by
  have hsplit : ∀ l : List IgvmDirectiveHeader, l.filter (!·.isPage) =
      (l.filter fun d => Builder.sortGpa d = 0).filter (!·.isPage) := by
    intro l
    rw [List.filter_filter]
    apply List.filter_congr
    intro d _
    cases hpage : d.isPage with
    | true => rfl
    | false => simp [sortGpa_of_not_isPage hpage]
  rw [hsplit (Builder.sortPages directives), hsplit directives,
    Builder.sortPages, StableSort.filter_sortBy]

theorem othersFirst_sortPages_iff (directives : List IgvmDirectiveHeader) :
    (Builder.sortPages directives).Pairwise
        (fun earlier later =>
          earlier.isPage = true → later.isPage = true) ↔
      ZeroPagesLast directives := by
  have hiff := @StableSort.sortBy_first_iff _ _ _ Builder.sortGpa
    (fun d => d.isPage = false) 0 (fun _ => Nat.zero_le _)
    (fun _ => sortGpa_of_not_isPage) directives
  have hcontra : ∀ a b : IgvmDirectiveHeader,
      (b.isPage = false → a.isPage = false) ↔
        (a.isPage = true → b.isPage = true) := by
    intro a b
    cases a.isPage <;> cases b.isPage <;> decide
  have hzero : ∀ a b : IgvmDirectiveHeader,
      (Builder.sortGpa a = 0 → a.isPage = true → b.isPage = true) ↔
        (a.isPageAt 0 = true → b.isPage = true) := by
    intro a b
    rw [isPageAt_eq, Bool.and_eq_true, decide_eq_true_eq]
    tauto
  simp only [hcontra, hzero] at hiff
  exact hiff

/-- The parameter directives are not pages, so only these decide it. -/
theorem areasFirst_iff_filter (directives : List IgvmDirectiveHeader) :
    AreasFirst directives ↔ AreasFirst (directives.filter (!·.isPage)) := by
  unfold AreasFirst
  rw [List.pairwise_filter]
  constructor
  · intro h
    refine h.imp ?_
    intro a b hab _ _
    exact hab
  · intro h
    refine h.imp ?_
    intro a b hab index hinsert harea
    refine hab ?_ ?_ index hinsert harea
    · cases hpage : a.isPage with
      | false => rfl
      | true =>
          rw [insertIndex_of_isPage hpage] at hinsert
          cases hinsert
    · cases hpage : b.isPage with
      | false => rfl
      | true =>
          rw [areaIndex_of_isPage hpage] at harea
          cases harea

/-- What is not a page is never dropped. -/
theorem keeps_of_not_isPage (op : BuilderOp) {d : IgvmDirectiveHeader}
    (hpage : (!d.isPage) = true) : op.keeps d = true := by
  cases op with
  | removePageDataInRange base size =>
      cases d with
      | pageData page => cases hpage
      | _ => rfl
  | _ => rfl

variable (crate : IgvmCrate) (ops : List BuilderOp)

/-- Everything that is not a page is left as it was added. -/
theorem filter_others_run :
    (runOps crate .new ops).directives.filter (!·.isPage) =
      (addedBy crate .new ops).filter (!·.isPage) := by
  have hrun := filter_runOps (p := (!·.isPage))
    (fun op d => keeps_of_not_isPage op) crate .new ops
  simpa [Builder.new] using hrun

/-- The finalized list is in order for exactly the sequences of operations
that leave no page at address 0 before something that is not a page, and
declare each area before the inserts that name it. -/
theorem finalOrder_iff :
    (runOps crate .new ops).finalize crate =
        crate.newFile (runOps crate .new ops).platforms
          (runOps crate .new ops).initializations
          (Builder.sortPages (runOps crate .new ops).directives) ∧
      (FinalOrder (addedBy crate .new ops) (runOps crate .new ops).directives
          (Builder.sortPages (runOps crate .new ops).directives) ↔
        ZeroPagesLast (runOps crate .new ops).directives ∧
          AreasFirst (addedBy crate .new ops)) := by
  refine ⟨rfl, ?_⟩
  have hothers := filter_others_run crate ops
  generalize hrecorded : (runOps crate .new ops).directives = recorded at *
  have hareas : AreasFirst (Builder.sortPages recorded) ↔
      AreasFirst (addedBy crate .new ops) := by
    rw [areasFirst_iff_filter, filter_others_sortPages, hothers,
      ← areasFirst_iff_filter]
  constructor
  · intro horder
    exact ⟨(othersFirst_sortPages_iff recorded).mp horder.othersFirst,
      hareas.mp horder.areasFirst⟩
  · rintro ⟨hzero, hadded⟩
    have hfirst := (othersFirst_sortPages_iff recorded).mpr hzero
    refine ⟨?_, hfirst, ?_, ?_, fun gpa => filter_isPageAt_sortPages gpa _,
      hareas.mpr hadded, ?_⟩
    · rw [← hrecorded]
      exact runOps_sublist crate .new ops
    · rw [filter_others_sortPages, hothers]
    · exact (StableSort.pairwise_sortBy Builder.sortGpa recorded).sublist
        List.filter_sublist
    · refine hfirst.imp ?_
      intro earlier later hpages hpage
      exact insertIndex_of_isPage (hpages hpage)

/-- Metadata with a page of memory at address 0 and a parameter area. -/
def zeroPageMeta : OvmfMeta where
  firmware := []
  regions := [⟨0, 0x1000, .sevMemory⟩, ⟨0x80000, 0x1000, .igvmParamArea⟩]
  sevResetAddr := none

/-- What `build` does with such metadata. -/
def zeroPageOps : List BuilderOp :=
  [.addSnpPlatform, .addOvmfSnpPages zeroPageMeta,
    .addOvmfIgvmParams zeroPageMeta]

/-- A crate that takes every file. -/
def plainCrate : IgvmCrate where
  vmsaBytes := fun _ => List.replicate pageSize 0
  nativeContextBytes := fun _ => []
  snpPolicy := fun reservedMustBeOne smt =>
    .ofNat (reservedMustBeOne * 2 ^ 17 + smt * 2 ^ 16)
  newFile := fun platforms initializations directives =>
    .ok ⟨platforms, initializations, directives⟩
  serialize := fun _ => .ok []
  newFromBinary := fun _ => .error "not read"

/-- The page, the area and its insert, as they are added. -/
def zeroPageDirectives : List IgvmDirectiveHeader :=
  [.pageData (Builder.sevPage .normal 0), .parameterArea 0x1000 0 [],
    .parameterInsert ⟨0, 0x80000, sevSnpCompat⟩]

theorem zeroPageOps_directives :
    (runOps plainCrate .new zeroPageOps).directives = zeroPageDirectives ∧
      addedBy plainCrate .new zeroPageOps = zeroPageDirectives := ⟨rfl, rfl⟩

/-- The page at address 0 stays before the parameters. -/
theorem zeroPageOps_not_finalOrder :
    AreasFirst (addedBy plainCrate .new zeroPageOps) ∧
      ¬ FinalOrder (addedBy plainCrate .new zeroPageOps)
        (runOps plainCrate .new zeroPageOps).directives
        (Builder.sortPages
          (runOps plainCrate .new zeroPageOps).directives) := by
  obtain ⟨hrecorded, hadded⟩ := zeroPageOps_directives
  rw [hrecorded, hadded]
  constructor
  · simp [AreasFirst, zeroPageDirectives, insertIndex, areaIndex]
  · intro horder
    have hzero := (othersFirst_sortPages_iff _).mp horder.othersFirst
    have hlater := (List.pairwise_cons.mp hzero).1 _ List.mem_cons_self rfl
    cases hlater

end Order

end Igvm

end Kettle
