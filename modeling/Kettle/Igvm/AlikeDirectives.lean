/-
Directive lists that are measured alike.  Two directives may differ in a mask
that counts for SNP in both, and one list may have more CPU contexts in front,
which moves every other directive to a later index.
-/
import Kettle.Igvm.MeasureRefinement
import Mathlib.Data.List.Forall2

namespace Kettle

namespace Igvm

section Shift

variable {k : Nat}

/-- The same page, `k` directives later, as far as measuring goes. -/
structure IndexedPage.Shifted (k : Nat) (left right : IndexedPage) :
    Prop where
  dirIdx : right.dirIdx = left.dirIdx + k
  measured : right.page.measured = left.page.measured
  hasData : right.page.hasData = left.page.hasData

theorem IndexedPage.Shifted.gpa {left right : IndexedPage}
    (hshift : left.Shifted k right) : right.page.gpa = left.page.gpa := by
  rw [← PageData.measured_gpa, hshift.measured, PageData.measured_gpa]

theorem continues_iff_of_shifted {prev prev' next next' : IndexedPage}
    (hprev : prev.Shifted k prev') (hnext : next.Shifted k next') :
    Continues prev next ↔ Continues prev' next' := by
  unfold Continues
  rw [hprev.dirIdx, hnext.dirIdx, hprev.measured, hnext.measured,
    hprev.hasData, hnext.hasData, hprev.gpa, hnext.gpa]
  have hindex : next.dirIdx = prev.dirIdx + 1 ↔
      next.dirIdx + k = prev.dirIdx + k + 1 := by omega
  rw [hindex]

theorem isChain_iff_of_shifted {left right : List IndexedPage}
    (hpages : List.Forall₂ (IndexedPage.Shifted k) left right) :
    left.IsChain Continues ↔ right.IsChain Continues := by
  induction hpages with
  | nil => simp
  | @cons prev prev' rest rest' hprev hrest ih =>
      cases hrest with
      | nil => simp
      | cons hnext _ =>
          rw [List.isChain_cons_cons, List.isChain_cons_cons, ih,
            continues_iff_of_shifted hprev hnext]

/-- Batches are found by differences of indices. -/
theorem length_currentBatch_of_shifted {left right : List IndexedPage}
    (hpages : List.Forall₂ (IndexedPage.Shifted k) left right) :
    (currentBatch right).length = (currentBatch left).length := by
  induction hpages with
  | nil => rfl
  | @cons page page' rest rest' hpage hrest ih =>
      have hchain := isChain_iff_of_shifted (.cons hpage hrest)
      rw [currentBatch, currentBatch]
      by_cases hwhole : (page :: rest).IsChain Continues
      · rw [if_pos (hchain.mp hwhole), if_pos hwhole, List.length_cons,
          List.length_cons, hrest.length_eq]
      · rw [if_neg fun h => hwhole (hchain.mpr h), if_neg hwhole, ih]

end Shift

section Alike

/-- Equal up to a mask that counts in both. -/
inductive AlikeFor (snpCompat : UInt32) :
    IgvmDirectiveHeader → IgvmDirectiveHeader → Prop where
  | same (directive : IgvmDirectiveHeader) :
      AlikeFor snpCompat directive directive
  | page (page : PageData) (mask : UInt32)
      (hpage : page.compatibilityMask &&& snpCompat ≠ 0)
      (hmask : mask &&& snpCompat ≠ 0) :
      AlikeFor snpCompat (.pageData page)
        (.pageData { page with compatibilityMask := mask })
  | insert (insert : IgvmParameterInsert) (mask : UInt32)
      (hinsert : insert.compatibilityMask &&& snpCompat ≠ 0)
      (hmask : mask &&& snpCompat ≠ 0) :
      AlikeFor snpCompat (.parameterInsert insert)
        (.parameterInsert { insert with compatibilityMask := mask })

/-- The context of a virtual CPU. -/
def IgvmDirectiveHeader.isContext : IgvmDirectiveHeader → Bool
  | .snpVpContext _ => true
  | .x64NativeVpContext _ _ _ => true
  | _ => false

variable {snpCompat : UInt32} {left right : IgvmDirectiveHeader}

theorem AlikeFor.recordParamArea (halike : AlikeFor snpCompat left right)
    (areas : UInt32 → Option UInt64) :
    Igvm.recordParamArea areas right = Igvm.recordParamArea areas left := by
  cases halike <;> rfl

theorem AlikeFor.vmsaPagesOf (halike : AlikeFor snpCompat left right) :
    Igvm.vmsaPagesOf snpCompat [right] = Igvm.vmsaPagesOf snpCompat [left] := by
  cases halike <;> rfl

theorem AlikeFor.directivePages (halike : AlikeFor snpCompat left right)
    (areas : UInt32 → Option UInt64) :
    Igvm.directivePages snpCompat areas right =
      Igvm.directivePages snpCompat areas left := by
  cases halike with
  | same => rfl
  | page page mask hpage hmask =>
      simp only [Igvm.directivePages, if_neg hpage, if_neg hmask]
      rfl
  | insert insert mask hinsert hmask =>
      simp only [Igvm.directivePages, if_neg hinsert, if_neg hmask]

/-- Two placements that differ in the indices of their pages only. -/
structure Placement.Shifted (k : Nat) (left right : Placement) : Prop where
  placed : right.placed = left.placed
  pages : List.Forall₂ (IndexedPage.Shifted k) left.pages right.pages

/-- One directive keeps placements shifted. -/
theorem Placement.Shifted.place {k dirIdx : Nat}
    {areas : UInt32 → Option UInt64} {placement placement' : Placement}
    (hshift : placement.Shifted k placement')
    (halike : AlikeFor snpCompat left right) :
    (placement.place snpCompat areas dirIdx left).Shifted k
      (placement'.place snpCompat areas (dirIdx + k) right) := by
  have hnext : ∀ page page' : PageData, page'.measured = page.measured →
      page'.hasData = page.hasData →
      List.Forall₂ (IndexedPage.Shifted k)
        (placement.pages ++ [⟨dirIdx, page⟩])
        (placement'.pages ++ [⟨dirIdx + k, page'⟩]) :=
    fun page page' hmeasured hdata =>
      List.rel_append hshift.pages (.cons ⟨rfl, hmeasured, hdata⟩ .nil)
  have hbatch := length_currentBatch_of_shifted hshift.pages
  have hpages := halike.directivePages areas
  cases halike with
  | same =>
      cases left with
      | pageData page =>
          by_cases hmask : page.compatibilityMask &&& snpCompat = 0
          · simp only [Placement.place, if_pos hmask]
            exact hshift
          · simp only [Placement.place, if_neg hmask]
            exact ⟨by rw [hshift.placed], hnext page page rfl rfl⟩
      | parameterInsert insert =>
          exact ⟨by simp only [Placement.place, hshift.placed, hbatch],
            hshift.pages⟩
      | _ => exact hshift
  | page page mask hpage hmask =>
      simp only [Placement.place, if_neg hpage, if_neg hmask]
      exact ⟨by rw [hshift.placed]; rfl, hnext page _ rfl rfl⟩
  | insert insert mask hinsert hmask =>
      exact ⟨by simp only [Placement.place, hshift.placed, hbatch, hpages],
        hshift.pages⟩

/-- The same for a whole list. -/
theorem Placement.Shifted.placeAll {k dirIdx : Nat}
    {areas : UInt32 → Option UInt64} {placement placement' : Placement}
    {directives directives' : List IgvmDirectiveHeader}
    (hshift : placement.Shifted k placement')
    (halike : List.Forall₂ (AlikeFor snpCompat) directives directives') :
    (placement.placeAll snpCompat areas dirIdx directives).Shifted k
      (placement'.placeAll snpCompat areas (dirIdx + k) directives') := by
  induction halike generalizing dirIdx placement placement' with
  | nil => exact hshift
  | cons hhead _ ih =>
      rw [Placement.placeAll, Placement.placeAll, Nat.add_right_comm]
      exact ih (hshift.place hhead)

end Alike

section Contexts

variable {snpCompat : UInt32} {front : List IgvmDirectiveHeader}

/-- Contexts place no page. -/
theorem Placement.placeAll_contexts {dirIdx : Nat}
    {areas : UInt32 → Option UInt64}
    (hfront : ∀ d ∈ front, d.isContext = true) (placement : Placement)
    (rest : List IgvmDirectiveHeader) :
    placement.placeAll snpCompat areas dirIdx (front ++ rest) =
      placement.placeAll snpCompat areas (dirIdx + front.length) rest := by
  induction front generalizing dirIdx with
  | nil => rfl
  | cons d others ih =>
      have hnone : placement.place snpCompat areas dirIdx d = placement := by
        have hcontext := hfront d List.mem_cons_self
        cases d with
        | snpVpContext context => rfl
        | x64NativeVpContext mask index context => rfl
        | _ => cases hcontext
      rw [List.cons_append, Placement.placeAll, hnone,
        ih fun e he => hfront e (List.mem_cons_of_mem _ he), List.length_cons,
        Nat.add_assoc, Nat.add_comm 1]

theorem foldl_recordParamArea_contexts
    (hfront : ∀ d ∈ front, d.isContext = true)
    (areas : UInt32 → Option UInt64) :
    front.foldl recordParamArea areas = areas := by
  induction front with
  | nil => rfl
  | cons d others ih =>
      have hnone : recordParamArea areas d = areas := by
        have hcontext := hfront d List.mem_cons_self
        cases d with
        | parameterArea bytes index data => cases hcontext
        | _ => rfl
      rw [List.foldl_cons, hnone,
        ih fun e he => hfront e (List.mem_cons_of_mem _ he)]

/-- The areas of two lists whose directives declare the same ones. -/
theorem foldl_recordParamArea_forall₂
    {R : IgvmDirectiveHeader → IgvmDirectiveHeader → Prop}
    (hrecord : ∀ {left right}, R left right → ∀ areas,
      recordParamArea areas right = recordParamArea areas left)
    {directives directives' : List IgvmDirectiveHeader}
    (hdirectives : List.Forall₂ R directives directives')
    (areas : UInt32 → Option UInt64) :
    directives'.foldl recordParamArea areas =
      directives.foldl recordParamArea areas := by
  induction hdirectives generalizing areas with
  | nil => rfl
  | cons hhead _ ih => rw [List.foldl_cons, List.foldl_cons, hrecord hhead, ih]

theorem vmsaPagesOf_append (front back : List IgvmDirectiveHeader) :
    vmsaPagesOf snpCompat (front ++ back) =
      vmsaPagesOf snpCompat front ++ vmsaPagesOf snpCompat back :=
  List.filterMap_append

/-- A context that counts has its VMSA measured. -/
theorem vmsaPagesOf_snpVpContext {context : SnpVpContext}
    (hmask : context.compatibilityMask &&& snpCompat ≠ 0) :
    vmsaPagesOf snpCompat [.snpVpContext context] = [context.measured] := by
  simp [vmsaPagesOf, hmask]

theorem vmsaPagesOf_alike {directives directives' : List IgvmDirectiveHeader}
    (halike : List.Forall₂ (AlikeFor snpCompat) directives directives') :
    vmsaPagesOf snpCompat directives' = vmsaPagesOf snpCompat directives := by
  induction halike with
  | nil => rfl
  | cons hhead _ ih =>
      rw [vmsaPagesOf_cons, hhead.vmsaPagesOf, ih, ← vmsaPagesOf_cons]

/-- What is left of a list without contexts adds no VMSA. -/
theorem vmsaPagesOf_of_not_isContext {rest : List IgvmDirectiveHeader}
    (hrest : ∀ d ∈ rest, d.isContext = false) :
    vmsaPagesOf snpCompat rest = [] := by
  refine List.filterMap_eq_nil_iff.mpr fun d hd => ?_
  cases d with
  | snpVpContext context => cases hrest _ hd
  | _ => rfl

/-- Two files with contexts in front of directives that are alike: the same
pages, then the VMSAs of the contexts. -/
theorem measuredSequence_of_alike {igvm igvm' : IgvmFile}
    {front front' rest rest' : List IgvmDirectiveHeader}
    (hcompat : igvm'.snpCompat = igvm.snpCompat)
    (hdirectives : igvm.directives = front ++ rest)
    (hdirectives' : igvm'.directives = front' ++ rest')
    (hfront : ∀ d ∈ front, d.isContext = true)
    (hfront' : ∀ d ∈ front', d.isContext = true)
    (hlength : front.length ≤ front'.length)
    (halike : List.Forall₂ (AlikeFor igvm.snpCompat) rest rest')
    (hrest : ∀ d ∈ rest, d.isContext = false) :
    ∃ pages, measuredSequence igvm =
        pages ++ vmsaPagesOf igvm.snpCompat front ∧
      measuredSequence igvm' =
        pages ++ vmsaPagesOf igvm.snpCompat front' := by
  have hareas : collectParamAreas igvm' = collectParamAreas igvm := by
    rw [collectParamAreas, collectParamAreas, hdirectives, hdirectives',
      List.foldl_append, List.foldl_append,
      foldl_recordParamArea_contexts hfront,
      foldl_recordParamArea_contexts hfront',
      foldl_recordParamArea_forall₂ AlikeFor.recordParamArea halike]
  have hvmsas : vmsaPagesOf igvm.snpCompat rest = [] :=
    vmsaPagesOf_of_not_isContext hrest
  refine ⟨(Placement.placeAll igvm.snpCompat (collectParamAreas igvm)
    front.length .empty rest).placed, ?_, ?_⟩
  · rw [measuredSequence, hdirectives, Placement.placeAll_contexts hfront,
      vmsaPagesOf_append, hvmsas, List.append_nil, Nat.zero_add]
  · have hempty : Placement.empty.Shifted (front'.length - front.length)
        .empty := ⟨rfl, .nil⟩
    have hshift := @Placement.Shifted.placeAll _ _ front.length
      (collectParamAreas igvm) _ _ _ _ hempty halike
    rw [Nat.add_sub_cancel' hlength] at hshift
    rw [measuredSequence, hdirectives', hareas, hcompat,
      Placement.placeAll_contexts hfront', vmsaPagesOf_append,
      vmsaPagesOf_alike halike, hvmsas, List.append_nil, Nat.zero_add,
      hshift.placed]

end Contexts

end Igvm

end Kettle
