/-
The page map as a function of the directive list: at each address it has the
last PageData with data, so that a stable sort by address does not change it.
-/
import Kettle.Igvm.Extract
import Kettle.Lib.StableSort

namespace Kettle

namespace Igvm

/-- The entry that a PageData adds to the page map. -/
def PageData.mapped (page : PageData) : Option (Nat × Page) :=
  if page.data.isEmpty then none
  else some (page.gpa.toNat, page.data.zeroPadVec pageSize)

def mappedPage : IgvmDirectiveHeader → Option (Nat × Page)
  | .pageData page => page.mapped
  | _ => none

theorem recordPage_eq (map : PageMap) (directive : IgvmDirectiveHeader) :
    recordPage map directive =
      match mappedPage directive with
      | some entry => map.insert entry.1 entry.2
      | none => map := by
  cases directive with
  | pageData page => by_cases hempty : page.data.isEmpty <;>
      simp [recordPage, mappedPage, PageData.mapped, hempty]
  | _ => rfl

/-- The page map is filled by the mapped pages in file order. -/
theorem pageMap_eq_foldl (igvm : IgvmFile) :
    pageMap igvm = (igvm.directives.filterMap mappedPage).foldl
      (fun map entry => map.insert entry.1 entry.2) .empty := by
  suffices hfold : ∀ (directives : List IgvmDirectiveHeader) (map : PageMap),
      directives.foldl recordPage map =
        (directives.filterMap mappedPage).foldl
          (fun map entry => map.insert entry.1 entry.2) map from
    hfold igvm.directives .empty
  intro directives
  induction directives with
  | nil => exact fun _ => rfl
  | cons directive rest ih =>
      intro map
      rw [List.foldl_cons, ih, recordPage_eq]
      cases hentry : mappedPage directive with
      | none => rw [List.filterMap_cons_none hentry]
      | some entry => rw [List.filterMap_cons_some hentry, List.foldl_cons]

theorem pageMap_size_le_mapped (igvm : IgvmFile) :
    (pageMap igvm).size ≤ (igvm.directives.filterMap mappedPage).length := by
  rw [pageMap_eq_foldl]
  simpa [SortedMap.empty, SortedMap.size] using
    SortedMap.size_foldl_insert_le (igvm.directives.filterMap mappedPage)
      .empty

theorem pageMap_size_le (igvm : IgvmFile) :
    (pageMap igvm).size ≤ igvm.directives.length :=
  (pageMap_size_le_mapped igvm).trans (List.length_filterMap_le _ _)

/-- What a directive says about the page at `gpa`. -/
def pageAt (directive : IgvmDirectiveHeader) (gpa : Nat) : Option Page :=
  match mappedPage directive with
  | some entry => if entry.1 = gpa then some entry.2 else none
  | none => none

theorem pageAt_of_gpa_ne {page : PageData} {gpa : Nat}
    (hgpa : page.gpa.toNat ≠ gpa) : pageAt (.pageData page) gpa = none := by
  by_cases hempty : page.data.isEmpty <;>
    simp [pageAt, mappedPage, PageData.mapped, hempty, hgpa]

theorem pageAt_of_isEmpty_eq_false {page : PageData}
    (hdata : page.data.isEmpty = false) :
    pageAt (.pageData page) page.gpa.toNat =
      some (page.data.zeroPadVec pageSize) := by
  simp [pageAt, mappedPage, PageData.mapped, hdata]

/-- The page at `gpa` after all directives: the last one wins. -/
def lookupPage (gpa : Nat) : List IgvmDirectiveHeader → Option Page
  | [] => none
  | directive :: rest => (lookupPage gpa rest).or (pageAt directive gpa)

theorem pageMap_get? (igvm : IgvmFile) (gpa : Nat) :
    (pageMap igvm).get? gpa = lookupPage gpa igvm.directives := by
  suffices hfold : ∀ (directives : List IgvmDirectiveHeader) (map : PageMap),
      (directives.foldl recordPage map).get? gpa =
        (lookupPage gpa directives).or (map.get? gpa) by
    simpa [pageMap] using hfold igvm.directives .empty
  intro directives
  induction directives with
  | nil => exact fun _ => rfl
  | cons directive rest ih =>
      intro map
      rw [List.foldl_cons, ih, lookupPage, Option.or_assoc]
      congr 1
      rw [recordPage_eq, pageAt]
      cases mappedPage directive with
      | none => rfl
      | some entry =>
          by_cases hgpa : entry.1 = gpa <;> simp [hgpa]

theorem lookupPage_append (gpa : Nat)
    (front back : List IgvmDirectiveHeader) :
    lookupPage gpa (front ++ back) =
      (lookupPage gpa back).or (lookupPage gpa front) := by
  induction front with
  | nil => simp [lookupPage]
  | cons directive rest ih =>
      rw [List.cons_append, lookupPage, ih, lookupPage, Option.or_assoc]

/-- A page in the map is one of the directives'. -/
theorem exists_of_lookupPage {gpa : Nat} {page : Page}
    {directives : List IgvmDirectiveHeader}
    (hlookup : lookupPage gpa directives = some page) :
    ∃ data, .pageData data ∈ directives ∧ data.data ≠ [] ∧
      data.gpa.toNat = gpa ∧ data.data.zeroPadVec pageSize = page := by
  induction directives with
  | nil => cases hlookup
  | cons directive rest ih =>
      rw [lookupPage, Option.or_eq_some_iff] at hlookup
      rcases hlookup with hrest | ⟨-, hhead⟩
      · obtain ⟨data, hmem, hdata⟩ := ih hrest
        exact ⟨data, List.mem_cons_of_mem _ hmem, hdata⟩
      · cases directive with
        | pageData data =>
            simp only [pageAt, mappedPage, PageData.mapped] at hhead
            by_cases hempty : data.data.isEmpty
            · simp [hempty] at hhead
            · by_cases hgpa : data.gpa.toNat = gpa
              · simp only [hempty, hgpa, if_true, Bool.false_eq_true,
                  if_false, Option.some.injEq] at hhead
                exact ⟨data, List.mem_cons_self, by simpa using hempty, hgpa,
                  hhead⟩
              · simp [hempty, hgpa] at hhead
        | _ => cases hhead

/-- Directives that say nothing about an address leave it unmapped. -/
theorem lookupPage_eq_none {gpa : Nat}
    {directives : List IgvmDirectiveHeader}
    (hnone : ∀ data, .pageData data ∈ directives → data.gpa.toNat ≠ gpa) :
    lookupPage gpa directives = none := by
  cases hlookup : lookupPage gpa directives with
  | none => rfl
  | some page =>
      obtain ⟨data, hmem, -, hgpa, -⟩ := exists_of_lookupPage hlookup
      exact absurd hgpa (hnone data hmem)

/-- Dropping directives that say nothing about an address keeps its page. -/
theorem lookupPage_filter {gpa : Nat} {keep : IgvmDirectiveHeader → Bool}
    {directives : List IgvmDirectiveHeader}
    (hkeep : ∀ directive ∈ directives, keep directive = false →
      pageAt directive gpa = none) :
    lookupPage gpa (directives.filter keep) = lookupPage gpa directives := by
  induction directives with
  | nil => rfl
  | cons directive rest ih =>
      have hrest := ih fun other hmem =>
        hkeep other (List.mem_cons_of_mem _ hmem)
      by_cases hhead : keep directive
      · rw [List.filter_cons_of_pos hhead, lookupPage, lookupPage, hrest]
      · have hnone := hkeep directive List.mem_cons_self (by simpa using hhead)
        rw [List.filter_cons_of_neg hhead, lookupPage, hrest, hnone,
          Option.or_none]

end Igvm

end Kettle
