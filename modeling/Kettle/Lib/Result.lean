/-
`Option` and `Result` plumbing.
-/
import Mathlib.Data.List.Forall2
import Mathlib.Init

namespace Kettle

/-- `Option::ok_or`. -/
def okOr {α : Type} (message : String) : Option α → Except String α
  | some value => .ok value
  | none => .error message

@[simp] theorem okOr_some {α : Type} (message : String) (value : α) :
    okOr message (some value) = .ok value := rfl

@[simp] theorem okOr_none {α : Type} (message : String) :
    okOr message (none : Option α) = .error message := rfl

@[simp] theorem ok_bind {ε α β : Type} (value : α)
    (next : α → Except ε β) : (Except.ok value >>= next) = next value := rfl

@[simp] theorem error_bind {ε α β : Type} (error : ε)
    (next : α → Except ε β) :
    ((Except.error error : Except ε α) >>= next) = .error error := rfl

/-- A computation that succeeds has succeeded at its first step. -/
theorem bind_eq_ok_iff {ε α β : Type} {first : Except ε α}
    {next : α → Except ε β} {result : β} :
    (first >>= next) = .ok result ↔
      ∃ value, first = .ok value ∧ next value = .ok result := by
  cases first with
  | error error => simp
  | ok value => simp

theorem okOr_eq_ok_iff {α : Type} {message : String} {value : Option α}
    {result : α} : okOr message value = .ok result ↔ value = some result := by
  cases value <;> simp

theorem map_eq_ok_iff {α β : Type} {first : Except String α} {f : α → β}
    {result : β} :
    (f <$> first) = .ok result ↔ ∃ value, first = .ok value ∧ f value = result := by
  cases first with
  | error message => simp [Functor.map, Except.map]
  | ok value => simp [Functor.map, Except.map]

section Traversal

variable {ε α β : Type} {f : α → Except ε β}

/-- A loop that goes through has one result for each item. -/
theorem mapM_eq_ok_iff {items : List α} {results : List β} :
    items.mapM f = .ok results ↔
      List.Forall₂ (fun item result => f item = .ok result) items results := by
  induction items generalizing results with
  | nil => cases results <;> simp [pure, Except.pure]
  | cons item items ih =>
      rw [List.mapM_cons, bind_eq_ok_iff, List.forall₂_cons_left_iff]
      simp only [bind_eq_ok_iff, ih]
      constructor
      · rintro ⟨result, hresult, rest, hrest, heq⟩
        cases heq
        exact ⟨result, rest, hresult, hrest, rfl⟩
      · rintro ⟨result, rest, hresult, hrest, rfl⟩
        exact ⟨result, hresult, rest, hrest, rfl⟩

/-- A loop fails when one of its items does. -/
theorem exists_mapM_eq_error_iff {items : List α} :
    (∃ error, items.mapM f = .error error) ↔
      ∃ item ∈ items, ∃ error, f item = .error error := by
  induction items with
  | nil => simp [pure, Except.pure]
  | cons item items ih =>
      simp only [List.mapM_cons, List.exists_mem_cons_iff, ← ih]
      cases f item with
      | error error => simp
      | ok result =>
          cases items.mapM f with
          | error error => simp
          | ok results => simp [pure, Except.pure]

/-- What the results of a loop have in common, its items have. -/
theorem forall_mem_iff_of_forall₂ {relation : α → β → Prop} {p : α → Prop}
    {q : β → Prop} (hpq : ∀ item result, relation item result →
      (q result ↔ p item)) {items : List α} {results : List β}
    (hall : List.Forall₂ relation items results) :
    (∀ result ∈ results, q result) ↔ ∀ item ∈ items, p item := by
  induction hall with
  | nil => simp
  | cons hhead _ ih =>
      rw [List.forall_mem_cons, List.forall_mem_cons, hpq _ _ hhead, ih]

/-- Every result of a loop has its item. -/
theorem exists_mem_of_forall₂ {relation : α → β → Prop} {items : List α}
    {results : List β} (hall : List.Forall₂ relation items results)
    {result : β} (hresult : result ∈ results) :
    ∃ item ∈ items, relation item result := by
  induction hall with
  | nil => cases hresult
  | @cons item _ items _ hhead _ ih =>
      rcases List.mem_cons.mp hresult with rfl | hrest
      · exact ⟨item, List.mem_cons_self, hhead⟩
      · obtain ⟨found, hfound, hrelated⟩ := ih hrest
        exact ⟨found, List.mem_cons_of_mem _ hfound, hrelated⟩

end Traversal

end Kettle
