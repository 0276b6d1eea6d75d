/-
The lexicographic order of texts that continue one another.
-/
import Mathlib.Data.String.Basic

universe u

namespace LexOrder

section Lists

variable {α : Type u} [LinearOrder α]

theorem append_lt_append_iff (front left right : List α) :
    front ++ left < front ++ right ↔ left < right := by
  induction front with
  | nil => rfl
  | cons a rest ih =>
      rw [List.cons_append, List.cons_append, List.cons_lt_cons_iff, ih]
      simp

/-- Unless the larger list continues the smaller one, the order is settled
whatever follows. -/
theorem continues_or_append_lt {left right : List α} (hlt : left < right) :
    (∃ rest, rest ≠ [] ∧ right = left ++ rest) ∨
      ∀ tail tail', left ++ tail < right ++ tail' := by
  induction left generalizing right with
  | nil =>
      left
      exact ⟨right, fun hnil => by simp [hnil] at hlt, rfl⟩
  | cons a left ih =>
      cases right with
      | nil => simp at hlt
      | cons b right =>
          rcases List.cons_lt_cons_iff.mp hlt with hhead | ⟨rfl, htail⟩
          · right
            intro tail tail'
            exact List.cons_lt_cons_iff.mpr (Or.inl hhead)
          · rcases ih htail with ⟨rest, hrest, rfl⟩ | hsettled
            · exact Or.inl ⟨rest, hrest, rfl⟩
            · right
              intro tail tail'
              apply List.cons_lt_cons_iff.mpr
              exact Or.inr ⟨rfl, hsettled tail tail'⟩

end Lists

section Strings

theorem string_append_le_append_iff (front left right : String) :
    front ++ left ≤ front ++ right ↔ left ≤ right := by
  rw [← not_lt, ← not_lt, String.lt_iff_toList_lt, String.lt_iff_toList_lt,
    String.toList_append, String.toList_append, append_lt_append_iff]

theorem string_continues_or_append_lt {left right : String}
    (hlt : left < right) :
    (∃ rest, rest ≠ "" ∧ right = left ++ rest) ∨
      ∀ tail tail', left ++ tail < right ++ tail' := by
  rcases continues_or_append_lt (String.lt_iff_toList_lt.mp hlt) with
    ⟨rest, hrest, hright⟩ | hsettled
  · left
    refine ⟨String.ofList rest, fun hempty => hrest ?_, ?_⟩
    · simpa using congrArg String.toList hempty
    · apply String.toList_injective
      simpa using hright
  · right
    intro tail tail'
    rw [String.lt_iff_toList_lt, String.toList_append, String.toList_append]
    exact hsettled tail.toList tail'.toList

theorem string_lt_append {rest : String} (hrest : rest ≠ "") (front : String) :
    front < front ++ rest := by
  rw [String.lt_iff_toList_lt, String.toList_append]
  have hnil : front.toList ++ [] < front.toList ++ rest.toList := by
    rw [append_lt_append_iff]
    cases hlist : rest.toList with
    | nil => exact absurd (String.toList_injective hlist) hrest
    | cons c tail => exact List.nil_lt_cons c tail
  simpa using hnil

end Strings

end LexOrder
