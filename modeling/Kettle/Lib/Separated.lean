/-
Texts put together around a separator: when one of the two sides is free of
it, the whole has only one such cut, and the cut can be computed.
-/
import Mathlib.Data.List.DropRight

universe u

namespace Separated

variable {α : Type u} {sep : α} {front back left right : List α}

/-- Around the first separator. -/
theorem first_inj (hfront : sep ∉ front) (hback : sep ∉ back)
    (heq : front ++ sep :: left = back ++ sep :: right) :
    front = back ∧ left = right := by
  rcases List.append_eq_append_iff.mp heq with
    ⟨middle, rfl, hrest⟩ | ⟨middle, rfl, hrest⟩
  · cases middle with
    | nil => exact ⟨(List.append_nil _).symm, List.tail_eq_of_cons_eq hrest⟩
    | cons c rest =>
        obtain rfl := List.head_eq_of_cons_eq hrest
        exact absurd (List.mem_append_right _ List.mem_cons_self) hback
  · cases middle with
    | nil =>
        exact ⟨List.append_nil _, (List.tail_eq_of_cons_eq hrest).symm⟩
    | cons c rest =>
        obtain rfl := List.head_eq_of_cons_eq hrest
        exact absurd (List.mem_append_right _ List.mem_cons_self) hfront

/-- Around the last separator. -/
theorem last_inj (hleft : sep ∉ left) (hright : sep ∉ right)
    (heq : front ++ sep :: left = back ++ sep :: right) :
    front = back ∧ left = right := by
  have hreverse : left.reverse ++ sep :: front.reverse =
      right.reverse ++ sep :: back.reverse := by
    simpa using congrArg List.reverse heq
  obtain ⟨hsides, hfronts⟩ := first_inj (by simpa using hleft)
    (by simpa using hright) hreverse
  exact ⟨List.reverse_injective hfronts, List.reverse_injective hsides⟩

variable [DecidableEq α]

theorem dropWhile_append_cons (hfront : sep ∉ front) (back : List α) :
    (front ++ sep :: back).dropWhile (· ≠ sep) = sep :: back := by
  have hall : ∀ c ∈ front, decide (c ≠ sep) = true := fun c hc =>
    decide_eq_true (ne_of_mem_of_not_mem hc hfront)
  rw [List.dropWhile_append_of_pos hall, List.dropWhile_cons_of_neg (by simp)]

theorem takeWhile_append_cons (hfront : sep ∉ front) (back : List α) :
    (front ++ sep :: back).takeWhile (· ≠ sep) = front := by
  have hall : ∀ c ∈ front, decide (c ≠ sep) = true := fun c hc =>
    decide_eq_true (ne_of_mem_of_not_mem hc hfront)
  rw [List.takeWhile_append_of_pos hall, List.takeWhile_cons_of_neg (by simp),
    List.append_nil]

theorem rtakeWhile_append_cons (front : List α) (hback : sep ∉ back) :
    (front ++ sep :: back).rtakeWhile (· ≠ sep) = back := by
  have hreverse : (front ++ sep :: back).reverse =
      back.reverse ++ sep :: front.reverse := by simp
  have hall : ∀ c ∈ back.reverse, decide (c ≠ sep) = true := by
    intro c hc
    exact decide_eq_true (ne_of_mem_of_not_mem (List.mem_reverse.mp hc) hback)
  rw [List.rtakeWhile, hreverse, List.takeWhile_append_of_pos hall,
    List.takeWhile_cons_of_neg (by simp), List.append_nil,
    List.reverse_reverse]

end Separated
