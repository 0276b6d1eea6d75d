/-
Two sequences merged into one, each in its own order.
-/
import Mathlib.Data.List.Basic

universe u

variable {α : Type u}

inductive Interleaves : List α → List α → List α → Prop
  | nil : Interleaves [] [] []
  | left {left right merged : List α} (value : α) :
      Interleaves left right merged →
      Interleaves (value :: left) right (value :: merged)
  | right {left right merged : List α} (value : α) :
      Interleaves left right merged →
      Interleaves left (value :: right) (value :: merged)

namespace Interleaves

variable {left right merged : List α}

theorem swap (hmerged : Interleaves left right merged) :
    Interleaves right left merged := by
  induction hmerged with
  | nil => exact .nil
  | left value _ ih => exact .right value ih
  | right value _ ih => exact .left value ih

/-- One more value at the end. -/
theorem snoc_left (hmerged : Interleaves left right merged) (value : α) :
    Interleaves (left ++ [value]) right (merged ++ [value]) := by
  induction hmerged with
  | nil => exact .left value .nil
  | left first _ ih => exact .left first ih
  | right first _ ih => exact .right first ih

end Interleaves
