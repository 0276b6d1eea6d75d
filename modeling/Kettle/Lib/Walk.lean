/-
Walks of a partial step: what the steps from a state yield until none is
left, as a relation and as a function with a bound on the turns.
-/
import Mathlib.Data.List.Basic

namespace Kettle

universe u v w

variable {σ : Type u} {β : Type v}

/-- The steps from a state to the end, with what each of them yields. -/
inductive Walk (step : σ → Option (β × σ)) : σ → List β → Prop where
  | stop {s : σ} (hstop : step s = none) : Walk step s []
  | next {s s' : σ} {b : β} {bs : List β} (hstep : step s = some (b, s'))
      (hrest : Walk step s' bs) : Walk step s (b :: bs)

/-- The walk cut after at most `turns` steps. -/
def walked (step : σ → Option (β × σ)) : Nat → σ → List β
  | 0, _ => []
  | turns + 1, s =>
      match step s with
      | none => []
      | some (b, s') => b :: walked step turns s'

namespace Walk

variable {step : σ → Option (β × σ)} {s : σ} {bs : List β}

/-- There is one walk from a state at most. -/
theorem unique {bs' : List β} (hwalk : Walk step s bs)
    (hwalk' : Walk step s bs') : bs = bs' := by
  induction hwalk generalizing bs' with
  | stop hstop =>
      cases hwalk' with
      | stop => rfl
      | next hstep => rw [hstop] at hstep; cases hstep
  | next hstep _ ih =>
      cases hwalk' with
      | stop hstop => rw [hstop] at hstep; cases hstep
      | next hstep' hrest =>
          rw [hstep] at hstep'
          cases hstep'
          rw [ih hrest]

/-- Turns enough give the whole walk. -/
theorem walked_eq (hwalk : Walk step s bs) {turns : Nat}
    (hturns : bs.length ≤ turns) : walked step turns s = bs := by
  induction hwalk generalizing turns with
  | stop hstop =>
      cases turns with
      | zero => rfl
      | succ turns => rw [walked, hstop]
  | next hstep _ ih =>
      cases turns with
      | zero => simp at hturns
      | succ turns =>
          rw [walked, hstep]
          exact congrArg _ (ih (Nat.le_of_succ_le_succ hturns))

/-- A state that shrinks by at least `size` in every step is walked to its
end, in as many steps as `size` fits into it. -/
theorem exists_of_shrinks (step : σ → Option (β × σ)) (measure : σ → Nat)
    {size : Nat} (hsize : 0 < size)
    (hshrinks : ∀ s b s', step s = some (b, s') →
      measure s' + size ≤ measure s) (s : σ) :
    ∃ bs, Walk step s bs ∧ bs.length * size ≤ measure s := by
  induction hmeasure : measure s using Nat.strongRecOn generalizing s with
  | _ n ih =>
      cases hstep : step s with
      | none => exact ⟨[], .stop hstep, by simp⟩
      | some found =>
          obtain ⟨b, s'⟩ := found
          have hshrink := hshrinks s b s' hstep
          obtain ⟨bs, hrest, hlength⟩ := ih (measure s') (by omega) s' rfl
          refine ⟨b :: bs, .next hstep hrest, ?_⟩
          rw [List.length_cons, Nat.add_mul, Nat.one_mul]
          omega

end Walk

end Kettle
