/-
Transition systems: what holds of every state that a run reaches, and when a
run can always be brought to an end.
-/
import Mathlib.Logic.Relation

universe u v

/-- A system by the states it starts in and the steps it takes. -/
structure Transition (σ : Type u) where
  initial : σ → Prop
  step : σ → σ → Prop

namespace Transition

variable {σ : Type u} {τ : Type v} {sys : Transition σ}
  {inv final : σ → Prop}

def Reaches (sys : Transition σ) : σ → σ → Prop :=
  Relation.ReflTransGen sys.step

def Reachable (sys : Transition σ) (state : σ) : Prop :=
  ∃ first, sys.initial first ∧ sys.Reaches first state

/-- The system whose steps are also allowed. -/
def restrict (sys : Transition σ) (allowed : σ → σ → Prop) :
    Transition σ where
  initial := sys.initial
  step before after := sys.step before after ∧ allowed before after

/-- No step ends what holds. -/
def Preserved (sys : Transition σ) (inv : σ → Prop) : Prop :=
  ∀ before after, inv before → sys.step before after → inv after

theorem Preserved.along (hinv : sys.Preserved inv) {before after : σ}
    (hreaches : sys.Reaches before after) (hbefore : inv before) :
    inv after := by
  induction hreaches with
  | refl => exact hbefore
  | tail _ hstep ih => exact hinv _ _ ih hstep

/-- It holds at the start and each step preserves it. -/
structure Inductive (sys : Transition σ) (inv : σ → Prop) : Prop where
  initial : ∀ state, sys.initial state → inv state
  step : sys.Preserved inv

theorem Inductive.reachable (hinv : sys.Inductive inv) {state : σ}
    (hreachable : sys.Reachable state) : inv state := by
  obtain ⟨first, hinitial, hreaches⟩ := hreachable
  exact hinv.step.along hreaches (hinv.initial first hinitial)

theorem Reachable.trans {before after : σ} (hbefore : sys.Reachable before)
    (hreaches : sys.Reaches before after) : sys.Reachable after := by
  obtain ⟨first, hinitial, hfirst⟩ := hbefore
  exact ⟨first, hinitial, hfirst.trans hreaches⟩

/-- Seen through `view`, a step is one of the other system, or none. -/
structure Refines (sys : Transition σ) (spec : Transition τ) (view : σ → τ)
    (inv : σ → Prop) : Prop where
  initial : ∀ state, sys.initial state → spec.initial (view state)
  step : ∀ before after, inv before → sys.step before after →
    view after = view before ∨ spec.step (view before) (view after)

section Refines

variable {spec : Transition τ} {view : σ → τ}

theorem Refines.reaches (href : sys.Refines spec view inv)
    (hinv : sys.Preserved inv) {before after : σ} (hbefore : inv before)
    (hreaches : sys.Reaches before after) :
    spec.Reaches (view before) (view after) := by
  induction hreaches with
  | refl => exact Relation.ReflTransGen.refl
  | tail hfirst hlast ih =>
      have hmid := hinv.along hfirst hbefore
      rcases href.step _ _ hmid hlast with hsame | hstep
      · exact hsame ▸ ih
      · exact ih.tail hstep

theorem Refines.reachable (href : sys.Refines spec view inv)
    (hinv : sys.Inductive inv) {state : σ} (hreachable : sys.Reachable state) :
    spec.Reachable (view state) := by
  obtain ⟨first, hinitial, hreaches⟩ := hreachable
  exact ⟨view first, href.initial first hinitial,
    href.reaches hinv.step (hinv.initial first hinitial) hreaches⟩

/-- What always holds of the other system holds of the view. -/
theorem Refines.pullback {other : τ → Prop}
    (href : sys.Refines spec view fun state => other (view state))
    (hother : spec.Inductive other) :
    sys.Inductive fun state => other (view state) where
  initial state hinitial :=
    hother.initial _ (href.initial state hinitial)
  step before after hbefore hstep := by
    rcases href.step before after hbefore hstep with hsame | hstep
    · exact hsame.symm ▸ hbefore
    · exact hother.step _ _ hbefore hstep

end Refines

/-- While the end is not reached, some step gets closer to it. -/
def Progresses (sys : Transition σ) (inv final : σ → Prop)
    (measure : σ → Nat) : Prop :=
  ∀ state, inv state → ¬ final state →
    ∃ next, sys.step state next ∧ measure next < measure state

theorem exists_final {measure : σ → Nat} (hinv : sys.Preserved inv)
    (hprogress : sys.Progresses inv final measure) (state : σ)
    (hstate : inv state) :
    ∃ last, sys.Reaches state last ∧ final last := by
  induction hcount : measure state using Nat.strongRecOn
    generalizing state with
  | ind count ih =>
      by_cases hfinal : final state
      · exact ⟨state, Relation.ReflTransGen.refl, hfinal⟩
      · obtain ⟨next, hstep, hless⟩ := hprogress state hstate hfinal
        obtain ⟨last, hreaches, hlast⟩ := ih (measure next) (hcount ▸ hless)
          next (hinv _ _ hstate hstep) rfl
        exact ⟨last, Relation.ReflTransGen.head hstep hreaches, hlast⟩

end Transition
