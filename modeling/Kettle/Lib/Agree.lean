/-
Two runs of a fallible program side by side: both go through, with results
that are related, or both fail.
-/
import Kettle.Lib.Result
import Mathlib.Data.Option.Basic

namespace Kettle

/-- The errors of two runs that fail need not be the same. -/
inductive Agree {ε α β : Type} (relation : α → β → Prop) :
    Except ε α → Except ε β → Prop
  | ok {left : α} {right : β} :
      relation left right → Agree relation (.ok left) (.ok right)
  | error (left right : ε) : Agree relation (.error left) (.error right)

namespace Agree

variable {ε α β γ δ : Type} {R : α → β → Prop} {S : γ → δ → Prop}

theorem bind {left : Except ε α} {right : Except ε β} {f : α → Except ε γ}
    {g : β → Except ε δ} (hfirst : Agree R left right)
    (hrest : ∀ a b, R a b → Agree S (f a) (g b)) :
    Agree S (left >>= f) (right >>= g) := by
  cases hfirst with
  | ok hrel => exact hrest _ _ hrel
  | error left right => exact .error left right

theorem map {left : Except ε α} {right : Except ε β} {f : α → γ} {g : β → δ}
    (hagree : Agree R left right) (himp : ∀ a b, R a b → S (f a) (g b)) :
    Agree S (left.map f) (right.map g) := by
  cases hagree with
  | ok hrel => exact .ok (himp _ _ hrel)
  | error left right => exact .error left right

theorem mono {R' : α → β → Prop} {left : Except ε α} {right : Except ε β}
    (hagree : Agree R left right) (himp : ∀ a b, R a b → R' a b) :
    Agree R' left right := by
  cases hagree with
  | ok hrel => exact .ok (himp _ _ hrel)
  | error left right => exact .error left right

theorem refl {R : α → α → Prop} (hrefl : ∀ a, R a a) (run : Except ε α) :
    Agree R run run := by
  cases run with
  | error error => exact .error error error
  | ok value => exact .ok (hrefl value)

theorem trans {T : β → γ → Prop} {left : Except ε α} {mid : Except ε β}
    {right : Except ε γ} (hfirst : Agree R left mid)
    (hsecond : Agree T mid right) :
    Agree (fun a c => ∃ b, R a b ∧ T b c) left right := by
  cases hfirst with
  | ok hrel =>
      cases hsecond with
      | ok hrel' => exact .ok ⟨_, hrel, hrel'⟩
  | error left mid =>
      cases hsecond with
      | error mid right => exact .error left right

/-- Runs agree when one goes through just when the other does, with related
results. -/
theorem of_ok {left : Except ε α} {right : Except ε β}
    (hok : (∃ a, left = .ok a) ↔ ∃ b, right = .ok b)
    (hrel : ∀ a b, left = .ok a → right = .ok b → R a b) :
    Agree R left right := by
  cases left with
  | error e =>
      cases right with
      | error e' => exact .error e e'
      | ok b =>
          obtain ⟨a, ha⟩ := hok.mpr ⟨b, rfl⟩
          cases ha
  | ok a =>
      cases right with
      | error e' =>
          obtain ⟨b, hb⟩ := hok.mp ⟨a, rfl⟩
          cases hb
      | ok b => exact .ok (hrel a b rfl rfl)

/-- The results of runs that agree are results of these runs. -/
theorem withRuns {left : Except ε α} {right : Except ε β}
    (hagree : Agree R left right) :
    Agree (fun a b => left = .ok a ∧ right = .ok b ∧ R a b) left right := by
  cases hagree with
  | ok hrel => exact .ok ⟨rfl, rfl, hrel⟩
  | error left right => exact .error left right

theorem exists_ok {left : Except ε α} {right : Except ε β} {a : α}
    (hagree : Agree R left right) (hleft : left = .ok a) :
    ∃ b, right = .ok b ∧ R a b := by
  cases hagree with
  | ok hrel =>
      cases hleft
      exact ⟨_, rfl, hrel⟩
  | error left right => cases hleft

/-- Loops over lists of the same length, item by item. -/
theorem mapM {f : α → Except ε γ} {g : β → Except ε δ}
    (hfg : ∀ a b, R a b → Agree S (f a) (g b)) {left : List α}
    {right : List β} (hlists : List.Forall₂ R left right) :
    Agree (List.Forall₂ S) (left.mapM f) (right.mapM g) := by
  induction hlists with
  | nil => exact .ok .nil
  | cons hhead _ ih =>
      rw [List.mapM_cons, List.mapM_cons]
      refine (hfg _ _ hhead).bind fun c d hcd => ?_
      refine ih.bind fun cs ds hcds => ?_
      exact .ok (.cons hcd hcds)

/-- A loop over a list in another order: which item fails first may differ,
not whether one does. -/
theorem mapM_perm (f : α → Except ε γ) {left right : List α}
    (hperm : left.Perm right) :
    Agree List.Perm (left.mapM f) (right.mapM f) := by
  induction hperm with
  | nil => exact .ok (.refl _)
  | cons a _ ih =>
      rw [List.mapM_cons, List.mapM_cons]
      refine (refl (R := Eq) (fun _ => rfl) (f a)).bind ?_
      rintro c - rfl
      refine ih.bind fun cs ds hcds => ?_
      exact .ok (hcds.cons c)
  | swap a b rest =>
      simp only [List.mapM_cons]
      cases f a with
      | error e =>
          cases f b with
          | error e' => exact .error e' e
          | ok d => exact .error e e
      | ok c =>
          cases f b with
          | error e' => exact .error e' e'
          | ok d =>
              cases rest.mapM f with
              | error e => exact .error e e
              | ok cs => exact .ok (.swap c d cs)
  | trans _ _ ih ih' =>
      refine (ih.trans ih').mono ?_
      rintro cs es ⟨ds, hcds, hdes⟩
      exact hcds.trans hdes

end Agree

end Kettle
