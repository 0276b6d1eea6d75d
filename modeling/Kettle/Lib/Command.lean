/-
Commands on a state.  What a command has done to the state stays done when it
fails; what follows it is not run then.  `Ends` says how a command may end
from a state: with a value, or with an error, and in either case without a
panic.
-/
import Kettle.Lib.Outcome
import Mathlib.Data.List.Forall2

universe u

namespace Kettle

def Command (ε σ α : Type) : Type := σ → Outcome ε α × σ

namespace Command

variable {ε σ τ α β : Type}

def ret (value : α) : Command ε σ α := fun state => (.ok value, state)

def andThen (first : Command ε σ α) (next : α → Command ε σ β) :
    Command ε σ β := fun state =>
  match first state with
  | (.ok value, state) => next value state
  | (.err error, state) => (.err error, state)
  | (.panic, state) => (.panic, state)

instance : Monad (Command ε σ) where
  pure := ret
  bind := andThen

def read : Command ε σ σ := fun state => (.ok state, state)

def update (change : σ → σ) : Command ε σ Unit :=
  fun state => (.ok (), change state)

def fail (error : ε) : Command ε σ α := fun state => (.err error, state)

def panic : Command ε σ α := fun state => (.panic, state)

def ofExcept : Except ε α → Command ε σ α
  | .error error => fail error
  | .ok value => ret value

/-- A command has this result, whether another one succeeds or fails. -/
def lastly (result : Outcome ε α) (last : Command ε σ Unit) :
    Command ε σ α := fun state =>
  match last state with
  | (.ok (), state) => (result, state)
  | (.err _, state) => (result, state)
  | (.panic, state) => (.panic, state)

/-- An error is handed on, after something has been done about it. -/
def inspectErr (cmd : Command ε σ α) (inspect : Command ε σ Unit) :
    Command ε σ α := fun state =>
  match cmd state with
  | (.err error, state) => lastly (.err error) inspect state
  | ended => ended

/-- Something is done last, however the command has ended. -/
def dropping (cmd : Command ε σ α) (drop : Command ε σ Unit) :
    Command ε σ α := fun state =>
  match cmd state with
  | (result, state) => lastly result drop state

/-- Whether the command has failed is its value. -/
def attempt (cmd : Command ε σ α) : Command ε σ (Except ε α) := fun state =>
  match cmd state with
  | (.ok value, state) => (.ok (.ok value), state)
  | (.err error, state) => (.ok (.error error), state)
  | (.panic, state) => (.panic, state)

/-- A command on a part of the state. -/
def zoom (get : τ → σ) (set : τ → σ → τ) (cmd : Command ε σ α) :
    Command ε τ α := fun whole =>
  match cmd (get whole) with
  | (result, part) => (result, set whole part)

/-- With a state of its own beside the other one. -/
def withLocal (start : τ) (cmd : Command ε (σ × τ) α) : Command ε σ α :=
  fun state =>
    match cmd (state, start) with
    | (result, state, _) => (result, state)

def mapErr {ε' : Type} (change : ε → ε') (cmd : Command ε σ α) :
    Command ε' σ α := fun state =>
  match cmd state with
  | (.ok value, state) => (.ok value, state)
  | (.err error, state) => (.err (change error), state)
  | (.panic, state) => (.panic, state)

/-- One after the other, until one fails. -/
def forEach (cmd : α → Command ε σ β) : List α → Command ε σ (List β)
  | [] => ret []
  | item :: rest =>
      (cmd item).andThen fun value =>
        (forEach cmd rest).andThen fun values => ret (value :: values)

/-- With every value the one condition holds, with every error the other. -/
def Ends (cmd : Command ε σ α) (state : σ) (post : α → σ → Prop)
    (failed : ε → σ → Prop) : Prop :=
  match cmd state with
  | (.ok value, state) => post value state
  | (.err error, state) => failed error state
  | (.panic, _) => False

section Rules

variable {state : σ} {post : α → σ → Prop} {failed : ε → σ → Prop}

@[simp] theorem ends_ret {value : α} :
    Ends (ret value) state post failed ↔ post value state := Iff.rfl

@[simp] theorem ends_pure {value : α} :
    Ends (pure value) state post failed ↔ post value state := Iff.rfl

@[simp] theorem ends_read {post : σ → σ → Prop} :
    Ends read state post failed ↔ post state state := Iff.rfl

@[simp] theorem ends_update {change : σ → σ} {post : Unit → σ → Prop} :
    Ends (update change) state post failed ↔ post () (change state) := Iff.rfl

@[simp] theorem ends_fail {error : ε} :
    Ends (fail error) state post failed ↔ failed error state := Iff.rfl

@[simp] theorem ends_ofExcept {result : Except ε α} :
    Ends (ofExcept result) state post failed ↔
      match result with
      | .ok value => post value state
      | .error error => failed error state := by
  cases result with
  | ok value => exact Iff.rfl
  | error error => exact Iff.rfl

@[simp] theorem ends_andThen {first : Command ε σ β}
    {next : β → Command ε σ α} :
    Ends (first.andThen next) state post failed ↔
      Ends first state (fun value state => Ends (next value) state post failed)
        failed := by
  unfold Ends andThen
  match first state with
  | (.ok value, state) => exact Iff.rfl
  | (.err error, state) => exact Iff.rfl
  | (.panic, state) => exact Iff.rfl

@[simp] theorem ends_bind {first : Command ε σ β} {next : β → Command ε σ α} :
    Ends (first >>= next) state post failed ↔
      Ends first state (fun value state => Ends (next value) state post failed)
        failed := ends_andThen

@[simp] theorem ends_zoom {get : τ → σ} {set : τ → σ → τ} {whole : τ}
    {cmd : Command ε σ α} {post : α → τ → Prop} {failed : ε → τ → Prop} :
    Ends (zoom get set cmd) whole post failed ↔
      Ends cmd (get whole) (fun value part => post value (set whole part))
        (fun error part => failed error (set whole part)) := by
  unfold Ends zoom
  match cmd (get whole) with
  | (.ok value, state) => exact Iff.rfl
  | (.err error, state) => exact Iff.rfl
  | (.panic, state) => exact Iff.rfl

@[simp] theorem ends_attempt {cmd : Command ε σ α}
    {post : Except ε α → σ → Prop} :
    Ends cmd.attempt state post failed ↔
      Ends cmd state (fun value => post (.ok value))
        (fun error => post (.error error)) := by
  unfold Ends attempt
  match cmd state with
  | (.ok value, state) => exact Iff.rfl
  | (.err error, state) => exact Iff.rfl
  | (.panic, state) => exact Iff.rfl

@[simp] theorem ends_withLocal {start : τ} {cmd : Command ε (σ × τ) α} :
    Ends (withLocal start cmd) state post failed ↔
      Ends cmd (state, start) (fun value both => post value both.1)
        (fun error both => failed error both.1) := by
  unfold Ends withLocal
  match cmd (state, start) with
  | (.ok value, both) => exact Iff.rfl
  | (.err error, both) => exact Iff.rfl
  | (.panic, both) => exact Iff.rfl

@[simp] theorem ends_mapErr {ε' : Type} {change : ε → ε'}
    {cmd : Command ε σ α} {failed : ε' → σ → Prop} :
    Ends (cmd.mapErr change) state post failed ↔
      Ends cmd state post (fun error => failed (change error)) := by
  unfold Ends mapErr
  match cmd state with
  | (.ok value, state) => exact Iff.rfl
  | (.err error, state) => exact Iff.rfl
  | (.panic, state) => exact Iff.rfl

/-- The rule of consequence. -/
theorem Ends.mono {cmd : Command ε σ α} {post' : α → σ → Prop}
    {failed' : ε → σ → Prop} (hends : Ends cmd state post failed)
    (hpost : ∀ value state, post value state → post' value state)
    (hfailed : ∀ error state, failed error state → failed' error state) :
    Ends cmd state post' failed' := by
  unfold Ends at hends ⊢
  match hcmd : cmd state with
  | (.ok value, state) =>
      rw [hcmd] at hends
      exact hpost value state hends
  | (.err error, state) =>
      rw [hcmd] at hends
      exact hfailed error state hends
  | (.panic, state) =>
      rw [hcmd] at hends
      exact hends

/-- Two things that are known of the same run are known together. -/
theorem Ends.and {cmd : Command ε σ α} {post' : α → σ → Prop}
    {failed' : ε → σ → Prop} (hends : Ends cmd state post failed)
    (hends' : Ends cmd state post' failed') :
    Ends cmd state (fun value state => post value state ∧ post' value state)
      (fun error state => failed error state ∧ failed' error state) := by
  unfold Ends at hends hends' ⊢
  match hcmd : cmd state with
  | (.ok value, state) =>
      rw [hcmd] at hends hends'
      exact ⟨hends, hends'⟩
  | (.err error, state) =>
      rw [hcmd] at hends hends'
      exact ⟨hends, hends'⟩
  | (.panic, state) =>
      rw [hcmd] at hends
      exact hends

/-- How a command ends, read off its result. -/
theorem ends_iff {cmd : Command ε σ α} :
    Ends cmd state post failed ↔ (cmd state).1 ≠ .panic ∧
      (∀ value after, cmd state = (.ok value, after) → post value after) ∧
      ∀ error after, cmd state = (.err error, after) → failed error after := by
  unfold Ends
  match cmd state with
  | (.ok value, after) =>
      constructor
      · intro hpost
        refine ⟨nofun, ?_, nofun⟩
        rintro _ _ ⟨⟩
        exact hpost
      · exact fun hends => hends.2.1 value after rfl
  | (.err error, after) =>
      constructor
      · intro hfailed
        refine ⟨nofun, nofun, ?_⟩
        rintro _ _ ⟨⟩
        exact hfailed
      · exact fun hends => hends.2.2 error after rfl
  | (.panic, after) =>
      exact ⟨False.elim, fun hends => hends.1 rfl⟩

theorem Ends.ne_panic {cmd : Command ε σ α}
    (hends : Ends cmd state post failed) : (cmd state).1 ≠ .panic :=
  (ends_iff.mp hends).1

/-- With a value or with an error, the same condition holds. -/
def Finishes (cmd : Command ε σ α) (state : σ) (p : σ → Prop) : Prop :=
  Ends cmd state (fun _ => p) (fun _ => p)

theorem ends_lastly_ok {last : Command ε σ Unit} {value : α} :
    Ends (lastly (.ok value) last) state post failed ↔
      Finishes last state (post value) := by
  unfold Finishes Ends lastly
  match last state with
  | (.ok (), state) => exact Iff.rfl
  | (.err error, state) => exact Iff.rfl
  | (.panic, state) => exact Iff.rfl

theorem ends_lastly_err {last : Command ε σ Unit} {error : ε} :
    Ends (lastly (.err error) last : Command ε σ α) state post failed ↔
      Finishes last state (failed error) := by
  unfold Finishes Ends lastly
  match last state with
  | (.ok (), state) => exact Iff.rfl
  | (.err error, state) => exact Iff.rfl
  | (.panic, state) => exact Iff.rfl

theorem not_ends_lastly_panic {last : Command ε σ Unit} :
    ¬ Ends (lastly .panic last : Command ε σ α) state post failed := by
  unfold Ends lastly
  match last state with
  | (.ok (), state) => exact id
  | (.err error, state) => exact id
  | (.panic, state) => exact id

/-- What is done about an error, or last, must itself end. -/
theorem ends_inspectErr {cmd : Command ε σ α} {inspect : Command ε σ Unit} :
    Ends (cmd.inspectErr inspect) state post failed ↔
      Ends cmd state post
        (fun error state => Finishes inspect state (failed error)) := by
  rw [Ends, inspectErr, Ends]
  match cmd state with
  | (.ok value, state) => exact Iff.rfl
  | (.err error, state) => exact ends_lastly_err
  | (.panic, state) => exact Iff.rfl

theorem ends_dropping {cmd : Command ε σ α} {drop : Command ε σ Unit} :
    Ends (cmd.dropping drop) state post failed ↔
      Ends cmd state (fun value state => Finishes drop state (post value))
        (fun error state => Finishes drop state (failed error)) := by
  rw [Ends, dropping, Ends]
  match cmd state with
  | (.ok value, state) => exact ends_lastly_ok
  | (.err error, state) => exact ends_lastly_err
  | (.panic, state) => exact iff_of_false not_ends_lastly_panic id

theorem Finishes.mono {cmd : Command ε σ α} {p q : σ → Prop}
    (hfinishes : Finishes cmd state p) (hpq : ∀ state, p state → q state) :
    Finishes cmd state q :=
  Ends.mono hfinishes (fun _ => hpq) (fun _ => hpq)

/-- Where a command may leave the state when its end is not looked at. -/
theorem Finishes.after {cmd : Command ε σ α} {p : σ → Prop}
    (hfinishes : Finishes cmd state p) : p (cmd state).2 := by
  unfold Finishes Ends at hfinishes
  match hcmd : cmd state with
  | (.ok value, state) =>
      rw [hcmd] at hfinishes
      exact hfinishes
  | (.err error, state) =>
      rw [hcmd] at hfinishes
      exact hfinishes
  | (.panic, state) =>
      rw [hcmd] at hfinishes
      exact hfinishes.elim

/-- An invariant that each of the commands keeps is kept by all of them. -/
theorem ends_forEach {cmd : α → Command ε σ β} (inv : σ → Prop)
    (result : α → β → Prop) {items : List α}
    (hcmd : ∀ item ∈ items, ∀ state, inv state → Ends (cmd item) state
      (fun value state => inv state ∧ result item value) failed)
    (hinv : inv state) :
    Ends (forEach cmd items) state
      (fun values state => inv state ∧ List.Forall₂ result items values)
      failed := by
  induction items generalizing state with
  | nil => exact ⟨hinv, .nil⟩
  | cons item rest ih =>
      rw [forEach, ends_andThen]
      refine (hcmd item List.mem_cons_self state hinv).mono
        (fun value state hvalue => ?_) (fun _ _ => id)
      rw [ends_andThen]
      refine (ih (fun item hitem => hcmd item (List.mem_cons_of_mem _ hitem))
        hvalue.1).mono (fun values state hvalues => ?_) (fun _ _ => id)
      exact ⟨hvalues.1, .cons hvalue.2 hvalues.2⟩

end Rules

end Command

end Kettle
