/-
Computations that may also panic: machine arithmetic that overflows and
indexing that leaves its buffer, beside the errors that a function returns.
-/
import Kettle.Lib.Bytes
import Kettle.Lib.Result

namespace Kettle

universe u v w

/-- A result, a returned error, or a panic.  An overflow is a panic, as it is
in a build with overflow checks. -/
inductive Outcome (ε : Type u) (α : Type v) where
  | panic
  | err (error : ε)
  | ok (value : α)
deriving DecidableEq, Repr

namespace Outcome

section Monad

variable {ε : Type u} {α β : Type v}

def bind : Outcome ε α → (α → Outcome ε β) → Outcome ε β
  | .panic, _ => .panic
  | .err error, _ => .err error
  | .ok value, next => next value

instance : Monad (Outcome ε) where
  pure := .ok
  bind := Outcome.bind

@[simp] theorem bind_panic (next : α → Outcome ε β) :
    ((.panic : Outcome ε α) >>= next) = .panic := rfl

@[simp] theorem bind_err (error : ε) (next : α → Outcome ε β) :
    ((.err error : Outcome ε α) >>= next) = .err error := rfl

@[simp] theorem bind_ok (value : α) (next : α → Outcome ε β) :
    ((.ok value : Outcome ε α) >>= next) = next value := rfl

/-- A computation that does not panic. -/
def ofExcept : Except ε α → Outcome ε α
  | .error error => .err error
  | .ok value => .ok value

@[simp] theorem ofExcept_ok (value : α) :
    ofExcept (.ok value : Except ε α) = .ok value := rfl

@[simp] theorem ofExcept_error (error : ε) :
    ofExcept (.error error : Except ε α) = .err error := rfl

theorem ofExcept_ne_panic (result : Except ε α) :
    ofExcept result ≠ .panic := by
  cases result <;> simp

theorem ofExcept_bind (first : Except ε α) (next : α → Except ε β) :
    ofExcept (first >>= next) =
      ofExcept first >>= fun value => ofExcept (next value) := by
  cases first <;> rfl

theorem bind_eq_ok_iff {first : Outcome ε α} {next : α → Outcome ε β}
    {result : β} : (first >>= next) = .ok result ↔
      ∃ value, first = .ok value ∧ next value = .ok result := by
  cases first with
  | panic => exact ⟨nofun, nofun⟩
  | err error => exact ⟨nofun, nofun⟩
  | ok value =>
      rw [bind_ok]
      constructor
      · exact fun hnext => ⟨value, rfl, hnext⟩
      · rintro ⟨_, ⟨⟩, hnext⟩
        exact hnext

theorem bind_eq_panic_iff {first : Outcome ε α} {next : α → Outcome ε β} :
    (first >>= next) = .panic ↔
      first = .panic ∨ ∃ value, first = .ok value ∧ next value = .panic := by
  cases first with
  | panic => exact ⟨fun _ => Or.inl rfl, fun _ => rfl⟩
  | err error => exact ⟨nofun, by rintro (⟨⟨⟩⟩ | ⟨_, ⟨⟩, -⟩)⟩
  | ok value =>
      constructor
      · exact fun hnext => Or.inr ⟨value, rfl, hnext⟩
      · rintro (⟨⟨⟩⟩ | ⟨_, ⟨⟩, hnext⟩)
        exact hnext

theorem bind_ne_panic {first : Outcome ε α} {next : α → Outcome ε β}
    (hfirst : first ≠ .panic) (hnext : ∀ value, next value ≠ .panic) :
    (first >>= next) ≠ .panic := by
  intro hpanic
  rcases bind_eq_panic_iff.mp hpanic with hfirst' | ⟨value, -, hnext'⟩
  · exact hfirst hfirst'
  · exact hnext value hnext'

/-- A value that is missing is an error. -/
def ofOption (error : ε) : Option α → Outcome ε α
  | none => .err error
  | some value => .ok value

theorem ofOption_ne_panic (error : ε) (found : Option α) :
    ofOption error found ≠ .panic := by
  cases found with
  | none => exact nofun
  | some value => exact nofun

theorem ofOption_eq_ok_iff {error : ε} {found : Option α} {value : α} :
    ofOption error found = .ok value ↔ found = some value := by
  cases found with
  | none => exact ⟨nofun, nofun⟩
  | some value' => exact ⟨fun h => by cases h; rfl, fun h => by cases h; rfl⟩

/-- The checked computation panics where the condition fails, and has the
result of the unchecked one where it holds. -/
structure PanicsUnless (p : Prop) (checked : Outcome ε α)
    (result : Except ε α) : Prop where
  runs : p → checked = ofExcept result
  panics : ¬ p → checked = .panic

namespace PanicsUnless

variable {p q : Prop} {checked : Outcome ε α} {result : Except ε α}
variable {next : α → Outcome ε β} {pureNext : α → Except ε β}

theorem of_pos (hp : p) (heq : checked = ofExcept result) :
    PanicsUnless p checked result :=
  ⟨fun _ => heq, fun hnot => absurd hp hnot⟩

theorem of_neg (hnot : ¬ p) :
    PanicsUnless p (.panic : Outcome ε α) result :=
  ⟨fun hp => absurd hp hnot, fun _ => rfl⟩

theorem of_iff (hiff : p ↔ q) (hunless : PanicsUnless p checked result) :
    PanicsUnless q checked result :=
  ⟨fun hq => hunless.runs (hiff.mpr hq),
    fun hnot => hunless.panics (mt hiff.mp hnot)⟩

theorem ite [Decidable p] (result : Except ε α) :
    PanicsUnless p (if p then ofExcept result else .panic) result :=
  ⟨fun hp => if_pos hp, fun hnot => if_neg hnot⟩

/-- After a first step that returns an error, nothing more is asked. -/
theorem bind_error {error : ε} (hunless : PanicsUnless p checked result)
    (herror : result = .error error) :
    PanicsUnless p (checked >>= next) (result >>= pureNext) where
  runs hp := by
    rw [hunless.runs hp, herror]
    rfl
  panics hnot := by
    rw [hunless.panics hnot]
    rfl

theorem bind_ok {value : α} (hunless : PanicsUnless p checked result)
    (hvalue : result = .ok value)
    (hnext : p → PanicsUnless q (next value) (pureNext value)) :
    PanicsUnless (p ∧ q) (checked >>= next) (result >>= pureNext) where
  runs hboth := by
    rw [hunless.runs hboth.1, hvalue]
    exact (hnext hboth.1).runs hboth.2
  panics hnot := by
    by_cases hp : p
    · rw [hunless.runs hp, hvalue]
      exact (hnext hp).panics fun hq => hnot ⟨hp, hq⟩
    · rw [hunless.panics hp]
      rfl

theorem ne_panic_iff (hunless : PanicsUnless p checked result) :
    checked ≠ .panic ↔ p := by
  constructor
  · intro hne
    by_contra hnot
    exact hne (hunless.panics hnot)
  · intro hp
    rw [hunless.runs hp]
    exact ofExcept_ne_panic result

end PanicsUnless

/-- A computation that panics unless a condition holds. -/
theorem ite_ofExcept_ne_panic_iff {p : Prop} [Decidable p]
    {result : Except ε α} :
    (if p then ofExcept result else .panic) ≠ .panic ↔ p :=
  (PanicsUnless.ite result).ne_panic_iff

/-- A loop that panics in the turns that fail a check. -/
theorem foldlM_ite {γ : Type w} (p : γ → Prop) [DecidablePred p]
    (f : α → γ → α) (items : List γ) (start : α) :
    items.foldlM (fun state item =>
        if p item then (.ok (f state item) : Outcome ε α) else .panic)
        start =
      if ∀ item ∈ items, p item then .ok (items.foldl f start)
      else .panic := by
  induction items generalizing start with
  | nil => rfl
  | cons item items ih =>
      rw [List.foldlM_cons]
      by_cases hitem : p item
      · rw [if_pos hitem, bind_ok, ih, List.foldl_cons]
        simp only [List.forall_mem_cons, hitem, true_and]
      · rw [if_neg hitem, bind_panic]
        simp only [List.forall_mem_cons, hitem, false_and, if_false]

end Monad

section Machine

variable {ε : Type u}

/-- `a + b` in 64 bits. -/
def add64 (a b : Nat) : Outcome ε Nat :=
  if a + b < 2 ^ 64 then .ok (a + b) else .panic

/-- `a * b` in 64 bits. -/
def mul64 (a b : Nat) : Outcome ε Nat :=
  if a * b < 2 ^ 64 then .ok (a * b) else .panic

/-- `a - b` of unsigned integers. -/
def sub64 (a b : Nat) : Outcome ε Nat :=
  if b ≤ a then .ok (a - b) else .panic

/-- `buf[start..stop]`. -/
def index (buf : Bytes) (start stop : Nat) : Outcome ε Bytes :=
  match buf.range? start stop with
  | some bytes => .ok bytes
  | none => .panic

theorem add64_of_lt {a b : Nat} (hfits : a + b < 2 ^ 64) :
    (add64 a b : Outcome ε Nat) = .ok (a + b) := if_pos hfits

theorem mul64_of_lt {a b : Nat} (hfits : a * b < 2 ^ 64) :
    (mul64 a b : Outcome ε Nat) = .ok (a * b) := if_pos hfits

theorem sub64_of_le {a b : Nat} (hle : b ≤ a) :
    (sub64 a b : Outcome ε Nat) = .ok (a - b) := if_pos hle

theorem index_of_le {buf : Bytes} {start stop : Nat} (hstart : start ≤ stop)
    (hstop : stop ≤ buf.length) :
    (index buf start stop : Outcome ε Bytes) =
      .ok (buf.slice start (stop - start)) := by
  rw [index, Bytes.range?, if_pos ⟨hstart, hstop⟩]
  rfl

end Machine

end Outcome

end Kettle
