/-
Memory as a partial function from page addresses to pages, with a write of
consecutive pages and the clearing of a region.
-/
import Mathlib.Logic.Function.Basic

universe u

/-- The page at each address, if there is one. -/
abbrev PagedMemory (π : Type u) := Nat → Option π

namespace PagedMemory

variable {π : Type u}

def empty : PagedMemory π := fun _ => none

/-- The memory without the pages of a region. -/
def clear (mem : PagedMemory π) (region : Nat → Prop)
    [DecidablePred region] : PagedMemory π :=
  fun addr => if region addr then none else mem addr

/-- Page number `k` goes to address `addr k`, in increasing order of `k`. -/
def write (addr : Nat → Nat) (page : Nat → π) :
    Nat → PagedMemory π → PagedMemory π
  | 0, mem => mem
  | count + 1, mem =>
      Function.update (write addr page count mem) (addr count)
        (some (page count))

variable {addr : Nat → Nat} {page : Nat → π} {count : Nat}

/-- Pages at other addresses are kept. -/
theorem write_of_ne {mem : PagedMemory π} {other : Nat}
    (hother : ∀ k < count, addr k ≠ other) :
    write addr page count mem other = mem other := by
  induction count with
  | zero => rfl
  | succ count ih =>
      rw [write, Function.update_of_ne (hother count (by omega)).symm]
      exact ih fun k hk => hother k (by omega)

/-- Pages at different addresses do not overwrite each other. -/
theorem write_apply (mem : PagedMemory π)
    (hinj : ∀ i < count, ∀ j < count, addr i = addr j → i = j) {k : Nat}
    (hk : k < count) :
    write addr page count mem (addr k) = some (page k) := by
  induction count with
  | zero => exact absurd hk (Nat.not_lt_zero k)
  | succ count ih =>
      rw [write]
      rcases Nat.lt_succ_iff_lt_or_eq.mp hk with hlt | rfl
      · have hne : addr k ≠ addr count := by
          intro heq
          have := hinj k (by omega) count (by omega) heq
          omega
        rw [Function.update_of_ne hne]
        apply ih _ hlt
        intro i hi j hj
        exact hinj i (by omega) j (by omega)
      · rw [Function.update_self]

theorem clear_of_not {mem : PagedMemory π} {region : Nat → Prop}
    [DecidablePred region] {other : Nat} (hother : ¬ region other) :
    mem.clear region other = mem other :=
  if_neg hother

theorem clear_of_mem {mem : PagedMemory π} {region : Nat → Prop}
    [DecidablePred region] {other : Nat} (hother : region other) :
    mem.clear region other = none :=
  if_pos hother

end PagedMemory
