/-
Flags of a machine word: the positions whose bits are set, listed from the
lowest up, and the word that sets given positions.
-/
import Mathlib.Data.BitVec
import Mathlib.Data.List.FinRange
import Mathlib.Data.List.Nodup

namespace BitFlags

variable {width : Nat}

def isSet (bits : BitVec width) (position : Fin width) : Bool :=
  bits.getLsbD position

/-- The word with one bit set. -/
def flag (position : Fin width) : BitVec width :=
  BitVec.twoPow width position

/-- The word with the bits of the given positions set. -/
def ofPositions (set : List (Fin width)) : BitVec width :=
  set.foldr (fun position bits => flag position ||| bits)
    (BitVec.ofNat width 0)

/-- The positions of the bits that are set. -/
def positions (bits : BitVec width) : List (Fin width) :=
  (List.finRange width).filter (isSet bits)

@[simp] theorem isSet_zero (position : Fin width) :
    isSet (BitVec.ofNat width 0) position = false :=
  BitVec.getLsbD_zero

@[simp] theorem isSet_and (left right : BitVec width)
    (position : Fin width) :
    isSet (left &&& right) position =
      (isSet left position && isSet right position) :=
  BitVec.getLsbD_and

@[simp] theorem isSet_or (left right : BitVec width)
    (position : Fin width) :
    isSet (left ||| right) position =
      (isSet left position || isSet right position) :=
  BitVec.getLsbD_or

@[simp] theorem isSet_not (bits : BitVec width) (position : Fin width) :
    isSet (~~~bits) position = !isSet bits position := by
  unfold isSet
  rw [BitVec.getLsbD_not, decide_eq_true position.isLt, Bool.true_and]

@[simp] theorem isSet_flag (position other : Fin width) :
    isSet (flag position) other = decide (position = other) := by
  unfold isSet flag
  rw [BitVec.getLsbD_twoPow, decide_eq_true position.isLt, Bool.true_and,
    decide_eq_decide, Fin.ext_iff]

@[simp] theorem isSet_ofPositions (set : List (Fin width))
    (position : Fin width) :
    isSet (ofPositions set) position = decide (position ∈ set) := by
  induction set with
  | nil => simp [ofPositions]
  | cons first rest ih =>
      unfold ofPositions at ih ⊢
      rw [List.foldr_cons, isSet_or, isSet_flag, ih]
      by_cases heq : first = position
      · simp [heq]
      · simp [heq, Ne.symm heq]

@[simp] theorem mem_positions {bits : BitVec width} {position : Fin width} :
    position ∈ positions bits ↔ isSet bits position = true := by
  simp [positions]

theorem pairwise_positions (bits : BitVec width) :
    (positions bits).Pairwise (· < ·) :=
  (List.pairwise_lt_finRange width).filter _

theorem nodup_positions (bits : BitVec width) : (positions bits).Nodup :=
  (List.nodup_finRange width).filter _

/-- Words with the same bits set are equal. -/
theorem ext_isSet {left right : BitVec width}
    (heq : ∀ position, isSet left position = isSet right position) :
    left = right :=
  BitVec.eq_of_getLsbD_eq fun i hi => heq ⟨i, hi⟩

theorem ofPositions_positions (bits : BitVec width) :
    ofPositions (positions bits) = bits := by
  refine ext_isSet fun position => ?_
  rw [isSet_ofPositions, Bool.eq_iff_iff, decide_eq_true_iff, mem_positions]

theorem positions_eq_nil_iff {bits : BitVec width} :
    positions bits = [] ↔ bits = BitVec.ofNat width 0 := by
  constructor
  · intro hnil
    rw [← ofPositions_positions bits, hnil]
    rfl
  · rintro rfl
    simp [positions]

/-- A word contains the flags of another when masking it gives the other. -/
theorem and_eq_right_iff {bits other : BitVec width} :
    bits &&& other = other ↔
      ∀ position, isSet other position = true → isSet bits position = true := by
  constructor
  · intro heq position hposition
    rw [← heq, isSet_and, Bool.and_eq_true] at hposition
    exact hposition.1
  · intro hsub
    refine ext_isSet fun position => ?_
    rw [isSet_and]
    cases hother : isSet other position with
    | false => exact Bool.and_false _
    | true => rw [hsub position hother, Bool.true_and]

theorem and_flag_eq_flag_iff {bits : BitVec width} {position : Fin width} :
    bits &&& flag position = flag position ↔ isSet bits position = true := by
  rw [and_eq_right_iff]
  simp

/-- Two words without a flag in common. -/
theorem and_eq_zero_iff {left right : BitVec width} :
    left &&& right = BitVec.ofNat width 0 ↔
      ∀ position, isSet left position = true →
        isSet right position = false := by
  rw [← positions_eq_nil_iff, List.eq_nil_iff_forall_not_mem]
  simp

/-- Clearing one flag takes its position out of the list. -/
theorem positions_and_not_flag (bits : BitVec width)
    (position : Fin width) :
    positions (bits &&& ~~~flag position) =
      (positions bits).erase position := by
  rw [(nodup_positions bits).erase_eq_filter, positions, positions,
    List.filter_filter]
  refine List.filter_congr fun other _ => ?_
  by_cases heq : position = other
  · simp [heq]
  · simp [heq, Ne.symm heq]

/-- A word below a power of two has no higher flag. -/
theorem toNat_lt_two_pow_iff {bits : BitVec width} {bound : Nat} :
    bits.toNat < 2 ^ bound ↔
      ∀ position, isSet bits position = true → position.val < bound := by
  constructor
  · intro hlt position hposition
    by_contra hbound
    unfold isSet at hposition
    rw [← BitVec.testBit_toNat, Nat.testBit_lt_two_pow (lt_of_lt_of_le hlt
      (Nat.pow_le_pow_right (by decide) (not_lt.mp hbound)))] at hposition
    cases hposition
  · intro hall
    refine Nat.lt_pow_two_of_testBit _ fun i hi => ?_
    by_contra hset
    rw [Bool.not_eq_false] at hset
    by_cases hwidth : i < width
    · exact absurd (hall ⟨i, hwidth⟩ hset) (not_lt.mpr hi)
    · rw [BitVec.testBit_toNat, BitVec.getLsbD_of_ge _ _ (not_lt.mp hwidth)]
        at hset
      cases hset

end BitFlags
