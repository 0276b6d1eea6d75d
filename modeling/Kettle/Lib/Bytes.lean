/-
Byte strings, their little-endian integers, and the fixed-width views that
Rust code takes of them: range reads, zero padding and trailing-zero stripping.
-/
import Mathlib.Data.List.Basic
import Mathlib.Data.List.DropRight
import Mathlib.Data.List.TakeDrop
import Mathlib.Data.Vector.Basic
import Mathlib.Tactic.Ring

namespace Kettle

/-- A byte string of any length (`&[u8]`, `Vec<u8>`). -/
abbrev Bytes := List UInt8

/-- A byte string whose length is part of its type (`[u8; n]`). -/
abbrev ByteVec (n : Nat) := List.Vector UInt8 n

namespace Bytes

/-- The `width` little-endian bytes of `n`; higher bits are dropped. -/
def ofNatLE : Nat → Nat → Bytes
  | 0, _ => []
  | width + 1, n => UInt8.ofNat (n % 256) :: ofNatLE width (n / 256)

/-- The natural number with the given little-endian bytes. -/
def toNatLE : Bytes → Nat
  | [] => 0
  | b :: rest => b.toNat + 256 * toNatLE rest

@[simp] theorem length_ofNatLE (width n : Nat) :
    (ofNatLE width n).length = width := by
  induction width generalizing n with
  | zero => rfl
  | succ width ih => simp [ofNatLE, ih]

theorem toNatLE_ofNatLE (width n : Nat) :
    toNatLE (ofNatLE width n) = n % 256 ^ width := by
  induction width generalizing n with
  | zero => simp [ofNatLE, toNatLE, Nat.mod_one]
  | succ width ih =>
      have hbyte : (UInt8.ofNat (n % 256)).toNat = n % 256 := by
        rw [UInt8.toNat_ofNat']
        exact Nat.mod_eq_of_lt (Nat.mod_lt n (by decide))
      rw [ofNatLE, toNatLE, hbyte, ih, pow_succ', Nat.mod_mul]

theorem toNatLE_ofNatLE_of_lt {width n : Nat} (hn : n < 256 ^ width) :
    toNatLE (ofNatLE width n) = n := by
  rw [toNatLE_ofNatLE, Nat.mod_eq_of_lt hn]

theorem ofNatLE_toNatLE (bytes : Bytes) :
    ofNatLE bytes.length (toNatLE bytes) = bytes := by
  induction bytes with
  | nil => rfl
  | cons b rest ih =>
      have hmod : (b.toNat + 256 * toNatLE rest) % 256 = b.toNat := by
        have hb := b.toNat_lt
        omega
      have hdiv : (b.toNat + 256 * toNatLE rest) / 256 = toNatLE rest := by
        have hb := b.toNat_lt
        omega
      rw [List.length_cons, toNatLE, ofNatLE, hmod, hdiv, ih,
        UInt8.ofNat_toNat]

theorem ofNatLE_inj {width n m : Nat} (hn : n < 256 ^ width)
    (hm : m < 256 ^ width) (heq : ofNatLE width n = ofNatLE width m) :
    n = m := by
  have hval := congrArg toNatLE heq
  rwa [toNatLE_ofNatLE_of_lt hn, toNatLE_ofNatLE_of_lt hm] at hval

theorem toNatLE_eq_zero_iff (bytes : Bytes) :
    toNatLE bytes = 0 ↔ ∀ b ∈ bytes, b = 0 := by
  induction bytes with
  | nil => simp [toNatLE]
  | cons b rest ih =>
      have hbyte : b.toNat = 0 ↔ b = 0 := UInt8.toNat_inj (b := 0)
      rw [toNatLE, List.forall_mem_cons, ← ih, ← hbyte]
      omega

theorem toNatLE_lt (bytes : Bytes) : toNatLE bytes < 256 ^ bytes.length := by
  induction bytes with
  | nil => simp [toNatLE]
  | cons b rest ih =>
      have hb : b.toNat < 256 := b.toNat_lt
      simp only [toNatLE, List.length_cons, pow_succ]
      omega

/-- `buf.get(start..stop)`: the bytes of the range, or `none` when the range is
reversed or runs past the end. -/
def range? (buf : Bytes) (start stop : Nat) : Option Bytes :=
  if start ≤ stop ∧ stop ≤ buf.length then
    some ((buf.drop start).take (stop - start))
  else none

/-- A range that stays inside a prefix reads the same bytes from the prefix. -/
theorem range?_append_left (front back : Bytes) {start stop : Nat}
    (hstop : stop ≤ front.length) :
    range? (front ++ back) start stop = range? front start stop := by
  unfold range?
  by_cases hle : start ≤ stop
  · have hwhole : stop ≤ (front ++ back).length := by
      rw [List.length_append]
      omega
    rw [if_pos ⟨hle, hwhole⟩, if_pos ⟨hle, hstop⟩,
      List.drop_append_of_le_length (by omega),
      List.take_append_of_le_length (by rw [List.length_drop]; omega)]
  · rw [if_neg (fun h => hle h.1), if_neg (fun h => hle h.1)]

theorem range?_append_right (front back : Bytes) (start stop : Nat) :
    range? (front ++ back) (front.length + start) (front.length + stop) =
      range? back start stop := by
  have hbounds : (front.length + start ≤ front.length + stop ∧
      front.length + stop ≤ (front ++ back).length) ↔
        start ≤ stop ∧ stop ≤ back.length := by
    rw [List.length_append]
    omega
  have hcount : front.length + stop - (front.length + start) =
      stop - start := by
    omega
  simp only [range?, hbounds, hcount, List.drop_length_add_append]

/-- The `count` bytes from `start` on, fewer at the end of the buffer. -/
def slice (buf : Bytes) (start count : Nat) : Bytes :=
  (buf.drop start).take count

theorem range?_eq_some_iff {buf found : Bytes} {start count : Nat} :
    buf.range? start (start + count) = some found ↔
      start + count ≤ buf.length ∧ buf.slice start count = found := by
  unfold Bytes.range? Bytes.slice
  by_cases hle : start + count ≤ buf.length
  · simp [hle]
  · simp [hle]

theorem range?_eq_none_iff {buf : Bytes} {start count : Nat} :
    buf.range? start (start + count) = none ↔ buf.length < start + count := by
  unfold Bytes.range?
  by_cases hle : start + count ≤ buf.length
  · simp [hle]
  · simp [hle]
    omega

/-- A slice that stays inside a prefix is a slice of the prefix. -/
theorem slice_append_left (front back : Bytes) {start count : Nat}
    (hstop : start + count ≤ front.length) :
    slice (front ++ back) start count = slice front start count := by
  rw [slice, slice, List.drop_append_of_le_length (by omega),
    List.take_append_of_le_length (by rw [List.length_drop]; omega)]

theorem slice_append_right (front back : Bytes) (start count : Nat) :
    slice (front ++ back) (front.length + start) count =
      slice back start count := by
  rw [slice, slice, List.drop_length_add_append]

theorem slice_add (buf : Bytes) (start front back : Nat) :
    slice buf start (front + back) =
      slice buf start front ++ slice buf (start + front) back := by
  unfold slice
  rw [← List.drop_drop, ← List.take_add]

/-- A slice of a slice. -/
theorem slice_slice (buf : Bytes) {start count start' count' : Nat}
    (hinside : start' + count' ≤ count) :
    slice (slice buf start count) start' count' =
      slice buf (start + start') count' := by
  unfold slice
  rw [List.drop_take, List.take_take, List.drop_drop,
    Nat.min_eq_left (by omega)]

theorem length_slice {buf : Bytes} {start count : Nat}
    (hstop : start + count ≤ buf.length) :
    (slice buf start count).length = count := by
  simp only [slice, List.length_take, List.length_drop]
  omega

theorem getElem?_slice {buf : Bytes} {start count k : Nat} (hk : k < count) :
    (slice buf start count)[k]? = buf[start + k]? := by
  rw [slice, List.getElem?_take_of_lt hk, List.getElem?_drop]

theorem mem_slice_iff {buf : Bytes} {start count : Nat} {b : UInt8} :
    b ∈ slice buf start count ↔ ∃ k, k < count ∧ buf[start + k]? = some b := by
  rw [List.mem_iff_getElem?]
  constructor
  · rintro ⟨k, hk⟩
    have hcount : k < count := by
      have hlength := (List.getElem?_eq_some_iff.mp hk).1
      rw [slice, List.length_take] at hlength
      omega
    exact ⟨k, hcount, by rwa [getElem?_slice hcount] at hk⟩
  · rintro ⟨k, hcount, hk⟩
    exact ⟨k, by rwa [getElem?_slice hcount]⟩

/-- The first `width` bytes, filled up with zeros when there are fewer: what
copying a slice into a zeroed buffer of `width` bytes leaves there. -/
def zeroPad (width : Nat) (bytes : Bytes) : Bytes :=
  bytes.take width ++ List.replicate (width - bytes.length) 0

@[simp] theorem length_zeroPad (width : Nat) (bytes : Bytes) :
    (zeroPad width bytes).length = width := by
  simp only [zeroPad, List.length_append, List.length_take,
    List.length_replicate]
  omega

theorem getElem?_zeroPad {width k : Nat} (bytes : Bytes) (hk : k < width) :
    (zeroPad width bytes)[k]? = some (bytes[k]?.getD 0) := by
  rw [zeroPad]
  by_cases hbytes : k < bytes.length
  · rw [List.getElem?_append_left (by rw [List.length_take]; omega),
      List.getElem?_take_of_lt hk, List.getElem?_eq_getElem hbytes]
    rfl
  · rw [List.getElem?_append_right (by rw [List.length_take]; omega),
      List.getElem?_replicate, if_pos (by rw [List.length_take]; omega),
      List.getElem?_eq_none (by omega)]
    rfl

theorem zeroPad_of_length_le {width : Nat} {bytes : Bytes}
    (hle : bytes.length ≤ width) :
    zeroPad width bytes =
      bytes ++ List.replicate (width - bytes.length) 0 := by
  rw [zeroPad, List.take_of_length_le hle]

theorem zeroPad_eq_self {width : Nat} {bytes : Bytes}
    (hlen : bytes.length = width) : zeroPad width bytes = bytes := by
  rw [zeroPad_of_length_le hlen.le, hlen, Nat.sub_self]
  exact List.append_nil _

/-- A zero byte at the end does not change the padded bytes. -/
theorem zeroPad_append_zero {width : Nat} {bytes : Bytes}
    (hlt : bytes.length < width) :
    zeroPad width bytes = zeroPad width (bytes ++ [0]) := by
  have hlen : (bytes ++ [0]).length ≤ width := by
    rw [List.length_append]
    exact hlt
  have hcount : width - bytes.length = width - (bytes.length + 1) + 1 := by
    omega
  rw [zeroPad_of_length_le hlt.le, zeroPad_of_length_le hlen, hcount,
    List.replicate_succ, List.length_append, List.append_assoc]
  rfl

/-- Only the first `width` bytes matter. -/
theorem zeroPad_take (width : Nat) (bytes : Bytes) :
    zeroPad width (bytes.take width) = zeroPad width bytes := by
  rw [zeroPad, zeroPad, List.take_take, Nat.min_self, List.length_take]
  congr 2
  omega

/-- `zeroPad` at its type-level width. -/
def zeroPadVec (width : Nat) (bytes : Bytes) : ByteVec width :=
  ⟨zeroPad width bytes, length_zeroPad width bytes⟩

@[simp] theorem zeroPadVec_toList (width : Nat) (bytes : Bytes) :
    (zeroPadVec width bytes).toList = zeroPad width bytes := rfl

/-- Drop every zero byte at the end. -/
def stripTrailingZeros (bytes : Bytes) : Bytes :=
  bytes.rdropWhile (· == 0)

theorem stripTrailingZeros_append_replicate (bytes : Bytes) :
    ∃ zeros : Nat,
      bytes = stripTrailingZeros bytes ++ List.replicate zeros 0 := by
  refine ⟨(bytes.rtakeWhile (· == 0)).length, ?_⟩
  have hzeros : bytes.rtakeWhile (· == 0) =
      List.replicate (bytes.rtakeWhile (· == 0)).length 0 := by
    apply List.eq_replicate_of_mem
    intro b hb
    simpa using List.mem_rtakeWhile_imp hb
  rw [← hzeros]
  exact List.rdropWhile_append_rtakeWhile.symm

theorem length_stripTrailingZeros_le (bytes : Bytes) :
    (stripTrailingZeros bytes).length ≤ bytes.length :=
  (List.rdropWhile_prefix _ bytes).length_le

/-- Stripping reaches back to position `count` exactly when all bytes from
there on are zero. -/
theorem length_stripTrailingZeros_le_iff (bytes : Bytes) (count : Nat) :
    (stripTrailingZeros bytes).length ≤ count ↔
      ∀ b ∈ bytes.drop count, b = 0 := by
  obtain ⟨zeros, hsplit⟩ := stripTrailingZeros_append_replicate bytes
  constructor
  · intro hle b hb
    rw [hsplit, List.drop_append, List.drop_eq_nil_of_le hle,
      List.nil_append, List.drop_replicate] at hb
    exact List.eq_of_mem_replicate hb
  · intro hzero
    by_contra hgt
    have hne : stripTrailingZeros bytes ≠ [] := by
      intro hnil
      rw [hnil] at hgt
      simp at hgt
    have hlast : ¬ ((stripTrailingZeros bytes).getLast hne == 0) = true :=
      List.rdropWhile_last_not (· == 0) bytes hne
    have hdrop : (stripTrailingZeros bytes).drop count ≠ [] := by
      simpa using hgt
    have hmem : (stripTrailingZeros bytes).getLast hne ∈
        (stripTrailingZeros bytes).drop count := by
      rw [← List.getLast_drop hdrop]
      exact List.getLast_mem hdrop
    have hsplitDrop : bytes.drop count =
        (stripTrailingZeros bytes).drop count ++ List.replicate zeros 0 := by
      conv_lhs => rw [hsplit]
      rw [List.drop_append_of_le_length (by omega)]
    have hzeroLast := hzero ((stripTrailingZeros bytes).getLast hne) (by
      rw [hsplitDrop]
      exact List.mem_append_left _ hmem)
    exact hlast (by simpa using hzeroLast)

/-- Padding restores what stripping removed. -/
theorem zeroPad_stripTrailingZeros {width : Nat} {bytes : Bytes}
    (hlen : bytes.length = width) :
    zeroPad width (stripTrailingZeros bytes) = bytes := by
  obtain ⟨zeros, hsplit⟩ := stripTrailingZeros_append_replicate bytes
  have hcount := congrArg List.length hsplit
  rw [List.length_append, List.length_replicate, hlen] at hcount
  rw [zeroPad_of_length_le (by omega)]
  conv_rhs => rw [hsplit]
  rw [show width - (stripTrailingZeros bytes).length = zeros by omega]

/-- A padded field is its leading part and its trailing part, each padded. -/
theorem zeroPad_add (front back : Nat) (bytes : Bytes) :
    zeroPad (front + back) bytes =
      zeroPad front bytes ++ zeroPad back (bytes.drop front) := by
  rcases Nat.le_total bytes.length front with hle | hge
  · have hdrop : bytes.drop front = [] := List.drop_eq_nil_of_le hle
    rw [zeroPad_of_length_le (by omega), zeroPad_of_length_le hle, hdrop,
      List.append_assoc]
    simp only [zeroPad, List.take_nil, List.length_nil, List.nil_append,
      List.replicate_append_replicate, Nat.sub_zero]
    rw [show front + back - bytes.length = front - bytes.length + back by
      omega]
  · have hnone : front - bytes.length = 0 := by omega
    simp only [zeroPad, List.take_add, List.append_assoc, List.length_drop,
      hnone, List.replicate_zero, List.nil_append]
    rw [show front + back - bytes.length = back - (bytes.length - front) by
      omega]

theorem toNatLE_append (front back : Bytes) :
    toNatLE (front ++ back) =
      toNatLE front + 256 ^ front.length * toNatLE back := by
  induction front with
  | nil => simp [toNatLE]
  | cons b rest ih =>
      rw [List.cons_append, toNatLE, ih, toNatLE, List.length_cons]
      ring

theorem toNatLE_take (bytes : Bytes) (count : Nat) :
    toNatLE (bytes.take count) = toNatLE bytes % 256 ^ count := by
  rcases Nat.le_total bytes.length count with hle | hle
  · rw [List.take_of_length_le hle, Nat.mod_eq_of_lt]
    exact lt_of_lt_of_le (toNatLE_lt bytes)
      (Nat.pow_le_pow_right (by decide) hle)
  · have hlen : (bytes.take count).length = count := List.length_take_of_le hle
    have hlt := toNatLE_lt (bytes.take count)
    rw [hlen] at hlt
    conv_rhs => rw [← List.take_append_drop count bytes, toNatLE_append, hlen]
    rw [Nat.add_mul_mod_self_left, Nat.mod_eq_of_lt hlt]

theorem toNatLE_replicate_zero (count : Nat) :
    toNatLE (List.replicate count 0) = 0 := by
  rw [toNatLE_eq_zero_iff]
  intro b hb
  exact List.eq_of_mem_replicate hb

/-- Zeros behind the highest byte leave the number as it is. -/
theorem toNatLE_zeroPad {width : Nat} {bytes : Bytes}
    (hle : bytes.length ≤ width) :
    toNatLE (zeroPad width bytes) = toNatLE bytes := by
  rw [zeroPad_of_length_le hle, toNatLE_append, toNatLE_replicate_zero,
    Nat.mul_zero, Nat.add_zero]

/-- Strings of one length with the same number are equal. -/
theorem eq_of_toNatLE_eq {left right : Bytes}
    (hlen : left.length = right.length)
    (heq : toNatLE left = toNatLE right) : left = right := by
  rw [← ofNatLE_toNatLE left, hlen, heq, ofNatLE_toNatLE]

end Bytes

end Kettle
