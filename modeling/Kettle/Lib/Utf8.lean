/-
`String::from_utf8_lossy` and `str::trim` on character lists.
-/
import Kettle.Lib.Bytes

namespace Kettle

namespace Utf8

def replacement : Char := '\uFFFD'

/-- A continuation byte, `10xxxxxx`. -/
def isCont (b : UInt8) : Bool := b &&& 192 == 128

def lowBits (b : UInt8) (mask : UInt8) : Nat := (b &&& mask).toNat

/-- The second bytes that the lead byte of a three-byte character allows. -/
def second3 (lead b : UInt8) : Bool :=
  if lead == 0xE0 then 0xA0 ≤ b && b ≤ 0xBF
  else if lead == 0xED then 0x80 ≤ b && b ≤ 0x9F
  else 0x80 ≤ b && b ≤ 0xBF

/-- The second bytes that the lead byte of a four-byte character allows. -/
def second4 (lead b : UInt8) : Bool :=
  if lead == 0xF0 then 0x90 ≤ b && b ≤ 0xBF
  else if lead == 0xF4 then 0x80 ≤ b && b ≤ 0x8F
  else 0x80 ≤ b && b ≤ 0xBF

/-- The character at the front and the bytes after it.  A sequence that breaks
off becomes one replacement character for the part that was still valid. -/
def decodeNext (lead : UInt8) (rest : Bytes) : Char × Bytes :=
  if lead < 0x80 then (Char.ofNat lead.toNat, rest)
  else if 0xC2 ≤ lead && lead ≤ 0xDF then
    match rest with
    | b :: tail =>
        if isCont b then
          (Char.ofNat (lowBits lead 0x1F * 64 + lowBits b 0x3F), tail)
        else (replacement, rest)
    | [] => (replacement, rest)
  else if 0xE0 ≤ lead && lead ≤ 0xEF then
    match rest with
    | b :: tail =>
        if second3 lead b then
          match tail with
          | c :: tail' =>
              if isCont c then
                (Char.ofNat (lowBits lead 0x0F * 4096 + lowBits b 0x3F * 64 +
                  lowBits c 0x3F), tail')
              else (replacement, tail)
          | [] => (replacement, tail)
        else (replacement, rest)
    | [] => (replacement, rest)
  else if 0xF0 ≤ lead && lead ≤ 0xF4 then
    match rest with
    | b :: tail =>
        if second4 lead b then
          match tail with
          | c :: tail' =>
              if isCont c then
                match tail' with
                | d :: tail'' =>
                    if isCont d then
                      (Char.ofNat (lowBits lead 0x07 * 262144 +
                        lowBits b 0x3F * 4096 + lowBits c 0x3F * 64 +
                        lowBits d 0x3F), tail'')
                    else (replacement, tail')
                | [] => (replacement, tail')
              else (replacement, tail)
          | [] => (replacement, tail)
        else (replacement, rest)
    | [] => (replacement, rest)
  else (replacement, rest)

/-- Every character consumes a byte, so that as many turns as there are bytes
are enough. -/
def lossyChars : Nat → Bytes → List Char
  | 0, _ => []
  | _ + 1, [] => []
  | turns + 1, lead :: rest =>
      (decodeNext lead rest).1 :: lossyChars turns (decodeNext lead rest).2

/-- The characters of `String::from_utf8_lossy`. -/
def fromUtf8Lossy (bytes : Bytes) : List Char :=
  lossyChars bytes.length bytes

/-- `char::is_whitespace`, the White_Space property. -/
def isWhitespace (c : Char) : Bool :=
  let n := c.toNat
  (9 ≤ n && n ≤ 13) || n == 0x20 || n == 0x85 || n == 0xA0 || n == 0x1680 ||
    (0x2000 ≤ n && n ≤ 0x200A) || n == 0x2028 || n == 0x2029 ||
    n == 0x202F || n == 0x205F || n == 0x3000

/-- `str::trim`. -/
def trim (chars : List Char) : List Char :=
  (chars.dropWhile isWhitespace).rdropWhile isWhitespace

theorem trim_trim (chars : List Char) : trim (trim chars) = trim chars := by
  unfold trim
  have hdrop : ((chars.dropWhile isWhitespace).rdropWhile
      isWhitespace).dropWhile isWhitespace =
      (chars.dropWhile isWhitespace).rdropWhile isWhitespace := by
    have hsame := List.dropWhile_idempotent isWhitespace chars
    have hprefix := List.rdropWhile_prefix isWhitespace
      (chars.dropWhile isWhitespace)
    generalize chars.dropWhile isWhitespace = rest at hsame hprefix ⊢
    generalize rest.rdropWhile isWhitespace = front at hprefix ⊢
    cases front with
    | nil => rfl
    | cons c front =>
        obtain ⟨back, rfl⟩ := hprefix
        rw [List.dropWhile_cons_of_neg]
        intro hc
        rw [List.cons_append, List.dropWhile_cons_of_pos hc] at hsame
        have hlen := congrArg List.length hsame
        have hle : ((front ++ back).dropWhile isWhitespace).length ≤
            (front ++ back).length :=
          (List.dropWhile_sublist isWhitespace).length_le
        rw [List.length_cons] at hlen
        omega
  rw [hdrop, List.rdropWhile_idempotent]

theorem trim_concat {c : Char} (hc : isWhitespace c = true)
    (chars : List Char) : trim (chars ++ [c]) = trim chars := by
  unfold trim
  by_cases hall : chars.dropWhile isWhitespace = []
  · rw [List.dropWhile_append, hall]
    simp [hc]
  · rw [List.dropWhile_append, if_neg (by simpa using hall),
      List.rdropWhile_concat_pos _ _ _ hc]
theorem decodeNext_length_le (lead : UInt8) (rest : Bytes) :
    (decodeNext lead rest).2.length ≤ rest.length := by
  unfold decodeNext
  repeat' split
  all_goals simp_all
  all_goals omega

/-- More turns than bytes change nothing. -/
theorem lossyChars_of_length_le {turns : Nat} {bytes : Bytes}
    (hle : bytes.length ≤ turns) :
    lossyChars turns bytes = fromUtf8Lossy bytes := by
  suffices hall : ∀ (count turns turns' : Nat) (bytes : Bytes),
      bytes.length ≤ count → bytes.length ≤ turns → bytes.length ≤ turns' →
        lossyChars turns bytes = lossyChars turns' bytes from
    hall bytes.length turns bytes.length bytes le_rfl hle le_rfl
  intro count
  induction count with
  | zero =>
      intro turns turns' bytes hcount _ _
      have hnil : bytes = [] := List.length_eq_zero_iff.mp (by omega)
      subst hnil
      cases turns <;> cases turns' <;> rfl
  | succ count ih =>
      intro turns turns' bytes hcount hturns hturns'
      cases bytes with
      | nil => cases turns <;> cases turns' <;> rfl
      | cons lead rest =>
          have hrest := decodeNext_length_le lead rest
          simp only [List.length_cons] at hcount hturns hturns'
          obtain ⟨turns, rfl⟩ : ∃ n, turns = n + 1 :=
            ⟨turns - 1, by omega⟩
          obtain ⟨turns', rfl⟩ : ∃ n, turns' = n + 1 :=
            ⟨turns' - 1, by omega⟩
          simp only [lossyChars]
          rw [ih turns turns' _ (by omega) (by omega) (by omega)]

/-- Decoding goes on after each character, with no bound left over. -/
theorem fromUtf8Lossy_cons (lead : UInt8) (rest : Bytes) :
    fromUtf8Lossy (lead :: rest) =
      (decodeNext lead rest).1 :: fromUtf8Lossy (decodeNext lead rest).2 := by
  rw [← lossyChars_of_length_le (decodeNext_length_le lead rest)]
  rfl

section Encoded

theorem tail_spec : ∀ n < 64, isCont (.ofNat (n + 128)) = true ∧
    lowBits (.ofNat (n + 128)) 0x3F = n := by
  decide

theorem lead2_spec : ∀ n < 32, 2 ≤ n →
    ¬ UInt8.ofNat (n + 192) < 0x80 ∧
      (0xC2 ≤ UInt8.ofNat (n + 192) && UInt8.ofNat (n + 192) ≤ 0xDF) = true ∧
      lowBits (.ofNat (n + 192)) 0x1F = n := by
  decide

theorem lead3_spec : ∀ n < 16,
    ¬ UInt8.ofNat (n + 224) < 0x80 ∧
      (0xC2 ≤ UInt8.ofNat (n + 224) && UInt8.ofNat (n + 224) ≤ 0xDF) = false ∧
      (0xE0 ≤ UInt8.ofNat (n + 224) && UInt8.ofNat (n + 224) ≤ 0xEF) = true ∧
      lowBits (.ofNat (n + 224)) 0x0F = n := by
  decide

theorem lead4_spec : ∀ n < 5,
    ¬ UInt8.ofNat (n + 240) < 0x80 ∧
      (0xC2 ≤ UInt8.ofNat (n + 240) && UInt8.ofNat (n + 240) ≤ 0xDF) = false ∧
      (0xE0 ≤ UInt8.ofNat (n + 240) && UInt8.ofNat (n + 240) ≤ 0xEF) = false ∧
      (0xF0 ≤ UInt8.ofNat (n + 240) && UInt8.ofNat (n + 240) ≤ 0xF4) = true ∧
      lowBits (.ofNat (n + 240)) 0x07 = n := by
  decide

/-- No overlong sequence, and no surrogate. -/
theorem second3_spec : ∀ lead < 16, ∀ n < 64, (lead = 0 → 32 ≤ n) →
    (lead = 13 → n < 32) →
      second3 (.ofNat (lead + 224)) (.ofNat (n + 128)) = true := by
  decide +kernel

/-- No overlong sequence, and nothing after the last character. -/
theorem second4_spec : ∀ lead < 5, ∀ n < 64, (lead = 0 → 16 ≤ n) →
    (lead = 4 → n < 16) →
      second4 (.ofNat (lead + 240)) (.ofNat (n + 128)) = true := by
  decide +kernel

theorem fromUtf8Lossy_utf8EncodeChar (c : Char) (rest : Bytes) :
    fromUtf8Lossy (String.utf8EncodeChar c ++ rest) =
      c :: fromUtf8Lossy rest := by
  have hvalid : c.val.toNat.isValidChar := c.valid
  have hchar : Char.ofNat c.val.toNat = c := c.ofNat_toNat
  unfold String.utf8EncodeChar
  generalize c.val.toNat = v at hvalid hchar ⊢
  simp only [Nat.isValidChar] at hvalid ⊢
  have hmid := tail_spec (v / 64 % 64) (by omega)
  have hlast := tail_spec (v % 64) (by omega)
  split
  · have hascii : (UInt8.ofNat v).toNat = v :=
      UInt8.toNat_ofNat_of_lt' (show v < 256 by omega)
    have hlt : UInt8.ofNat v < 0x80 := by
      rw [UInt8.lt_iff_toNat_lt, hascii]
      exact Nat.lt_succ_of_le ‹_›
    simp only [List.cons_append, List.nil_append, fromUtf8Lossy_cons,
      decodeNext, hlt, if_true, hascii, hchar]
  · split
    · obtain ⟨hascii, hlead, hhigh⟩ := lead2_spec (v / 64 % 32) (by omega)
        (by omega)
      have hvalue : v / 64 % 32 * 64 + v % 64 = v := by omega
      simp only [List.cons_append, List.nil_append, fromUtf8Lossy_cons,
        decodeNext, hascii, hlead, hhigh, hlast, if_true, if_false, hvalue,
        hchar]
    · split
      · obtain ⟨hascii, hnot, hlead, hhigh⟩ := lead3_spec (v / 4096 % 16)
          (by omega)
        have hsecond := second3_spec (v / 4096 % 16) (by omega)
          (v / 64 % 64) (by omega) (by omega) (by omega)
        have hvalue : v / 4096 % 16 * 4096 + v / 64 % 64 * 64 + v % 64 =
            v := by
          omega
        simp only [List.cons_append, List.nil_append, fromUtf8Lossy_cons,
          decodeNext, hascii, hnot, hlead, hhigh, hsecond, hmid, hlast,
          if_true, if_false, hvalue, hchar, Bool.false_eq_true]
      · obtain ⟨hascii, hnot, hnot', hlead, hhigh⟩ :=
          lead4_spec (v / 262144 % 8) (by omega)
        have hhighMid := tail_spec (v / 4096 % 64) (by omega)
        have hsecond := second4_spec (v / 262144 % 8) (by omega)
          (v / 4096 % 64) (by omega) (by omega) (by omega)
        have hvalue : v / 262144 % 8 * 262144 + v / 4096 % 64 * 4096 +
            v / 64 % 64 * 64 + v % 64 = v := by
          omega
        simp only [List.cons_append, List.nil_append, fromUtf8Lossy_cons,
          decodeNext, hascii, hnot, hnot', hlead, hhigh, hsecond, hhighMid,
          hmid, hlast, if_true, if_false, hvalue, hchar, Bool.false_eq_true]

/-- An encoded text is read back, whatever follows it. -/
theorem fromUtf8Lossy_flatMap (chars : List Char) (rest : Bytes) :
    fromUtf8Lossy (chars.flatMap String.utf8EncodeChar ++ rest) =
      chars ++ fromUtf8Lossy rest := by
  induction chars with
  | nil => rfl
  | cons c chars ih =>
      rw [List.flatMap_cons, List.append_assoc, fromUtf8Lossy_utf8EncodeChar,
        ih, List.cons_append]

/-- The bytes of a string. -/
theorem toUTF8_toList (text : String) :
    text.toUTF8.data.toList = text.toList.flatMap String.utf8EncodeChar := by
  conv_lhs => rw [← String.ofList_toList (s := text)]
  rw [String.toUTF8_eq_toByteArray, String.toByteArray_ofList,
    List.utf8Encode, List.data_toByteArray]

theorem fromUtf8Lossy_toUTF8 (text : String) :
    fromUtf8Lossy text.toUTF8.data.toList = text.toList := by
  have hread := fromUtf8Lossy_flatMap text.toList []
  rwa [List.append_nil, ← toUTF8_toList, show fromUtf8Lossy [] = [] from rfl,
    List.append_nil] at hread

theorem ofNat_ne_zero {n : Nat} (hpos : 0 < n) (hlt : n < 256) :
    (0 : UInt8) ≠ .ofNat n := by
  intro hzero
  have hnat := congrArg UInt8.toNat hzero
  rw [UInt8.toNat_ofNat_of_lt' hlt] at hnat
  exact hpos.ne hnat

/-- Only NUL is encoded with a zero byte. -/
theorem zero_notMem_utf8EncodeChar {c : Char} (hc : c ≠ '\x00') :
    0 ∉ String.utf8EncodeChar c := by
  have hpos : 0 < c.val.toNat := by
    rw [Nat.pos_iff_ne_zero]
    intro hzero
    exact hc (Char.ext (UInt32.toNat_inj.mp hzero))
  unfold String.utf8EncodeChar
  simp only
  split
  · rw [List.mem_singleton]
    exact ofNat_ne_zero hpos (by omega)
  · -- the other bytes are marked
    repeat' split
    all_goals
      simp only [List.mem_cons, List.not_mem_nil, or_false, not_or]
      and_intros
    all_goals exact ofNat_ne_zero (by omega) (by omega)

theorem le_toNat_ofNat {n : Nat} (hle : 32 ≤ n) (hlt : n < 256) :
    32 ≤ (UInt8.ofNat n).toNat := by
  rwa [UInt8.toNat_ofNat_of_lt' hlt]

/-- Only control characters are encoded with control bytes. -/
theorem le_of_mem_utf8EncodeChar {c : Char} (hc : 32 ≤ c.toNat) {b : UInt8}
    (hb : b ∈ String.utf8EncodeChar c) : 32 ≤ b.toNat := by
  have hval : 32 ≤ c.val.toNat := hc
  revert b hb
  unfold String.utf8EncodeChar
  simp only
  split
  · intro b hb
    rw [List.mem_singleton] at hb
    exact hb ▸ le_toNat_ofNat hval (by omega)
  · -- the bytes of the other characters are marked
    repeat' split
    all_goals
      simp only [List.forall_mem_cons, List.not_mem_nil, false_implies,
        implies_true, and_true]
      and_intros
    all_goals exact le_toNat_ofNat (by omega) (by omega)

end Encoded

end Utf8

end Kettle
