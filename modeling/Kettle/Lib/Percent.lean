/-
Percent-encoding of some reserved characters.  Decoding what was encoded gives
the text back exactly when the text had no escapes of its own: the percent
sign is not among the reserved characters.
-/
import Kettle.Lib.Hex
import Kettle.Lib.JsonPretty

namespace Kettle

namespace Percent

/-- The text starts with an escape. -/
def StartsEscape (text : List Char) : Prop :=
  ∃ high low rest h l, text = '%' :: high :: low :: rest ∧
    LowerHex.digitValue high = some h ∧ LowerHex.digitValue low = some l

/-- The text has an escape somewhere. -/
def Escaped (text : List Char) : Prop :=
  ∃ front back, text = front ++ back ∧ StartsEscape back

/-- The bytes of a text after its escapes are resolved. -/
def decode : List Char → Bytes
  | '%' :: high :: low :: rest =>
      match LowerHex.digitValue high, LowerHex.digitValue low with
      | some h, some l => UInt8.ofNat (16 * h + l) :: decode rest
      | _, _ => String.utf8EncodeChar '%' ++ decode (high :: low :: rest)
  | c :: rest => String.utf8EncodeChar c ++ decode rest
  | [] => []

/-- A reserved character is written as an escape with capital digits. -/
def encodeChar (reserved : Char → Bool) (c : Char) : List Char :=
  if reserved c then
    ['%', (LowerHex.digit (c.toNat / 16)).toUpper,
      (LowerHex.digit (c.toNat % 16)).toUpper]
  else [c]

def encode (reserved : Char → Bool) (text : List Char) : List Char :=
  text.flatMap (encodeChar reserved)

theorem escaped_cons_iff {c : Char} {rest : List Char} :
    Escaped (c :: rest) ↔ StartsEscape (c :: rest) ∨ Escaped rest := by
  constructor
  · rintro ⟨front, back, heq, hstarts⟩
    cases front with
    | nil =>
        rw [List.nil_append] at heq
        exact Or.inl (heq ▸ hstarts)
    | cons d front =>
        rw [List.cons_append, List.cons.injEq] at heq
        exact Or.inr ⟨front, back, heq.2, hstarts⟩
  · rintro (hstarts | ⟨front, back, rfl, hstarts⟩)
    · exact ⟨[], _, rfl, hstarts⟩
    · exact ⟨c :: front, back, rfl, hstarts⟩

theorem not_escaped_nil : ¬ Escaped [] := by
  rintro ⟨front, back, heq, high, low, rest, h, l, rfl, -⟩
  simp at heq

theorem StartsEscape.head_eq {c : Char} {rest : List Char}
    (hstarts : StartsEscape (c :: rest)) : c = '%' := by
  obtain ⟨high, low, tail, h, l, heq, -⟩ := hstarts
  exact List.head_eq_of_cons_eq heq

theorem escaped_append_of_no_percent {front back : List Char}
    (hfront : '%' ∉ front) : Escaped (front ++ back) ↔ Escaped back := by
  induction front with
  | nil => rfl
  | cons c front ih =>
      rw [List.mem_cons, not_or] at hfront
      rw [List.cons_append, escaped_cons_iff, ih hfront.2]
      exact or_iff_right fun hstarts => hfront.1 hstarts.head_eq.symm

theorem not_escaped_of_no_percent {text : List Char} (htext : '%' ∉ text) :
    ¬ Escaped text := by
  have happend := @escaped_append_of_no_percent text [] htext
  rw [List.append_nil] at happend
  exact fun h => not_escaped_nil (happend.mp h)

/-- What follows a character that is no digit does not matter to an escape. -/
theorem escaped_append_cons_iff {text back : List Char} {c : Char}
    (hdigit : LowerHex.digitValue c = none) (hback : '%' ∉ c :: back) :
    Escaped (text ++ c :: back) ↔ Escaped text := by
  induction text with
  | nil => exact iff_of_false (not_escaped_of_no_percent hback) not_escaped_nil
  | cons d rest ih =>
      rw [List.cons_append, escaped_cons_iff, escaped_cons_iff, ih]
      refine or_congr_left ?_
      constructor
      · rintro ⟨high, low, tail, h, l, heq, hhigh, hlow⟩
        obtain ⟨rfl, hrest⟩ := List.cons.inj heq
        cases rest with
        | nil =>
            obtain ⟨rfl, -⟩ := List.cons.inj hrest
            rw [hdigit] at hhigh
            cases hhigh
        | cons e rest =>
            obtain ⟨rfl, hafter⟩ := List.cons.inj hrest
            cases rest with
            | nil =>
                obtain ⟨rfl, -⟩ := List.cons.inj hafter
                rw [hdigit] at hlow
                cases hlow
            | cons f rest =>
                obtain ⟨rfl, -⟩ := List.cons.inj hafter
                exact ⟨e, f, rest, h, l, rfl, hhigh, hlow⟩
      · rintro ⟨high, low, tail, h, l, heq, hhigh, hlow⟩
        obtain ⟨rfl, rfl⟩ := List.cons.inj heq
        exact ⟨high, low, tail ++ c :: back, h, l, rfl, hhigh, hlow⟩

theorem decode_escape {high low : Char} {h l : Nat}
    (hhigh : LowerHex.digitValue high = some h)
    (hlow : LowerHex.digitValue low = some l) (rest : List Char) :
    decode ('%' :: high :: low :: rest) =
      UInt8.ofNat (16 * h + l) :: decode rest := by
  rw [decode, hhigh, hlow]

theorem decode_cons {c : Char} {rest : List Char}
    (hplain : ¬ StartsEscape (c :: rest)) :
    decode (c :: rest) = String.utf8EncodeChar c ++ decode rest := by
  conv_lhs => unfold decode
  split
  · rename_i high low rest heq
    rw [List.cons.injEq] at heq
    obtain ⟨rfl, rfl⟩ := heq
    split
    · rename_i h l hhigh hlow
      exact absurd ⟨high, low, rest, h, l, rfl, hhigh, hlow⟩ hplain
    · rfl
  · rename_i heq
    cases heq
    rfl
  · rename_i heq
    cases heq

theorem utf8_cons (c : Char) (rest : List Char) :
    JsonPretty.utf8 (c :: rest) =
      String.utf8EncodeChar c ++ JsonPretty.utf8 rest := by
  have happend := JsonPretty.utf8_append [c] rest
  have hsingle : JsonPretty.utf8 [c] = String.utf8EncodeChar c := by
    rw [JsonPretty.utf8, String.toUTF8_eq_toByteArray,
      String.toByteArray_ofList, List.utf8Encode_singleton,
      List.data_toByteArray]
  rw [← hsingle]
  exact happend

section Reserved

variable {reserved : Char → Bool}

/-- What the reserved characters are required to be: ASCII, and not those that
escapes are made of. -/
structure Suitable (reserved : Char → Bool) : Prop where
  ascii : ∀ c, reserved c = true → c.toNat < 128
  percent : reserved '%' = false
  digit : ∀ c h, LowerHex.digitValue c = some h → reserved c = false

theorem encode_cons (c : Char) (rest : List Char) :
    encode reserved (c :: rest) =
      encodeChar reserved c ++ encode reserved rest := rfl

theorem encode_cons_of_not_reserved {c : Char} (hc : reserved c = false)
    (rest : List Char) :
    encode reserved (c :: rest) = c :: encode reserved rest := by
  rw [encode_cons, encodeChar, hc]
  rfl

theorem encode_of_not_reserved {text : List Char}
    (hall : ∀ c ∈ text, reserved c = false) : encode reserved text = text := by
  induction text with
  | nil => rfl
  | cons c rest ih =>
      rw [List.forall_mem_cons] at hall
      rw [encode_cons_of_not_reserved hall.1, ih hall.2]

theorem digitValue_toUpper_digit {n : Nat} (hn : n < 16) :
    LowerHex.digitValue (LowerHex.digit n).toUpper = some n := by
  have hall : ∀ k : Fin 16,
      LowerHex.digitValue (LowerHex.digit k).toUpper = some k.val := by decide
  exact hall ⟨n, hn⟩

theorem utf8EncodeChar_of_ascii {c : Char} (hascii : c.toNat < 128) :
    String.utf8EncodeChar c = [UInt8.ofNat c.toNat] := by
  have hle : c.val.toNat ≤ 127 := Nat.le_of_lt_succ hascii
  unfold String.utf8EncodeChar
  simp only [hle, if_true]
  rfl

/-- The escape of a reserved character is read as the character. -/
theorem decode_encode_cons_of_reserved (hsuitable : Suitable reserved)
    {c : Char} (hc : reserved c = true) (rest : List Char) :
    decode (encode reserved (c :: rest)) =
      String.utf8EncodeChar c ++ decode (encode reserved rest) := by
  have hascii := hsuitable.ascii c hc
  rw [encode_cons, encodeChar, if_pos hc]
  change decode ('%' :: _ :: _ :: encode reserved rest) = _
  rw [decode_escape (digitValue_toUpper_digit (by omega))
    (digitValue_toUpper_digit (by omega)), utf8EncodeChar_of_ascii hascii,
    Nat.div_add_mod]
  rfl

/-- Encoding neither makes nor breaks an escape of the text. -/
theorem startsEscape_cons_encode_iff (hsuitable : Suitable reserved)
    {c : Char} {rest : List Char} :
    StartsEscape (c :: encode reserved rest) ↔ StartsEscape (c :: rest) := by
  have hdigit : ∀ {text tail : List Char} {high : Char} {h : Nat},
      LowerHex.digitValue high = some h →
      encode reserved text = high :: tail →
      ∃ rest, text = high :: rest ∧ encode reserved rest = tail := by
    intro text tail high h hhigh heq
    cases text with
    | nil => cases heq
    | cons d rest =>
        by_cases hd : reserved d = true
        · rw [encode_cons, encodeChar, if_pos hd] at heq
          obtain rfl := List.head_eq_of_cons_eq heq
          have hpercent : LowerHex.digitValue '%' = none := by decide
          rw [hpercent] at hhigh
          cases hhigh
        · rw [encode_cons_of_not_reserved (by simpa using hd)] at heq
          obtain ⟨rfl, htail⟩ := List.cons.inj heq
          exact ⟨rest, rfl, htail⟩
  constructor
  · rintro ⟨high, low, tail, h, l, heq, hhigh, hlow⟩
    obtain ⟨rfl, hencode⟩ := List.cons.inj heq
    obtain ⟨after, rfl, hafter⟩ := hdigit hhigh hencode
    obtain ⟨last, rfl, -⟩ := hdigit hlow hafter
    exact ⟨high, low, last, h, l, rfl, hhigh, hlow⟩
  · rintro ⟨high, low, tail, h, l, heq, hhigh, hlow⟩
    obtain ⟨rfl, rfl⟩ := List.cons.inj heq
    refine ⟨high, low, encode reserved tail, h, l, ?_, hhigh, hlow⟩
    rw [encode_cons_of_not_reserved (hsuitable.digit _ _ hhigh),
      encode_cons_of_not_reserved (hsuitable.digit _ _ hlow)]

theorem decode_encode_cons_of_not_startsEscape (hsuitable : Suitable reserved)
    {c : Char} {rest : List Char} (hplain : ¬ StartsEscape (c :: rest)) :
    decode (encode reserved (c :: rest)) =
      String.utf8EncodeChar c ++ decode (encode reserved rest) := by
  by_cases hc : reserved c = true
  · exact decode_encode_cons_of_reserved hsuitable hc rest
  · rw [encode_cons_of_not_reserved (by simpa using hc), decode_cons
      (mt (startsEscape_cons_encode_iff hsuitable).mp hplain)]

/-- A text without escapes is given back. -/
theorem decode_encode (hsuitable : Suitable reserved) {text : List Char}
    (hplain : ¬ Escaped text) :
    decode (encode reserved text) = JsonPretty.utf8 text := by
  induction text with
  | nil => rfl
  | cons c rest ih =>
      rw [escaped_cons_iff, not_or] at hplain
      rw [decode_encode_cons_of_not_startsEscape hsuitable hplain.1,
        ih hplain.2, utf8_cons]

/-- Each escape of the text is lost: the decoded text is shorter. -/
theorem length_decode_encode (hsuitable : Suitable reserved)
    (text : List Char) :
    (decode (encode reserved text)).length ≤ (JsonPretty.utf8 text).length ∧
      (Escaped text → (decode (encode reserved text)).length <
        (JsonPretty.utf8 text).length) := by
  induction hlength : text.length using Nat.strong_induction_on
    generalizing text with
  | h n ih =>
      cases text with
      | nil => exact ⟨Nat.le_refl _, fun h => absurd h not_escaped_nil⟩
      | cons c rest =>
          by_cases hstarts : StartsEscape (c :: rest)
          · obtain ⟨high, low, tail, h, l, heq, hhigh, hlow⟩ := hstarts
            obtain ⟨rfl, rfl⟩ := List.cons.inj heq
            obtain ⟨htail, -⟩ := ih tail.length
              (by simp only [List.length_cons] at hlength; omega) tail rfl
            have hsizes : ∀ d : Char,
                1 ≤ (String.utf8EncodeChar d).length := fun d =>
              List.length_pos_iff.mpr String.utf8EncodeChar_ne_nil
            have hhighSize := hsizes high
            have hlowSize := hsizes low
            have hpercentSize := hsizes '%'
            rw [encode_cons_of_not_reserved hsuitable.percent,
              encode_cons_of_not_reserved (hsuitable.digit _ _ hhigh),
              encode_cons_of_not_reserved (hsuitable.digit _ _ hlow),
              decode_escape hhigh hlow, utf8_cons, utf8_cons, utf8_cons]
            simp only [List.length_cons, List.length_append]
            exact ⟨by omega, fun _ => by omega⟩
          · obtain ⟨hle, hlt⟩ := ih rest.length
              (by simp only [List.length_cons] at hlength; omega) rest rfl
            rw [decode_encode_cons_of_not_startsEscape hsuitable hstarts,
              utf8_cons, List.length_append, List.length_append,
              escaped_cons_iff]
            refine ⟨by omega, ?_⟩
            rintro (hescape | hescape)
            · exact absurd hescape hstarts
            · have := hlt hescape
              omega

theorem decode_encode_iff (hsuitable : Suitable reserved)
    (text : List Char) :
    decode (encode reserved text) = JsonPretty.utf8 text ↔
      ¬ Escaped text := by
  constructor
  · intro heq hescaped
    have hlt := (length_decode_encode hsuitable text).2 hescaped
    rw [heq] at hlt
    exact Nat.lt_irrefl _ hlt
  · exact decode_encode hsuitable

/-- Texts without escapes are told apart by what they are encoded to. -/
theorem encode_inj (hsuitable : Suitable reserved) {left right : List Char}
    (hleft : ¬ Escaped left) (hright : ¬ Escaped right)
    (heq : encode reserved left = encode reserved right) : left = right := by
  apply JsonPretty.utf8_injective
  rw [← decode_encode hsuitable hleft, ← decode_encode hsuitable hright, heq]

end Reserved

end Percent

end Kettle
