/-
The `hex` crate: a parameter with the one law that callers rely on, and an
instance that computes.
-/
import Kettle.Lib.Bytes

namespace Kettle

/-- `hex::encode` and `hex::decode`. -/
structure Hex where
  encode : Bytes → String
  decode : String → Except String Bytes
  decode_encode : ∀ bytes, decode (encode bytes) = .ok bytes

theorem Hex.encode_inj (hex : Hex) {left right : Bytes}
    (heq : hex.encode left = hex.encode right) : left = right := by
  have hdecoded := congrArg hex.decode heq
  rw [hex.decode_encode, hex.decode_encode] at hdecoded
  exact Except.ok.inj hdecoded

namespace LowerHex

def digit (n : Nat) : Char :=
  if n < 10 then Char.ofNat (48 + n) else Char.ofNat (87 + n)

def digitValue (c : Char) : Option Nat :=
  if '0' ≤ c ∧ c ≤ '9' then some (c.toNat - 48)
  else if 'a' ≤ c ∧ c ≤ 'f' then some (c.toNat - 87)
  else if 'A' ≤ c ∧ c ≤ 'F' then some (c.toNat - 55)
  else none

def encodeByte (b : UInt8) : List Char :=
  [digit (b.toNat / 16), digit (b.toNat % 16)]

def decodeChars : List Char → Except String Bytes
  | [] => .ok []
  | [_] => .error "Odd number of digits"
  | high :: low :: rest =>
      match digitValue high, digitValue low with
      | some h, some l => do
          let bytes ← decodeChars rest
          .ok (UInt8.ofNat (16 * h + l) :: bytes)
      | _, _ => .error "Invalid character"

theorem digitValue_digit {n : Nat} (hn : n < 16) :
    digitValue (digit n) = some n := by
  have hall : ∀ k : Fin 16, digitValue (digit k) = some k.val := by decide
  exact hall ⟨n, hn⟩

theorem decodeChars_encodeByte (b : UInt8) (rest : List Char) :
    decodeChars (encodeByte b ++ rest) =
      (decodeChars rest).map (b :: ·) := by
  have hb : b.toNat < 256 := b.toNat_lt
  have hvalue : UInt8.ofNat (16 * (b.toNat / 16) + b.toNat % 16) = b := by
    rw [Nat.div_add_mod]
    exact UInt8.ofNat_toNat
  simp only [encodeByte, List.cons_append, List.nil_append, decodeChars]
  rw [digitValue_digit (by omega), digitValue_digit (by omega)]
  simp only [hvalue]
  cases decodeChars rest <;> rfl

theorem decodeChars_flatMap (bytes : Bytes) :
    decodeChars (bytes.flatMap encodeByte) = .ok bytes := by
  induction bytes with
  | nil => rfl
  | cons b rest ih =>
      rw [List.flatMap_cons, decodeChars_encodeByte, ih]
      rfl

end LowerHex

/-- Two lower-case digits a byte, high half first. -/
def lowerHex : Hex where
  encode bytes := String.ofList (bytes.flatMap LowerHex.encodeByte)
  decode text := LowerHex.decodeChars text.toList
  decode_encode bytes := by
    rw [String.toList_ofList]
    exact LowerHex.decodeChars_flatMap bytes

end Kettle
