/-
The 48 bytes of report data between `attest` and `verify`: the attestation
library hands them back without their trailing zeros, and the two checks pad
and split what is left.
-/
import Kettle.Verify.Verification

namespace Kettle

namespace Verify

variable (hex : Hex) (debug : String → String)

/-- What the attestation library makes of the signed report data. -/
def signedData (checksum : ByteVec 32) (nonce : ByteVec 16) : Bytes :=
  Bytes.stripTrailingZeros (reportData checksum (some nonce)).toList

/-- Both checks accept: the checksum, and the nonce given in hex. -/
def Accepts (signed checksum nonce : Bytes) (signatureValid : Bool)
    (launchDigest : String) : Prop :=
  (compareChecksum hex debug signed checksum).isSuccess = true ∧
    (verifyNonce hex debug ⟨signatureValid, ⟨launchDigest, signed⟩⟩
      (hex.encode nonce)).isSuccess = true

variable {hex debug}

theorem reportData_toList (checksum : ByteVec 32) (nonce : ByteVec 16) :
    (reportData checksum (some nonce)).toList =
      checksum.toList ++ nonce.toList :=
  List.Vector.toList_append checksum nonce

theorem signedData_zeroPad (checksum : ByteVec 32) (nonce : ByteVec 16) :
    (signedData checksum nonce).zeroPad 48 =
      checksum.toList ++ nonce.toList := by
  rw [← reportData_toList]
  exact Bytes.zeroPad_stripTrailingZeros (List.Vector.toList_length _)

/-- Padding the signed data in two parts gives both parts of the report data
back. -/
theorem signedData_zeroPad_parts (checksum : ByteVec 32)
    (nonce : ByteVec 16) :
    (signedData checksum nonce).zeroPad 32 = checksum.toList ∧
      Bytes.zeroPad 16 ((signedData checksum nonce).drop 32) =
        nonce.toList := by
  have hwhole := signedData_zeroPad checksum nonce
  rw [show (48 : Nat) = 32 + 16 from rfl, Bytes.zeroPad_add] at hwhole
  exact List.append_inj hwhole (by simp)

theorem signedData_length_le (checksum : ByteVec 32) (nonce : ByteVec 16) :
    (signedData checksum nonce).length ≤ 48 := by
  have hle := Bytes.length_stripTrailingZeros_le
    (reportData checksum (some nonce)).toList
  simpa [signedData] using hle

/-- Stripping eats into the checksum exactly when the nonce is all zero and
the checksum ends in a zero byte. -/
theorem signedData_length_lt_iff (checksum : ByteVec 32)
    (nonce : ByteVec 16) :
    (signedData checksum nonce).length < 32 ↔
      nonce = List.Vector.replicate 16 0 ∧ checksum.get 31 = 0 := by
  have hdrop : checksum.toList.drop 31 = [checksum.get 31] := by
    have hlen : checksum.toList.length = 32 := checksum.toList_length
    rw [List.drop_eq_getElem_cons (by omega),
      List.drop_eq_nil_of_le (by omega)]
    rfl
  have hzero : nonce = List.Vector.replicate 16 0 ↔
      ∀ b ∈ nonce.toList, b = 0 := by
    constructor
    · rintro rfl b hb
      exact List.eq_of_mem_replicate hb
    · intro hall
      apply List.Vector.eq
      exact List.eq_replicate_iff.mpr ⟨nonce.toList_length, hall⟩
  rw [show ((signedData checksum nonce).length < 32) =
    ((signedData checksum nonce).length ≤ 31) from propext Nat.lt_succ_iff]
  rw [signedData, Bytes.length_stripTrailingZeros_le_iff, reportData_toList,
    List.drop_append_of_le_length (by simp), hdrop, hzero]
  simp only [List.mem_append, List.mem_singleton]
  constructor
  · exact fun hall => ⟨fun b hb => hall b (Or.inr hb), hall _ (Or.inl rfl)⟩
  · rintro ⟨hnonce, hlast⟩ b (rfl | hb)
    · exact hlast
    · exact hnonce b hb

/-- What was attested verifies, except that `verify_nonce` rejects an all-zero
nonce after a checksum that ends in a zero byte. -/
theorem accepts_signedData_iff (hex : Hex) (debug : String → String)
    (checksum : ByteVec 32) (nonce : ByteVec 16) (signatureValid : Bool)
    (launchDigest : String) :
    Accepts hex debug (signedData checksum nonce) checksum.toList nonce.toList
        signatureValid launchDigest ↔
      nonce ≠ List.Vector.replicate 16 0 ∨ checksum.get 31 ≠ 0 := by
  obtain ⟨hfront, hback⟩ := signedData_zeroPad_parts checksum nonce
  have hle := signedData_length_le checksum nonce
  have hshort := signedData_length_lt_iff checksum nonce
  unfold Accepts
  rw [compareChecksum_isSuccess_iff, verifyNonce_encode_isSuccess_iff]
  simp only [checksumLen, nonceLen, hfront, hback, List.Vector.toList_length,
    true_and, and_true]
  rw [← not_and_or, ← hshort]
  omega

/-- A checksum that ends in a zero byte. -/
def zeroTailedChecksum : ByteVec 32 :=
  ⟨List.replicate 31 0xAB ++ [0], rfl⟩

theorem not_accepts_zero_nonce :
    ¬ Accepts lowerHex id
        (signedData zeroTailedChecksum (List.Vector.replicate 16 0))
        zeroTailedChecksum.toList (List.replicate 16 0) true "" := by
  have hshort : (signedData zeroTailedChecksum
      (List.Vector.replicate 16 0)).length < 32 :=
    (signedData_length_lt_iff _ _).mpr ⟨rfl, rfl⟩
  rintro ⟨-, hnonce⟩
  obtain ⟨-, hsplit, -⟩ := verifyNonce_encode_isSuccess_iff.mp hnonce
  exact absurd hsplit (Nat.not_le.mpr hshort)

/-- The signed data determines what both checks accept: at most one checksum
and nonce, which are its 48 zero-extended bytes. -/
theorem accepts_unique (hex : Hex) (debug : String → String) (signed : Bytes)
    (signatureValid : Bool) (launchDigest : String) :
    (∀ checksum nonce,
      Accepts hex debug signed checksum nonce signatureValid launchDigest →
        signed.length ≤ 48 ∧ signed.zeroPad 48 = checksum ++ nonce) ∧
    (∀ checksum nonce checksum' nonce',
      Accepts hex debug signed checksum nonce signatureValid launchDigest →
      Accepts hex debug signed checksum' nonce' signatureValid launchDigest →
        checksum = checksum' ∧ nonce = nonce') ∧
    (∀ expected expected',
      (compareChecksum hex debug signed expected).isSuccess = true →
      (compareChecksum hex debug signed expected').isSuccess = true →
        expected = expected') := by
  have hparts : ∀ checksum nonce,
      Accepts hex debug signed checksum nonce signatureValid launchDigest →
        signed.length ≤ 48 ∧ signed.zeroPad 32 = checksum ∧
          Bytes.zeroPad 16 (signed.drop 32) = nonce := by
    rintro checksum nonce ⟨hchecksum, hnonce⟩
    obtain ⟨-, hfront⟩ := compareChecksum_isSuccess_iff.mp hchecksum
    obtain ⟨-, -, hle, hback⟩ := verifyNonce_encode_isSuccess_iff.mp hnonce
    exact ⟨hle, hfront, hback⟩
  refine ⟨?_, ?_, ?_⟩
  · intro checksum nonce haccepts
    obtain ⟨hle, hfront, hback⟩ := hparts checksum nonce haccepts
    refine ⟨hle, ?_⟩
    rw [show (48 : Nat) = 32 + 16 from rfl, Bytes.zeroPad_add, hfront, hback]
  · intro checksum nonce checksum' nonce' haccepts haccepts'
    obtain ⟨-, hfront, hback⟩ := hparts checksum nonce haccepts
    obtain ⟨-, hfront', hback'⟩ := hparts checksum' nonce' haccepts'
    exact ⟨hfront.symm.trans hfront', hback.symm.trans hback'⟩
  · intro expected expected' haccept haccept'
    obtain ⟨-, hfront⟩ := compareChecksum_isSuccess_iff.mp haccept
    obtain ⟨-, hfront'⟩ := compareChecksum_isSuccess_iff.mp haccept'
    exact hfront.symm.trans hfront'

/-- A signed nonce whose last bytes were stripped still binds all 16. -/
theorem accepts_unique_stripped :
    ∀ checksum nonce,
      Accepts lowerHex id (List.replicate 32 0xAB ++ [0xCD]) checksum nonce
          true "" →
        checksum = List.replicate 32 0xAB ∧
          nonce = 0xCD :: List.replicate 15 0 := by
  intro checksum nonce haccepts
  have hstripped : Accepts lowerHex id (List.replicate 32 0xAB ++ [0xCD])
      (List.replicate 32 0xAB) (0xCD :: List.replicate 15 0) true "" := by
    unfold Accepts
    rw [compareChecksum_isSuccess_iff, verifyNonce_encode_isSuccess_iff]
    decide
  exact (accepts_unique lowerHex id (List.replicate 32 0xAB ++ [0xCD]) true
    "").2.1 checksum nonce _ _ haccepts hstripped

end Verify

end Kettle
