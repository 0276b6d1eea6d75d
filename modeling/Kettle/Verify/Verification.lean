/-
What every check of `kettle verify` reports, and the two checks that read the
report data of the attestation.
-/
import Kettle.Lib.Hex

namespace Kettle

namespace Verify

inductive Verification where
  | success (message : String)
  | failure (message details : String)
deriving DecidableEq, Repr

/-- `matches!(r, Verification::Success { .. })`. -/
def Verification.isSuccess : Verification → Bool
  | .success _ => true
  | .failure _ _ => false

/-- The claims that verification reads. -/
structure Claims where
  launchDigest : String
  signedData : Bytes
deriving DecidableEq, Repr

/-- The attestation library's verdict. -/
structure VerificationResult where
  signatureValid : Bool
  claims : Claims
deriving DecidableEq, Repr

def checksumLen : Nat := 32

def nonceLen : Nat := 16

/-- The report data that `attest` asks the hardware to sign: the provenance
checksum and, in the last 16 bytes, the nonce if there is one. -/
def reportData (checksum : ByteVec 32) (nonce : Option (ByteVec 16)) :
    ByteVec 48 :=
  checksum ++ (nonce.getD (List.Vector.replicate 16 0))

-- `debug` is the `{:?}` form of a string
variable (hex : Hex) (debug : String → String)

/-- Dashes are dropped, so that a UUID is a nonce. -/
def decodeNonce (nonceString : String) : Except String (ByteVec 16) := do
  let bytes ← hex.decode (String.ofList (nonceString.toList.filter (· ≠ '-')))
  if hlen : bytes.length = nonceLen then .ok ⟨bytes, hlen⟩
  else
    .error s!"Nonce {nonceString} must be exactly 16 bytes (32 hex chars); got {bytes.length} bytes"

/-- The report data of `attest_with_sink` for its `--nonce` argument. -/
def attestReportData (checksum : ByteVec 32) :
    Option String → Except String (ByteVec 48)
  | none => .ok (reportData checksum none)
  | some nonceString => do
      let nonce ← decodeNonce hex nonceString
      .ok (reportData checksum (some nonce))

def verifyNonce (verificationResult : VerificationResult)
    (nonceString : String) : Verification :=
  match hex.decode nonceString with
  | .error e =>
      .failure "Invalid nonce hex"
        s!"Could not decode nonce {debug nonceString} as hex: {e}"
  | .ok nonce =>
      if nonce.length ≠ nonceLen then
        .failure s!"Nonce must be exactly {nonceLen} bytes"
          s!"Expected {nonceLen} bytes ({nonceLen * 2} hex chars); got {nonce.length} bytes"
      else
        let signedData := verificationResult.claims.signedData
        -- `split_at_checked(32)`
        if checksumLen ≤ signedData.length then
          let signedNonce := signedData.drop checksumLen
          if signedNonce.length ≤ nonceLen ∧
              Bytes.zeroPad nonceLen signedNonce = nonce then
            .success "Nonce matches attestation"
          else
            .failure "Nonce mismatch"
              s!"Expected attested nonce {debug (hex.encode nonce)}\nActual value was        {debug (hex.encode signedNonce)}"
        else
          .failure "Nonce missing from attestation"
            s!"No nonce preset in attestation signed data {debug (hex.encode signedData)}"

def compareChecksum (signedData expected : Bytes) : Verification :=
  if expected.length ≠ checksumLen then
    .failure "Provenance checksum invalid"
      s!"Expected provenance.json checksum {debug (hex.encode expected)} to be 32 bytes"
  else
    let signedChecksum := signedData.zeroPad checksumLen
    if signedChecksum = expected then
      .success "Provenance checksum match"
    else
      .failure "Provenance checksum mismatch"
        s!"Expected provenance.json checksum {debug (hex.encode expected)}\nActual attested checksum          {debug (hex.encode signedChecksum)}"

variable {hex debug}

theorem compareChecksum_isSuccess_iff {signedData expected : Bytes} :
    (compareChecksum hex debug signedData expected).isSuccess = true ↔
      expected.length = checksumLen ∧
        signedData.zeroPad checksumLen = expected := by
  unfold compareChecksum
  by_cases hlen : expected.length = checksumLen
  · rw [if_neg (by simpa using hlen)]
    by_cases hmatch : signedData.zeroPad checksumLen = expected
    · simp [hmatch, hlen, Verification.isSuccess]
    · simp [hmatch, Verification.isSuccess]
  · simp [hlen, Verification.isSuccess]

/-- The string is the hex of 16 bytes, and they are the zero-extended tail of
the signed data. -/
def NonceHolds (hex : Hex) (signedData : Bytes) (nonceString : String) :
    Prop :=
  ∃ nonce, hex.decode nonceString = .ok nonce ∧ nonce.length = nonceLen ∧
    checksumLen ≤ signedData.length ∧
    (signedData.drop checksumLen).length ≤ nonceLen ∧
    Bytes.zeroPad nonceLen (signedData.drop checksumLen) = nonce

theorem verifyNonce_isSuccess_iff {result : VerificationResult}
    {nonceString : String} :
    (verifyNonce hex debug result nonceString).isSuccess = true ↔
      NonceHolds hex result.claims.signedData nonceString := by
  unfold NonceHolds
  cases hdecode : hex.decode nonceString with
  | error message =>
      unfold verifyNonce
      simp [hdecode, Verification.isSuccess]
  | ok nonce =>
      unfold verifyNonce
      simp only [hdecode]
      by_cases hlen : nonce.length = nonceLen
      · by_cases hsplit : checksumLen ≤ result.claims.signedData.length
        · rw [if_neg (not_not.mpr hlen), if_pos hsplit]
          split
          · rename_i hmatch
            refine iff_of_true rfl ⟨nonce, rfl, hlen, hsplit, hmatch⟩
          · rename_i hmatch
            refine iff_of_false Bool.false_ne_true ?_
            rintro ⟨other, hother, -, -, hrest⟩
            cases hother
            exact hmatch hrest
        · rw [if_neg (not_not.mpr hlen), if_neg hsplit]
          refine iff_of_false Bool.false_ne_true ?_
          rintro ⟨other, -, -, hother, -⟩
          exact hsplit hother
      · rw [if_pos hlen]
        refine iff_of_false Bool.false_ne_true ?_
        rintro ⟨other, hother, hotherLen, -⟩
        cases hother
        exact hlen hotherLen

/-- A nonce given as the hex of some bytes is accepted exactly when there are
16 of them and they are the zero-extended tail of the signed data. -/
theorem verifyNonce_encode_isSuccess_iff {result : VerificationResult}
    {nonce : Bytes} :
    (verifyNonce hex debug result (hex.encode nonce)).isSuccess = true ↔
      nonce.length = nonceLen ∧
        checksumLen ≤ result.claims.signedData.length ∧
        result.claims.signedData.length ≤ checksumLen + nonceLen ∧
        Bytes.zeroPad nonceLen (result.claims.signedData.drop checksumLen) =
          nonce := by
  rw [verifyNonce_isSuccess_iff]
  unfold NonceHolds
  rw [hex.decode_encode, List.length_drop]
  constructor
  · rintro ⟨_, ⟨rfl⟩, hlen, hsplit, htail, hsame⟩
    exact ⟨hlen, hsplit, by omega, hsame⟩
  · rintro ⟨hlen, hsplit, htotal, hsame⟩
    exact ⟨nonce, rfl, hlen, hsplit, by omega, hsame⟩

end Verify

end Kettle
