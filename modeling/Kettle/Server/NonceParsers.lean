/-
The three readers of a nonce string: `kettle attest`, `kettle verify` and
`POST /build`.  Only the first drops dashes.
-/
import Kettle.Server.Api
import Kettle.Verify.ReportData

namespace Kettle

namespace Server

open Verify

variable (hex : Hex) (debug : String → String)

/-- The signed data carry the nonce, maybe without its trailing zeros. -/
def CarriesNonce (signedData : Bytes) (nonce : ByteVec 16) : Prop :=
  checksumLen ≤ signedData.length ∧
    (signedData.drop checksumLen).length ≤ nonceLen ∧
    Bytes.zeroPad nonceLen (signedData.drop checksumLen) = nonce.toList

/-- `verify_nonce` takes the string for the nonce: the string passes on the
signed data that carry it, and on no other. -/
def VerifyDecodes (nonceString : String) (nonce : ByteVec 16) : Prop :=
  ∀ result, (verifyNonce hex debug result nonceString).isSuccess = true ↔
    CarriesNonce result.claims.signedData nonce

/-- What was attested over the string verifies with it: the signed data may
come back without their trailing zeros, as long as the checksum is left. -/
def AttestedVerifies (nonceString : String) : Prop :=
  ∀ checksum data, attestReportData hex checksum (some nonceString) = .ok data →
    ∀ result : VerificationResult,
      (result.claims.signedData = data.toList ∨
        result.claims.signedData = Bytes.stripTrailingZeros data.toList ∧
          checksumLen ≤ result.claims.signedData.length) →
        (verifyNonce hex debug result nonceString).isSuccess = true

structure NonceParsersAgree (nonceString : String) : Prop where
  attest_verify : ∀ nonce : ByteVec 16,
    decodeNonce hex nonceString = .ok nonce ↔
      VerifyDecodes hex debug nonceString nonce
  server_attest : ∀ nonce : ByteVec 16,
    validateNonce hex nonceString = .ok nonce.toList ↔
      decodeNonce hex nonceString = .ok nonce
  attested_verifies : AttestedVerifies hex debug nonceString

def withoutDashes (nonceString : String) : String :=
  String.ofList (nonceString.toList.filter (· ≠ '-'))

/-- A dash is no hex digit. -/
def RejectsDash : Prop :=
  ∀ text bytes, '-' ∈ text.toList → hex.decode text ≠ .ok bytes

/-- There is no dash, or it does not matter. -/
def DashesHarmless (nonceString : String) : Prop :=
  '-' ∈ nonceString.toList → ∀ nonce : ByteVec 16,
    hex.decode (withoutDashes nonceString) ≠ .ok nonce.toList

variable {hex debug} {nonceString : String}

/-- What was attested carries its nonce. -/
theorem carriesNonce_reportData (checksum : ByteVec 32) (nonce : ByteVec 16) :
    CarriesNonce (reportData checksum (some nonce)).toList nonce := by
  have hchecksum : checksum.toList.length = checksumLen :=
    checksum.toList_length
  have hnonce : nonce.toList.length = nonceLen := nonce.toList_length
  have hsplit : (reportData checksum (some nonce)).toList =
      checksum.toList ++ nonce.toList := List.Vector.toList_append checksum nonce
  unfold CarriesNonce
  rw [hsplit, List.drop_left' hchecksum, Bytes.zeroPad_eq_self hnonce,
    List.length_append, hchecksum, hnonce]
  exact ⟨Nat.le_add_right _ _, le_rfl, rfl⟩

/-- So does what is left of it without its trailing zeros, unless they reach
into the checksum. -/
theorem carriesNonce_signedData {checksum : ByteVec 32} {nonce : ByteVec 16}
    (hchecksum : checksumLen ≤ (signedData checksum nonce).length) :
    CarriesNonce (signedData checksum nonce) nonce := by
  have hle := signedData_length_le checksum nonce
  refine ⟨hchecksum, ?_, (signedData_zeroPad_parts checksum nonce).2⟩
  rw [List.length_drop]
  unfold checksumLen nonceLen
  omega

theorem decodeNonce_eq_ok_iff {nonce : ByteVec 16} :
    decodeNonce hex nonceString = .ok nonce ↔
      hex.decode (withoutDashes nonceString) = .ok nonce.toList := by
  unfold decodeNonce
  rw [bind_eq_ok_iff]
  constructor
  · rintro ⟨bytes, hbytes, hnonce⟩
    split at hnonce
    · cases hnonce
      exact hbytes
    · cases hnonce
  · intro hdecode
    have hlen : nonce.toList.length = nonceLen := nonce.toList_length
    refine ⟨nonce.toList, hdecode, ?_⟩
    rw [dif_pos hlen]
    exact congrArg Except.ok (List.Vector.eq _ _ rfl)

theorem validateNonce_eq_ok_iff {nonce : ByteVec 16} :
    validateNonce hex nonceString = .ok nonce.toList ↔
      hex.decode nonceString = .ok nonce.toList := by
  unfold validateNonce
  cases hdecode : hex.decode nonceString with
  | error e => simp
  | ok bytes =>
      simp only
      split
      · rename_i hlen
        refine iff_of_false (by simp) ?_
        rintro ⟨rfl⟩
        exact hlen nonce.toList_length
      · simp only [Except.ok.injEq]

theorem verifyDecodes_iff {nonce : ByteVec 16} :
    VerifyDecodes hex debug nonceString nonce ↔
      hex.decode nonceString = .ok nonce.toList := by
  constructor
  · intro hverify
    have hcarries := carriesNonce_reportData (List.Vector.replicate 32 0) nonce
    have hsuccess := (hverify ⟨true, ⟨"", _⟩⟩).mpr hcarries
    obtain ⟨bytes, hdecode, -, -, -, htail⟩ :=
      verifyNonce_isSuccess_iff.mp hsuccess
    rw [hdecode, ← htail]
    exact congrArg Except.ok hcarries.2.2
  · intro hdecode result
    rw [verifyNonce_isSuccess_iff]
    unfold NonceHolds CarriesNonce
    rw [hdecode]
    constructor
    · rintro ⟨_, ⟨rfl⟩, -, hcarries⟩
      exact hcarries
    · intro hcarries
      exact ⟨_, rfl, nonce.toList_length, hcarries⟩

theorem withoutDashes_eq_self (hdash : '-' ∉ nonceString.toList) :
    withoutDashes nonceString = nonceString := by
  unfold withoutDashes
  rw [List.filter_eq_self.mpr, String.ofList_toList]
  intro c hc
  rw [decide_eq_true_eq]
  exact fun h => hdash (h ▸ hc)

/-- The three readers agree exactly on the strings whose dashes are
harmless. -/
theorem nonceParsersAgree_iff (hreject : RejectsDash hex)
    (debug : String → String) (nonceString : String) :
    NonceParsersAgree hex debug nonceString ↔
      DashesHarmless hex nonceString := by
  constructor
  · intro hagree hdash nonce hdecode
    have hverify := (hagree.attest_verify nonce).mp
      (decodeNonce_eq_ok_iff.mpr hdecode)
    exact hreject _ _ hdash (verifyDecodes_iff.mp hverify)
  · intro hharmless
    have hsame : ∀ nonce : ByteVec 16,
        hex.decode (withoutDashes nonceString) = .ok nonce.toList ↔
          hex.decode nonceString = .ok nonce.toList := by
      intro nonce
      by_cases hdash : '-' ∈ nonceString.toList
      · exact iff_of_false (hharmless hdash nonce) (hreject _ _ hdash)
      · rw [withoutDashes_eq_self hdash]
    constructor
    · intro nonce
      rw [decodeNonce_eq_ok_iff, verifyDecodes_iff, hsame]
    · intro nonce
      rw [decodeNonce_eq_ok_iff, validateNonce_eq_ok_iff, hsame]
    · intro checksum data hattest result hdata
      obtain ⟨nonce, hnonce, hreport⟩ := bind_eq_ok_iff.mp hattest
      cases hreport
      rw [decodeNonce_eq_ok_iff, hsame, ← @verifyDecodes_iff _ debug]
        at hnonce
      rw [hnonce result]
      rcases hdata with hdata | ⟨hdata, hlen⟩
      · rw [hdata]
        exact carriesNonce_reportData checksum nonce
      · rw [hdata] at hlen ⊢
        exact carriesNonce_signedData hlen

theorem lowerHex_rejectsDash : RejectsDash lowerHex := by
  intro text bytes hdash hdecode
  have hchars : ∀ (count : Nat) (chars : List Char), chars.length ≤ count →
      '-' ∈ chars → ∀ bytes, LowerHex.decodeChars chars ≠ .ok bytes := by
    intro count
    induction count with
    | zero =>
        intro chars hcount hmem
        rw [List.length_eq_zero_iff.mp (Nat.le_zero.mp hcount)] at hmem
        cases hmem
    | succ count ih =>
        intro chars hcount hmem bytes hok
        match chars, hok with
        | high :: low :: rest, hok =>
            unfold LowerHex.decodeChars at hok
            split at hok
            · rename_i h l hhigh hlow
              obtain ⟨later, hlater, -⟩ := bind_eq_ok_iff.mp hok
              have hrest : '-' ∈ rest := by
                rcases List.mem_cons.mp hmem with rfl | hmem
                · cases hhigh
                · rcases List.mem_cons.mp hmem with rfl | hmem
                  · cases hlow
                  · exact hmem
              simp only [List.length_cons] at hcount
              exact ih rest (by omega) hrest later hlater
            · cases hok
        | [_], hok => cases hok
        | [], _ => cases hmem
  exact hchars _ _ le_rfl hdash bytes hdecode

/-- A nonce without dashes that ends in zeros: the three readers agree on it,
and it verifies over the signed data as they come back. -/
theorem nonceParsersAgree_plain :
    NonceParsersAgree lowerHex id "550e8400e29b41d4a716446655440000" ∧
      ∃ data, attestReportData lowerHex (List.Vector.replicate 32 0xAB)
          (some "550e8400e29b41d4a716446655440000") = .ok data ∧
        (Bytes.stripTrailingZeros data.toList).length = 46 ∧
        (verifyNonce lowerHex id
          ⟨true, ⟨"", Bytes.stripTrailingZeros data.toList⟩⟩
          "550e8400e29b41d4a716446655440000").isSuccess = true := by
  have hagree := (nonceParsersAgree_iff lowerHex_rejectsDash id
    "550e8400e29b41d4a716446655440000").mpr
      fun hdash => absurd hdash (by decide)
  have hattest : attestReportData lowerHex (List.Vector.replicate 32 0xAB)
      (some "550e8400e29b41d4a716446655440000") =
        .ok (reportData (List.Vector.replicate 32 0xAB) (some
          ⟨[0x55, 0x0e, 0x84, 0x00, 0xe2, 0x9b, 0x41, 0xd4, 0xa7, 0x16, 0x44,
            0x66, 0x55, 0x44, 0x00, 0x00], rfl⟩)) := by
    decide +kernel
  refine ⟨hagree, _, hattest, by decide +kernel, ?_⟩
  exact hagree.attested_verifies _ _ hattest _
    (Or.inr ⟨rfl, by decide +kernel⟩)

/-- A UUID as `uuidgen` prints it. -/
def demoUuid : String := "550e8400-e29b-41d4-a716-446655440000"

theorem demoUuid_not_nonceParsersAgree :
    ¬ NonceParsersAgree lowerHex id demoUuid := by
  intro hagree
  have hdecoded : decodeNonce lowerHex demoUuid =
      .ok ⟨[0x55, 0x0e, 0x84, 0x00, 0xe2, 0x9b, 0x41, 0xd4, 0xa7, 0x16, 0x44,
        0x66, 0x55, 0x44, 0x00, 0x00], rfl⟩ := by decide
  have hserver := validateNonce_eq_ok_iff.mp
    ((hagree.server_attest _).mpr hdecoded)
  exact lowerHex_rejectsDash _ _ (by decide) hserver

end Server

end Kettle
