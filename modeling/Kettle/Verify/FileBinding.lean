/-
What the attested checksum says about `provenance.json`.  It is the hash of
what the file is read as and written again, so it binds the provenance and not
the bytes.
-/
import Kettle.Lib.JsonPretty
import Kettle.ProvenanceJson
import Kettle.Verify.Verification
import Mathlib.Data.Set.Function

namespace Kettle

namespace Verify

variable (hex : Hex) (debug : String → String) (text : JsonText)
  (sha256 : Bytes → ByteVec 32)

/-- The checksum that `attest` puts into the report data, and that `verify`
expects there. -/
def fileChecksum (bytes : Bytes) : Option (ByteVec 32) :=
  (Provenance.fromJson text bytes).map fun provenance =>
    provenance.checksum text sha256

def verifyProvenance (verificationResult : VerificationResult)
    (provenance : Provenance) : Verification :=
  compareChecksum hex debug verificationResult.claims.signedData
    (provenance.checksum text sha256).toList

/-- The file passes: it is a provenance, and the check of its checksum
succeeds. -/
def AcceptsFile (verificationResult : VerificationResult) (bytes : Bytes) :
    Prop :=
  ∃ provenance, Provenance.fromJson text bytes = some provenance ∧
    (verifyProvenance hex debug text sha256 verificationResult
      provenance).isSuccess = true

/-- The texts that are hashed for the files. -/
def hashedTexts (files : Set Bytes) : Set Bytes :=
  {canonical | ∃ bytes ∈ files, ∃ provenance,
    Provenance.fromJson text bytes = some provenance ∧
    canonical = provenance.toJson text}

variable {hex debug text sha256}

def demoProvenance (commit : String) : Provenance where
  type := "https://in-toto.io/Statement/v1"
  predicateType := "https://slsa.dev/provenance/v1"
  subject := []
  predicate := {
    buildDefinition := {
      buildType := "https://confidential.ai/attested-builds/v1"
      externalParameters := {
        buildCommand := "cargo build --locked --release"
        source := ⟨⟨commit, commit⟩, ""⟩ }
      internalParameters := {
        evaluation := none
        flakeInputs := none
        lockfileHash := .sha256 "00"
        toolchain := .rust ⟨.sha256 "01", "cargo 1.90.0"⟩
          ⟨.sha256 "02", "rustc 1.90.0"⟩ ⟨.sha256 "03", "0.1.0"⟩ }
      resolvedDependencies := [] }
    runDetails := {
      builder := "https://confidential.ai/attested-builds"
      byproducts := []
      metadata := ⟨"build-20250101-120000-0badcafe",
        "2025-01-01T12:00:00.000000+00:00", none⟩ } }

theorem demoProvenance_integerCounts (commit : String) :
    (demoProvenance commit).IntegerCounts := by
  intro evaluation heval
  cases heval

/-- What is written is read back, so the checksum determines the provenance
and is the one that is computed from the written file. -/
theorem provenance_canonical {left right : Provenance}
    (hleft : left.IntegerCounts)
    (hfree : Set.InjOn sha256 {left.toJson text, right.toJson text}) :
    Provenance.fromJson text (left.toJson text) = some left ∧
      (left.checksum text sha256 = right.checksum text sha256 →
        left = right) ∧
      fileChecksum text sha256 (left.toJson text) =
        some (left.checksum text sha256) := by
  have hread : Provenance.fromJson text (left.toJson text) = some left :=
    Provenance.fromJson_toJson hleft
  refine ⟨hread, ?_, ?_⟩
  · intro hchecksum
    exact Provenance.toJson_injective
      (hfree (Set.mem_insert _ _) (Set.mem_insert_of_mem _ rfl) hchecksum)
  · unfold fileChecksum
    rw [hread]
    rfl

theorem verifyProvenance_isSuccess_iff {result : VerificationResult}
    {provenance : Provenance} :
    (verifyProvenance hex debug text sha256 result provenance).isSuccess =
        true ↔
      result.claims.signedData.zeroPad checksumLen =
        (provenance.checksum text sha256).toList := by
  unfold verifyProvenance
  rw [compareChecksum_isSuccess_iff]
  simp [checksumLen]

/-- A hash that keeps one text apart from all others. -/
def singleOut (one : Bytes) (bytes : Bytes) : ByteVec 32 :=
  if bytes = one then List.Vector.replicate 32 0
  else List.Vector.replicate 32 1

theorem singleOut_injOn (one other : Bytes) :
    Set.InjOn (singleOut one) {one, other} := by
  have hdigests : (List.Vector.replicate 32 0 : ByteVec 32) ≠
      List.Vector.replicate 32 1 := by decide
  intro a ha b hb heq
  unfold singleOut at heq
  rcases ha with rfl | rfl <;> rcases hb with rfl | rfl
  · rfl
  · by_contra hne
    rw [if_pos rfl, if_neg (Ne.symm hne)] at heq
    exact hdigests heq
  · by_contra hne
    rw [if_pos rfl, if_neg hne] at heq
    exact hdigests heq.symm
  · rfl

/-- A build with nix, with two artifacts, two fetches and the counts. -/
def flakeProvenance (commit : String) : Provenance where
  type := "https://in-toto.io/Statement/v1"
  predicateType := "https://slsa.dev/provenance/v1"
  subject := [⟨.sha256 "04", "bin/rg"⟩, ⟨.sha256 "05", "share/rg.1"⟩]
  predicate := {
    buildDefinition := {
      buildType := "https://confidential.ai/attested-builds/v1"
      externalParameters := {
        buildCommand := "nix build"
        source := ⟨⟨commit, commit⟩, "https://example.com/rg.git"⟩ }
      internalParameters := {
        evaluation := some ⟨.integer 41 (by decide), .integer 3 (by decide)⟩
        flakeInputs := some [⟨"nixpkgs", "sha256-AAAA"⟩, ⟨"utils", ""⟩]
        lockfileHash := .sha256 "00"
        toolchain := .nix ⟨.sha256 "01", "nix 2.31.0"⟩
          ⟨.sha256 "02", "0.1.0"⟩ }
      resolvedDependencies := [
        ⟨some ⟨"/nix/store/rg.drv", some "flat",
            some "https://example.com/rg.tar.gz", none⟩,
          .sha256 "06", "rg", "pkg:nix-fetch/rg?hash=sha256:06"⟩,
        ⟨some ⟨"/nix/store/gcc.drv", none, none,
            some "https://example.com/gcc-13.tar.xz"⟩,
          .sha512 "07", "gcc-13", "pkg:nix-fetch/gcc-13?hash=sha512:07"⟩,
        ⟨none, .gitCommit "08", "dep", "pkg:cargo/dep@1.0.0"⟩] }
    runDetails := {
      builder := "https://confidential.ai/attested-builds"
      byproducts := [⟨.sha256 "09", "input_merkle_root"⟩]
      metadata := ⟨"build-20250101-120000-0badcafe",
        "2025-01-01T12:00:00.000000+00:00",
        some "2025-01-01T12:01:00.000000+00:00"⟩ } }

theorem flakeProvenance_integerCounts (commit : String) :
    (flakeProvenance commit).IntegerCounts := by
  rintro evaluation ⟨⟩
  exact ⟨rfl, rfl⟩

theorem provenance_canonical_demo :
    Provenance.fromJson JsonPretty.text
        ((flakeProvenance "9fceb02d").toJson JsonPretty.text) =
        some (flakeProvenance "9fceb02d") ∧
      (flakeProvenance "9fceb02d").checksum JsonPretty.text
          (singleOut ((flakeProvenance "9fceb02d").toJson JsonPretty.text)) ≠
        (flakeProvenance "4b825dc6").checksum JsonPretty.text
          (singleOut
            ((flakeProvenance "9fceb02d").toJson JsonPretty.text)) ∧
      fileChecksum JsonPretty.text
          (singleOut ((flakeProvenance "9fceb02d").toJson JsonPretty.text))
          ((flakeProvenance "9fceb02d").toJson JsonPretty.text) =
        some ((flakeProvenance "9fceb02d").checksum JsonPretty.text
          (singleOut
            ((flakeProvenance "9fceb02d").toJson JsonPretty.text))) := by
  obtain ⟨hread, hsame, hfile⟩ := provenance_canonical
    (flakeProvenance_integerCounts "9fceb02d")
    (singleOut_injOn _ ((flakeProvenance "4b825dc6").toJson JsonPretty.text))
  refine ⟨hread, ?_, hfile⟩
  intro hchecksum
  exact absurd (congrArg Provenance.gitCommit (hsame hchecksum)) (by decide)

/-- Beside a file that is accepted, exactly the files that are read as the
same provenance are. -/
theorem acceptsFile_iff_same_provenance {result : VerificationResult}
    {accepted other : Bytes}
    (hfree : Set.InjOn sha256 (hashedTexts text {accepted, other}))
    (haccepted : AcceptsFile hex debug text sha256 result accepted) :
    AcceptsFile hex debug text sha256 result other ↔
      Provenance.fromJson text other = Provenance.fromJson text accepted := by
  obtain ⟨provenance, hread, hsuccess⟩ := haccepted
  rw [verifyProvenance_isSuccess_iff] at hsuccess
  constructor
  · rintro ⟨found, hfound, hfoundSuccess⟩
    rw [verifyProvenance_isSuccess_iff, hsuccess] at hfoundSuccess
    have hchecksum : provenance.checksum text sha256 =
        found.checksum text sha256 := List.Vector.eq _ _ hfoundSuccess
    have htext := hfree ⟨accepted, Set.mem_insert _ _, provenance, hread, rfl⟩
      ⟨other, Set.mem_insert_of_mem _ rfl, found, hfound, rfl⟩ hchecksum
    rw [hfound, hread, Provenance.toJson_injective htext]
  · intro hsame
    exact ⟨provenance, hsame.trans hread,
      verifyProvenance_isSuccess_iff.mpr hsuccess⟩

/-- The file of a provenance, with a new line at its end or without. -/
noncomputable def printed (provenance : Provenance) (line : Bool) : Bytes :=
  provenance.toJson JsonPretty.text ++ if line then [0x0a] else []

/-- The new line is not seen. -/
theorem fromJson_printed {provenance : Provenance}
    (hcounts : provenance.IntegerCounts) (line : Bool) :
    Provenance.fromJson JsonPretty.text (printed provenance line) =
      some provenance := by
  cases line with
  | false =>
      unfold printed
      rw [if_neg Bool.false_ne_true, List.append_nil]
      exact Provenance.fromJson_toJson hcounts
  | true =>
      have hparse := JsonPretty.parse_render_newline
        (Provenance.plain_toJsonValue hcounts 120)
      have hbind : Provenance.fromJson JsonPretty.text
          (printed provenance true) =
          (JsonPretty.parse (JsonPretty.render provenance.toJsonValue ++
            [0x0a])).bind Provenance.ofJsonValue := rfl
      rw [hbind, hparse, Option.bind_some, Provenance.ofJsonValue_toJsonValue]

theorem hashedTexts_printed {provenance : Provenance}
    (hcounts : provenance.IntegerCounts) (sha256 : Bytes → ByteVec 32) :
    Set.InjOn sha256 (hashedTexts JsonPretty.text
      {printed provenance false, printed provenance true}) := by
  have honly : ∀ canonical ∈ hashedTexts JsonPretty.text
      {printed provenance false, printed provenance true},
      canonical = provenance.toJson JsonPretty.text := by
    rintro canonical ⟨bytes, hbytes, found, hread, rfl⟩
    have hline : ∃ line, bytes = printed provenance line := by
      rcases hbytes with hbytes | hbytes
      · exact ⟨false, hbytes⟩
      · exact ⟨true, hbytes⟩
    obtain ⟨line, rfl⟩ := hline
    rw [fromJson_printed hcounts] at hread
    cases hread
    rfl
  intro a ha b hb _
  rw [honly a ha, honly b hb]

/-- Evidence over the checksum of a provenance. -/
noncomputable def evidenceFor (sha256 : Bytes → ByteVec 32)
    (provenance : Provenance) : VerificationResult :=
  ⟨true, ⟨"", (provenance.checksum JsonPretty.text sha256).toList⟩⟩

theorem acceptsFile_printed {provenance : Provenance}
    (hcounts : provenance.IntegerCounts) (sha256 : Bytes → ByteVec 32)
    (line : Bool) :
    AcceptsFile lowerHex id JsonPretty.text sha256
      (evidenceFor sha256 provenance) (printed provenance line) :=
  ⟨provenance, fromJson_printed hcounts line,
    verifyProvenance_isSuccess_iff.mpr
      (Bytes.zeroPad_eq_self (List.Vector.toList_length _))⟩

theorem acceptsFile_iff_same_provenance_demo :
    AcceptsFile lowerHex id JsonPretty.text (Bytes.zeroPadVec 32)
        (evidenceFor (Bytes.zeroPadVec 32) (demoProvenance "9fceb02d"))
        (printed (demoProvenance "9fceb02d") true) ↔
      Provenance.fromJson JsonPretty.text
          (printed (demoProvenance "9fceb02d") true) =
        Provenance.fromJson JsonPretty.text
          (printed (demoProvenance "9fceb02d") false) :=
  acceptsFile_iff_same_provenance
    (hashedTexts_printed (demoProvenance_integerCounts _) _)
    (acceptsFile_printed (demoProvenance_integerCounts _) _ false)

/-- Two files, one evidence. -/
theorem acceptsFile_two_files :
    ∃ (sha256 : Bytes → ByteVec 32) (result : VerificationResult)
      (one other : Bytes),
      Set.InjOn sha256 (hashedTexts JsonPretty.text {one, other}) ∧
      one ≠ other ∧
      AcceptsFile lowerHex id JsonPretty.text sha256 result one ∧
      AcceptsFile lowerHex id JsonPretty.text sha256 result other := by
  have hcounts := demoProvenance_integerCounts "9fceb02d"
  refine ⟨Bytes.zeroPadVec 32,
    evidenceFor (Bytes.zeroPadVec 32) (demoProvenance "9fceb02d"),
    printed (demoProvenance "9fceb02d") false,
    printed (demoProvenance "9fceb02d") true,
    hashedTexts_printed hcounts _, ?_,
    acceptsFile_printed hcounts _ false, acceptsFile_printed hcounts _ true⟩
  simp [printed]

end Verify

end Kettle
