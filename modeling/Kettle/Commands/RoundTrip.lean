/-
Attest, then verify.  A build that was attested over a nonce is checked
against that nonce, on files that nothing else has changed: what the checks
find, for every toolchain.
-/
import Kettle.Commands.Copies
import Kettle.Commands.Evidence
import Kettle.Server.NonceParsers
import Kettle.Verify.ReportData

namespace Kettle

namespace Commands

open Toolchain
open Verify (Verifier VerifyArgs VerificationResult)

section Found

/-- The archive that pnpm's artifacts are put into. -/
def pnpmCollector (host : Host) : Collector where
  found _ files path :=
    match host.tar files path "dist" with
    | .error _ => []
    | .ok archive => [⟨path, .text "dist.tar.gz", ⟨false, archive⟩⟩]
  dirs _ _ _ := []
  linked := FileSystem.isLink

/-- A file that is written in place, and can be read there. -/
theorem copies_of_read {files written : FileSystem} {dest : Path} {file : File}
    (hok : files.writeFile dest file = .ok written)
    (hread : written.isDenied dest = false) :
    files.Copies dest file (files.isLink dest) written where
  copy := FileSystem.fileAt_writeFile_self hok
  elsewhere _ hother := FileSystem.fileAt_writeFile_of_other hok hother
  isDir := FileSystem.isDir_writeFile hok
  allowed := hread
  isDenied other _ := by
    rw [FileSystem.isDenied, FileSystem.marks_writeFile hok,
      FileSystem.isDenied]
  linked := by
    rw [FileSystem.isLink, FileSystem.linkTarget?_of_marks
      (FileSystem.marks_writeFile hok), FileSystem.isLink]
  isLink other _ := by
    rw [FileSystem.isLink, FileSystem.linkTarget?_of_marks
      (FileSystem.marks_writeFile hok), FileSystem.isLink]
  marks := by
    rw [FileSystem.marks_writeFile hok]
    exact List.Subset.refl _

theorem pnpm_collects (host : Host) :
    Collects (PnpmInputs.driver host) host (pnpmCollector host) where
  staged := by
    intro output files path artifacts after hok hapart
    unfold PnpmInputs.driver PnpmInputs.collectArtifacts at hok
    dsimp only at hok
    split at hok
    · cases hok
    · split at hok
      · cases hok
      · obtain ⟨archive, harchive, hrest⟩ := bind_eq_ok_iff.mp hok
        obtain ⟨written, hwritten, hrest⟩ := bind_eq_ok_iff.mp hrest
        obtain ⟨bytes, hbytes, hresult⟩ := bind_eq_ok_iff.mp hrest
        cases hresult
        have hfound : (pnpmCollector host).found output files path =
            [⟨path, .text "dist.tar.gz", ⟨false, archive⟩⟩] := by
          unfold pnpmCollector
          dsimp only
          rw [harchive]
        have hread : bytes = archive := by
          obtain ⟨file, hfile, rfl⟩ := FileSystem.fileAt_of_read hbytes
          rw [FileSystem.fileAt_writeFile_self hwritten,
            Option.some.injEq] at hfile
          rw [← hfile]
        have hplaces := hapart.places
        rw [hfound] at hplaces ⊢
        subst hread
        exact Staged.cons isLink_toldByEntry hplaces
          (copies_of_read hwritten (FileSystem.read_eq_ok_iff.mp hbytes).2)
          Staged.nil
  integerCounts _ _ _ _ hevaluation := by cases hevaluation

/-- What a toolchain collects. -/
def ProjectToolchain.collector (host : Host) : ProjectToolchain → Collector
  | .cargo => cargoCollector
  | .nix => nixCollector host
  | .pnpm => pnpmCollector host

theorem ProjectToolchain.collects (host : Host)
    (toolchain : ProjectToolchain) :
    Collects (toolchain.driver host) host (toolchain.collector host) := by
  cases toolchain with
  | cargo => exact cargo_collects host
  | nix => exact nix_collects host
  | pnpm => exact pnpm_collects host

end Found

section Evidence

variable {v : Verifier} {host : Host} {path : Path}
  {provenance : Provenance}

/-- What the attestation library is documented to make of its own evidence:
the signature is valid, and the report data lacks its trailing zeros. -/
def Genuine (v : Verifier) (host : Host) (attester : Attester)
    (launchDigest : String) : Prop :=
  ∀ reportData evidence, evidenceOver host attester reportData = .ok evidence →
    v.attestationVerify evidence = .ok ⟨true, ⟨launchDigest,
      Bytes.stripTrailingZeros reportData.toList⟩⟩

/-- The evidence is a copy of no artifact, unless one has its name and the
evidence is no link. -/
theorem copyAt_evidence {written final : FileSystem} {evidence : Bytes}
    (hwritten : written.writeFile (evidenceFile path) ⟨false, evidence⟩ =
      .ok final)
    (hapart : written.Apart [outputDir path, artifactsDir path]
      (evidenceFile path))
    {text : String} (hname : text = "evidence.json" →
      written.isLink (evidenceFile path) = true) (copy : Path) :
    (CopyAt path final text copy ↔ CopyAt path written text copy) ∧
      (CopyAt path written text copy →
        final.read copy = written.read copy) := by
  have hmarks := FileSystem.marks_writeFile hwritten
  have hlink : final.isLink copy = written.isLink copy := by
    rw [FileSystem.isLink, FileSystem.linkTarget?_of_marks hmarks,
      FileSystem.isLink]
  by_cases hevidence : copy = evidenceFile path
  · have hunlisted : ∀ files : FileSystem,
        files.isLink copy = written.isLink copy →
          ¬ CopyAt path files text copy := by
      rintro files hsame ⟨name, hlossy, hcopy, hown⟩
      have hlinked : written.isLink copy = true := by
        rcases hcopy with hcopy | hcopy
        · rw [hevidence]
          rw [hevidence, evidenceFile, List.append_cancel_left_eq,
            List.singleton_inj] at hcopy
          rw [← hcopy, OsStr.toStringLossy_text] at hlossy
          exact hname hlossy.symm
        · rw [hevidence] at hcopy
          simp [evidenceFile, artifactsDir] at hcopy
      rw [FileSystem.isOwnFile, hsame, hlinked, Bool.not_true,
        Bool.and_false] at hown
      cases hown
    have hnone := hunlisted written rfl
    exact ⟨iff_of_false (hunlisted final hlink) hnone,
      fun hcopy => absurd hcopy hnone⟩
  · have hfile : ∀ name : OsStr, (copy = outputDir path ++ [name] ∨
        copy = artifactsDir path ++ [name]) →
          final.fileAt copy = written.fileAt copy := by
      intro name hcopy
      refine FileSystem.fileAt_writeFile_of_other hwritten
        (hapart.sameFile_eq_false ?_ (Ne.symm hevidence))
      rcases hcopy with rfl | rfl
      · simp
      · simp
    constructor
    · refine exists_congr fun name => and_congr_right fun _ =>
        and_congr_right fun hcopy => ?_
      rw [FileSystem.isOwnFile, FileSystem.isFile, hfile name hcopy, hlink,
        FileSystem.isOwnFile, FileSystem.isFile]
    · rintro ⟨name, -, hcopy, -⟩
      rw [FileSystem.read, hfile name hcopy, FileSystem.isDenied, hmarks,
        FileSystem.read, FileSystem.isDenied]

/-- The artifacts hold as before the evidence was written. -/
theorem artifactsHold_evidence {written final : FileSystem}
    {evidence : Bytes}
    (hwritten : written.writeFile (evidenceFile path) ⟨false, evidence⟩ =
      .ok final)
    (hapart : written.Apart [outputDir path, artifactsDir path]
      (evidenceFile path))
    (hname : ∀ subject ∈ provenance.subject,
      subject.name = "evidence.json" →
        written.isLink (evidenceFile path) = true)
    (hholds : ArtifactsHold host path provenance written) :
    ArtifactsHold host path provenance final := by
  intro subject hsubject
  have hcopies := copyAt_evidence hwritten hapart (hname subject hsubject)
  obtain ⟨⟨copy, hcopy⟩, hall⟩ := hholds subject hsubject
  refine ⟨⟨copy, (hcopies copy).1.mpr hcopy⟩, fun other hother => ?_⟩
  have hbefore := (hcopies other).1.mp hother
  rw [(hcopies other).2 hbefore]
  exact hall other hbefore

/-- The steps of an attestation, with the report data that it asks for. -/
theorem attestBuild_steps {attester : Attester} {nonce : Option String}
    {files after : FileSystem}
    (hok : attestBuild host attester nonce files path = .ok after) :
    ∃ bytes provenance reportData evidence,
      files.read (provenanceFile path) = .ok bytes ∧
      Provenance.fromJson host.json bytes = some provenance ∧
      Verify.attestReportData host.hex
        (provenance.checksum host.json host.sha256) nonce = .ok reportData ∧
      evidenceOver host attester reportData = .ok evidence ∧
      files.writeFile (evidenceFile path) ⟨false, evidence⟩ = .ok after := by
  obtain ⟨bytes, hbytes, hrest⟩ := bind_eq_ok_iff.mp hok
  obtain ⟨provenance, hprovenance, hrest⟩ := bind_eq_ok_iff.mp hrest
  obtain ⟨reportData, hreport, hrest⟩ := bind_eq_ok_iff.mp hrest
  obtain ⟨evidence, hevidence, hwritten⟩ := bind_eq_ok_iff.mp hrest
  exact ⟨bytes, provenance, reportData, evidence, hbytes,
    okOr_eq_ok_iff.mp hprovenance, hreport, hevidence, hwritten⟩

/-- A nonce that the server takes is decoded alike for the attestation. -/
theorem decodeNonce_of_validateNonce {hex : Hex} {text : String}
    {nonce : ByteVec 16} (hreject : Server.RejectsDash hex)
    (htaken : Server.validateNonce hex text = .ok nonce.toList) :
    hex.decode text = .ok nonce.toList ∧
      Verify.decodeNonce hex text = .ok nonce := by
  have hdecode := Server.validateNonce_eq_ok_iff.mp htaken
  have hdash : '-' ∉ text.toList := fun hmem =>
    hreject text _ hmem hdecode
  refine ⟨hdecode, Server.decodeNonce_eq_ok_iff.mpr ?_⟩
  rw [Server.withoutDashes_eq_self hdash, hdecode]

end Evidence

section RoundTrip

variable {v : Verifier} {host : Host} {attester : Attester}
  {metadata : Metadata} {files final : FileSystem} {path : Path}

theorem requires_without_image :
    (none : Option Path).isSome = true → (none : Option Path).isSome = true :=
  id

/-- What `kettle verify` is asked: the build directory and the nonce. -/
def nonceArgs (path : Path) (nonce : String) : VerifyArgs :=
  ⟨outputDir path, some nonce, none, none, requires_without_image⟩

/-- What an attestation over a nonce leaves in the build directory. -/
structure AttestedDir (v : Verifier) (host : Host) (path : Path)
    (provenance : Provenance) (launchDigest : String) (nonce : ByteVec 16)
    (files : FileSystem) : Prop where
  recorded : files.fileAt (provenanceFile path) =
    some ⟨false, provenance.toJson host.json⟩
  evidence : ∃ evidence,
    files.fileAt (evidenceFile path) = some ⟨false, evidence⟩ ∧
    v.attestationVerify evidence = .ok ⟨true, launchDigest,
      Verify.signedData (provenance.checksum host.json host.sha256) nonce⟩
  integerCounts : provenance.IntegerCounts
  predicateType : provenance.predicateType = Verify.slsaPredicateType
  type : provenance.type = Verify.statementType

/-- The build directory and its documents may be read. -/
structure Readable (path : Path) (files : FileSystem) : Prop where
  documents : ∀ place ∈ [outputDir path, provenanceFile path,
    evidenceFile path], files.isDenied place = false
  artifacts : files.isDir (artifactsDir path) = true →
    files.isDenied (artifactsDir path) = false

/-- The attestation kept the nonce: it is lost with the zeros at the end. -/
def NonceKept (host : Host) (provenance : Provenance) (nonce : ByteVec 16) :
    Prop :=
  nonce ≠ .replicate 16 0 ∨
    (provenance.checksum host.json host.sha256).get (Fin.last 31) ≠ 0

theorem types_of_attests {Inputs : Type} {driver : ToolchainDriver Inputs}
    {built written : FileSystem} {provenance : Provenance}
    (hattests : Attests driver host metadata files path built provenance
      written) :
    provenance.predicateType = Verify.slsaPredicateType ∧
      provenance.type = Verify.statementType := by
  obtain ⟨started, staged, json, -, -, hfinished, -⟩ := hattests
  obtain ⟨output, after, ready, artifacts, stagedFiles, merkleRoot, -, -, -,
    hresult⟩ := finishBuild_spec hfinished
  cases hresult
  exact ⟨rfl, rfl⟩

/-- What the checks of an attested build come down to. -/
theorem checksPass_iff {build : Verify.Build} {provenance : Provenance}
    {launchDigest nonceText : String} {nonce : ByteVec 16}
    (hagrees : Agrees v host)
    (hdecode : host.hex.decode nonceText = .ok nonce.toList)
    (htype : provenance.predicateType = Verify.slsaPredicateType ∧
      provenance.type = Verify.statementType)
    (hlisted : Listed files (outputDir path) build) :
    Verify.ChecksPass v files (nonceArgs path nonceText)
        ⟨build, provenance, true, launchDigest,
          Verify.signedData (provenance.checksum host.json host.sha256)
            nonce⟩ ↔
      ArtifactsHold host path provenance files ∧
        NonceKept host provenance nonce := by
  obtain ⟨hfront, hback⟩ := Verify.signedData_zeroPad_parts
    (provenance.checksum host.json host.sha256) nonce
  have hshort := Verify.signedData_length_lt_iff
    (provenance.checksum host.json host.sha256) nonce
  have hle := Verify.signedData_length_le
    (provenance.checksum host.json host.sha256) nonce
  have hsubjects : (∀ subject ∈ provenance.subject,
      Verify.SubjectHolds v files build subject) ↔
      ArtifactsHold host path provenance files :=
    forall₂_congr fun subject _ =>
      subjectHolds_iff hagrees hlisted.topLevel hlisted.artifacts
  have hnonce : Verify.NonceHolds v.hex (Verify.signedData
      (provenance.checksum host.json host.sha256) nonce) nonceText ↔
      NonceKept host provenance nonce := by
    have hlast : Fin.last 31 = 31 := rfl
    unfold NonceKept
    rw [hlast, ← not_and_or, ← hshort, not_lt]
    unfold Verify.NonceHolds
    rw [hagrees.hex, hdecode]
    constructor
    · rintro ⟨_, -, -, hlong, -⟩
      exact hlong
    · intro hlong
      refine ⟨_, rfl, nonce.toList_length, hlong, ?_, hback⟩
      rw [List.length_drop]
      simp only [Verify.checksumLen, Verify.nonceLen]
      omega
  constructor
  · intro hpass
    exact ⟨hsubjects.mp hpass.subjects,
      hnonce.mp (hpass.nonce nonceText rfl)⟩
  · rintro ⟨hartifacts, hkept⟩
    refine ⟨rfl, htype.1, htype.2, ?_, hsubjects.mpr hartifacts, ?_, ?_, ?_⟩
    · rw [hagrees.json, hagrees.sha256]
      exact hfront
    · rintro _ ⟨rfl⟩
      exact hnonce.mpr hkept
    · intro igvm higvm
      cases higvm
    · intro image igvm himage
      cases himage

/-- An attested directory can be opened exactly when it may be read. -/
theorem AttestedDir.opens_iff {provenance : Provenance}
    {launchDigest : String} {nonce : ByteVec 16}
    (hattested : AttestedDir v host path provenance launchDigest nonce files)
    {evidence documented : Bytes} :
    Opens files (outputDir path) evidence documented ↔
      Readable path files ∧
        files.fileAt (evidenceFile path) = some ⟨false, evidence⟩ ∧
        documented = provenance.toJson host.json := by
  obtain ⟨written, hwritten, -⟩ := hattested.evidence
  have hread : ∀ {place : Path} {contents : Bytes},
      files.fileAt place = some ⟨false, contents⟩ →
        ∀ bytes, files.bytesAt place = some bytes ↔
          contents = bytes ∧ files.isDenied place = false := by
    intro place contents hfile bytes
    rw [← FileSystem.read_eq_ok_iff_bytesAt, FileSystem.read_eq_ok_iff, hfile]
    simp
  have hevidence := hread hwritten
  have hprovenance := hread hattested.recorded
  rw [hwritten, Option.some.injEq, File.mk.injEq, and_iff_right rfl]
  constructor
  · intro hopens
    obtain ⟨hsame, hevidenceRead⟩ := (hevidence _).mp hopens.evidence
    obtain ⟨hsame', hprovenanceRead⟩ :=
      (hprovenance _).mp hopens.provenance
    exact ⟨⟨by simpa using ⟨hopens.directory, hprovenanceRead,
      hevidenceRead⟩, hopens.artifacts⟩, hsame, hsame'.symm⟩
  · rintro ⟨hreadable, rfl, rfl⟩
    obtain ⟨hdir, hprovenanceRead, hevidenceRead⟩ : _ ∧ _ ∧ _ := by
      simpa using hreadable.documents
    exact ⟨(hevidence _).mpr ⟨rfl, hevidenceRead⟩,
      (hprovenance _).mpr ⟨rfl, hprovenanceRead⟩, hdir,
      hreadable.artifacts⟩

/-- When the verification of an attested directory passes. -/
theorem AttestedDir.passes_iff {provenance : Provenance}
    {launchDigest nonceText : String} {nonce : ByteVec 16}
    (hagrees : Agrees v host)
    (hdecode : host.hex.decode nonceText = .ok nonce.toList)
    (hattested : AttestedDir v host path provenance launchDigest nonce
      files) :
    Verify.Passes v files (nonceArgs path nonceText) ↔
      Readable path files ∧ ArtifactsHold host path provenance files ∧
        NonceKept host provenance nonce := by
  obtain ⟨evidence, hfile, hresult⟩ := hattested.evidence
  have hparsed : Provenance.fromJson v.json (provenance.toJson host.json) =
      some provenance := by
    rw [hagrees.json]
    exact Provenance.fromJson_toJson hattested.integerCounts
  have htype := And.intro hattested.predicateType hattested.type
  constructor
  · rintro ⟨⟨build, parsed, result⟩, hloads, hpass⟩
    obtain ⟨hreadable, hevidence, hdocumented⟩ :=
      hattested.opens_iff.mp (fromDir_iff.mp ⟨_, _, hloads.fromDir⟩)
    have hsame := hloads.fromJson
    rw [hdocumented, hparsed, Option.some.injEq] at hsame
    have hverdict := hloads.attested
    rw [hfile, Option.some.injEq, File.mk.injEq] at hevidence
    rw [← hevidence.2, hresult, Except.ok.injEq] at hverdict
    subst hsame hverdict
    exact ⟨hreadable, (checksPass_iff hagrees hdecode htype
      (fromDir_listed hloads.fromDir)).mp hpass⟩
  · rintro ⟨hreadable, hholds⟩
    obtain ⟨topLevel, artifacts, hdir⟩ := fromDir_iff.mpr
      (hattested.opens_iff.mpr ⟨hreadable, hfile, rfl⟩)
    exact ⟨⟨_, provenance, _⟩, ⟨hdir, hparsed, hresult⟩,
      (checksPass_iff hagrees hdecode htype (fromDir_listed hdir)).mpr
        hholds⟩

/-- What comes of an attestation that succeeds. -/
theorem attest_attested {launchDigest nonceText : String}
    {nonce : ByteVec 16}
    (hgenuine : Genuine v host attester launchDigest)
    (hreject : Server.RejectsDash host.hex)
    (htaken : Server.validateNonce host.hex nonceText = .ok nonce.toList)
    (hok : attest host attester metadata (some nonceText) files path =
      .ok final) :
    ∃ toolchain built written provenance output ready evidence,
      ProjectToolchain.fromDir host files path = .ok toolchain ∧
      Attests (toolchain.driver host) host metadata files path built
        provenance written ∧
      CollectedFrom (toolchain.driver host) built path output ready ∧
      written.writeFile (evidenceFile path) ⟨false, evidence⟩ = .ok final ∧
      ((toolchain.collector host).FilesApart output path ready →
        Collected host (toolchain.collector host).linked path ready
          ((toolchain.collector host).found output ready path) provenance
          written) ∧
      (written.sameFile (evidenceFile path) (provenanceFile path) = false →
        AttestedDir v host path provenance launchDigest nonce final) := by
  obtain ⟨written, hbuild, hattest⟩ := bind_eq_ok_iff.mp hok
  obtain ⟨toolchain, htoolchain, hrun⟩ := bind_eq_ok_iff.mp hbuild
  obtain ⟨built, provenance, hattests⟩ := run_eq_ok_iff.mp hrun
  obtain ⟨hcounts, output, ready, hfrom, hcollected⟩ :=
    attests_collected (toolchain.collects host) hattests
  obtain ⟨bytes, parsed, reportData, evidence, hbytes, hparsed, hreport,
    hevidence, hwritten⟩ := attestBuild_steps hattest
  have hrecorded : written.fileAt (provenanceFile path) =
      some ⟨false, provenance.toJson host.json⟩ := by
    obtain ⟨started, staged, json, -, -, -, ⟨rfl⟩, hdocument⟩ := hattests
    exact FileSystem.fileAt_writeFile_self hdocument
  have hsame : parsed = provenance := by
    obtain ⟨file, hfile, rfl⟩ := FileSystem.fileAt_of_read hbytes
    rw [hrecorded, Option.some.injEq] at hfile
    rw [← hfile, Provenance.fromJson_toJson hcounts,
      Option.some.injEq] at hparsed
    exact hparsed.symm
  subst hsame
  obtain ⟨-, hgiven⟩ := decodeNonce_of_validateNonce hreject htaken
  have hdata : reportData = Verify.reportData
      (parsed.checksum host.json host.sha256) (some nonce) := by
    rw [Verify.attestReportData, hgiven, ok_bind] at hreport
    exact (Except.ok.inj hreport).symm
  subst hdata
  obtain ⟨hpredicate, htype⟩ := types_of_attests hattests
  refine ⟨toolchain, built, written, parsed, output, ready, evidence,
    htoolchain, hattests, hfrom, hwritten, hcollected, fun hother => ?_⟩
  exact ⟨(FileSystem.fileAt_writeFile_of_other hwritten hother).trans
    hrecorded, ⟨evidence, FileSystem.fileAt_writeFile_self hwritten,
      hgenuine _ _ hevidence⟩, hcounts, hpredicate, htype⟩

/-- The evidence goes by no other name in the build directory, is called like
no artifact, and may be read. -/
structure EvidenceClear (path : Path) (ready : FileSystem)
    (found : List Found) : Prop where
  apart : ready.Apart [outputDir path, artifactsDir path] (evidenceFile path)
  notEvidence : ∀ entry ∈ found,
    entry.name.toStringLossy = "evidence.json" →
      ready.isLink (evidenceFile path) = true
  readable : ready.isDenied (evidenceFile path) = false

/-- With nothing in the way, the artifacts hold and all may be read. -/
theorem holds_of_clear {linked : FileSystem → Path → Bool}
    {dirs : List Path} {ready written : FileSystem} {found : List Found}
    {provenance : Provenance} {evidence : Bytes}
    (hwritten : written.writeFile (evidenceFile path) ⟨false, evidence⟩ =
      .ok final)
    (hcollected : Collected host linked path ready found provenance written)
    (hapart : FilesApart path dirs found ready)
    (hclear : NothingInTheWay host linked path ready found)
    (hevidence : EvidenceClear path ready found) :
    Readable path final ∧ ArtifactsHold host path provenance final := by
  have hplace : ∀ entry ∈ found,
      entry.stagedPath (artifactsDir path) ≠ evidenceFile path := by
    intro entry _
    simp [Found.stagedPath, evidenceFile, artifactsDir]
  have hdenied : ∀ place, final.isDenied place = written.isDenied place := by
    intro place
    rw [FileSystem.isDenied, FileSystem.marks_writeFile hwritten,
      FileSystem.isDenied]
  obtain ⟨houtput, hartifacts, hprovenance⟩ :=
    (hcollected.readable_iff hapart).mp hclear.readable
  have hread : written.isDenied (evidenceFile path) = false := by
    rw [hcollected.isDenied_eq (.inr (Collected.place_sameFile hapart
      (.inl (by simp [evidenceFile])) hplace))]
    exact hevidence.readable
  constructor
  · constructor
    · simpa [hdenied] using ⟨houtput, hprovenance, hread⟩
    · rw [hdenied, FileSystem.isDir_writeFile hwritten]
      exact hartifacts
  · refine artifactsHold_evidence hwritten
      (hevidence.apart.of_subset hcollected.marks_subset) ?_
      (hcollected.artifactsHold hapart hclear)
    rw [hcollected.subject, hcollected.isLink_eq hplace]
    intro subject hsubject hname
    obtain ⟨entry, hentry, rfl⟩ := List.mem_map.mp hsubject
    exact hevidence.notEvidence entry hentry hname

/-- Attest, then verify with the same nonce.  There is a report without a
failure exactly when all may be read, the artifacts hold and the attestation
still carries the nonce, unless the evidence was written over the provenance;
the artifacts hold when nothing was in the way. -/
theorem attest_then_verify {launchDigest nonceText : String}
    {nonce : ByteVec 16} (hagrees : Agrees v host)
    (hgenuine : Genuine v host attester launchDigest)
    (hreject : Server.RejectsDash host.hex)
    (htaken : Server.validateNonce host.hex nonceText = .ok nonce.toList)
    (hok : attest host attester metadata (some nonceText) files path =
      .ok final) :
    ∃ toolchain built written provenance output ready,
      ProjectToolchain.fromDir host files path = .ok toolchain ∧
      Attests (toolchain.driver host) host metadata files path built
        provenance written ∧
      CollectedFrom (toolchain.driver host) built path output ready ∧
      (written.sameFile (evidenceFile path) (provenanceFile path) = false →
        (Verify.Succeeds v final (nonceArgs path nonceText) ↔
          Readable path final ∧ ArtifactsHold host path provenance final ∧
            NonceKept host provenance nonce)) ∧
      ((toolchain.collector host).FilesApart output path ready →
        (toolchain.collector host).NothingInTheWay host output path ready →
        EvidenceClear path ready
          ((toolchain.collector host).found output ready path) →
        Readable path final ∧ ArtifactsHold host path provenance final) := by
  obtain ⟨toolchain, built, written, provenance, output, ready, evidence,
    htoolchain, hattests, hfrom, hwritten, hcollected, hattested⟩ :=
    attest_attested hgenuine hreject htaken hok
  obtain ⟨hdecode, -⟩ := decodeNonce_of_validateNonce hreject htaken
  refine ⟨toolchain, built, written, provenance, output, ready, htoolchain,
    hattests, hfrom, fun hother => ?_, fun hapart hclear hevidence => ?_⟩
  · rw [Verify.succeeds_iff_passes]
    exact (hattested hother).passes_iff hagrees hdecode
  · exact holds_of_clear hwritten (hcollected hapart) hapart hclear hevidence

/-- A verifier that reads the report data from the evidence. -/
noncomputable def readingBack : Verifier :=
  { Verify.rejecting with
    attestationVerify := fun evidence => do
      let value ← okOr "invalid evidence" (JsonPretty.text.parse evidence)
      let shown ← okOr "evidence missing" (value.getStr? "evidence")
      let reportData ← lowerHex.decode shown
      .ok ⟨true, ⟨"", Bytes.stripTrailingZeros reportData⟩⟩ }

theorem genuine_readingBack : Genuine readingBack demoHost demoAttester "" := by
  intro reportData evidence hok
  have hparse : JsonPretty.text.parse (JsonPretty.text.render
      (.object [("evidence", .string (lowerHex.encode reportData.toList))])) =
      some _ := JsonPretty.text.parse_render _ (by simp)
  have hevidence : evidenceOver demoHost demoAttester reportData =
      .ok (JsonPretty.text.render (.object
        [("evidence", .string (lowerHex.encode reportData.toList))])) :=
    bind_eq_ok_iff.mpr ⟨_, rfl, bind_eq_ok_iff.mpr ⟨_, rfl,
      bind_eq_ok_iff.mpr ⟨_, okOr_eq_ok_iff.mpr hparse, rfl⟩⟩⟩
  rw [hevidence] at hok
  cases hok
  unfold readingBack
  dsimp only
  rw [hparse, okOr_some, ok_bind]
  have hshown : Json.getStr? (.object
      [("evidence", .string (lowerHex.encode reportData.toList))])
      "evidence" = some (lowerHex.encode reportData.toList) := rfl
  rw [hshown, okOr_some, ok_bind, lowerHex.decode_encode, ok_bind]

def demoNonce : ByteVec 16 := .replicate 16 7

theorem demo_attest_nonce :
    ∃ final, attest demoHost demoAttester demoMetadata
      (some (lowerHex.encode demoNonce.toList)) demoFiles ["app"] =
        .ok final := by
  obtain ⟨built, hbuilt⟩ : ∃ built, build demoHost demoMetadata demoFiles
      ["app"] = .ok built := ⟨_, rfl⟩
  obtain ⟨provenance, hread, hparse⟩ := build_parsesBack hbuilt
  have hallowed : built.isDenied (provenanceFile ["app"]) = false := by
    cases hbuilt
    rfl
  have hbytes := FileSystem.read_eq_ok_iff.mpr ⟨⟨_, hread, rfl⟩, hallowed⟩
  obtain ⟨evidence, hevidence⟩ := demo_evidenceOver
    (Verify.reportData (provenance.checksum demoHost.json demoHost.sha256)
      (some demoNonce))
  obtain ⟨final, hwritten⟩ : ∃ final,
      built.writeFile (evidenceFile ["app"]) ⟨false, evidence⟩ =
        .ok final := by
    cases hbuilt
    exact ⟨_, rfl⟩
  have hnonce : Verify.decodeNonce demoHost.hex
      (lowerHex.encode demoNonce.toList) = .ok demoNonce :=
    (decodeNonce_of_validateNonce Server.lowerHex_rejectsDash
      (Server.validateNonce_eq_ok_iff.mpr (lowerHex.decode_encode _))).2
  exact ⟨final, bind_eq_ok_iff.mpr ⟨built, hbuilt, bind_eq_ok_iff.mpr
    ⟨_, hbytes, bind_eq_ok_iff.mpr ⟨provenance, okOr_eq_ok_iff.mpr hparse,
      bind_eq_ok_iff.mpr ⟨_, bind_eq_ok_iff.mpr ⟨demoNonce, hnonce, rfl⟩,
        bind_eq_ok_iff.mpr ⟨evidence, hevidence, hwritten⟩⟩⟩⟩⟩⟩

theorem demo_marks_written {built written : FileSystem}
    {provenance : Provenance}
    (hattests : Attests (CargoInputs.driver demoHost) demoHost demoMetadata
      demoFiles ["app"] built provenance written) : written.marks = [] := by
  obtain ⟨-, output, ready, hfrom, hcollected⟩ :=
    attests_collected (cargo_collects demoHost) hattests
  obtain ⟨hmarks, hfound, hplace, hdirs⟩ := demo_collectedFrom hattests hfrom
  have hsubset := (hcollected
    (demo_clear hmarks hfound hplace hdirs).1).marks_subset
  rw [hmarks] at hsubset
  exact List.subset_nil.mp hsubset

/-- The demo project is attested, and verified without a failure. -/
theorem attest_then_verify_demo :
    ∃ final, attest demoHost demoAttester demoMetadata
        (some (lowerHex.encode demoNonce.toList)) demoFiles ["app"] =
          .ok final ∧
      Verify.Succeeds readingBack final
        (nonceArgs ["app"] (lowerHex.encode demoNonce.toList)) := by
  obtain ⟨final, hok⟩ := demo_attest_nonce
  obtain ⟨toolchain, built, written, provenance, output, ready, htoolchain,
    hattests, hfrom, hsucceeds, hholds⟩ := attest_then_verify
      (v := readingBack) ⟨rfl, rfl, rfl⟩ genuine_readingBack
      Server.lowerHex_rejectsDash
      (Server.validateNonce_eq_ok_iff.mpr (lowerHex.decode_encode _)) hok
  cases htoolchain
  obtain ⟨hmarks, hfound, hplace, hdirs⟩ := demo_collectedFrom hattests hfrom
  obtain ⟨hapart, hclear⟩ := demo_clear hmarks hfound hplace hdirs
  have hevidence : EvidenceClear ["app"] ready
      (cargoCollector.found output ready ["app"]) := by
    refine ⟨FileSystem.apart_of_marks_eq_nil hmarks _ _, ?_, ?_⟩
    · rw [hfound]
      rintro entry hentry hname
      cases List.mem_singleton.mp hentry
      exact absurd hname (by decide)
    · rw [FileSystem.isDenied, hmarks]
      rfl
  obtain ⟨hreadable, hartifacts⟩ := hholds hapart hclear hevidence
  have hother : written.sameFile (evidenceFile ["app"])
      (provenanceFile ["app"]) = false := by
    rw [FileSystem.sameFile, demo_marks_written hattests]
    rfl
  exact ⟨final, hok, (hsucceeds hother).mpr
    ⟨hreadable, hartifacts, .inl (by decide)⟩⟩

end RoundTrip

end Commands

end Kettle
