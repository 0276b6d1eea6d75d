/-
When `kettle verify` ends with a success status, and when its checks pass.
The status only says whether the build directory could be loaded, and the
copies of its subjects read.
-/
import Kettle.Verify.Verify

namespace Kettle

namespace Verify

/-- What is read before anything is checked. -/
structure Loaded where
  build : Build
  provenance : Provenance
  result : VerificationResult

variable (v : Verifier) (files : FileSystem) (args : VerifyArgs)

/-- The directory can be read, its provenance parses, and the attestation
library comes to a verdict on its evidence. -/
structure Loads (loaded : Loaded) : Prop where
  fromDir : Build.fromDir files args.path = .ok loaded.build
  fromJson : Provenance.fromJson v.json loaded.build.provenanceBytes =
    some loaded.provenance
  attested : v.attestationVerify loaded.build.evidenceBytes =
    .ok loaded.result

/-- The file is listed under the subject's name. -/
def CopyOf (build : Build) (subject : Subject) (entry : DirEntry) : Prop :=
  entry ∈ build.topLevel ++ build.artifacts ∧
    entry.fileName.toStringLossy = subject.name

/-- Its bytes have the recorded digest. -/
def DigestMatches (subject : Subject) (path : Path) : Prop :=
  ∃ bytes, files.read path = .ok bytes ∧
    v.hex.encode (v.sha256 bytes).toList = subject.digest.value

/-- Every file that is listed under the subject's name can be read. -/
def CopiesRead (subject : Subject) (entries : List DirEntry) : Prop :=
  ∀ entry ∈ entries, entry.fileName.toStringLossy = subject.name →
    ∃ bytes, files.read entry.path = .ok bytes

/-- The copies of all subjects can be read. -/
def Loaded.CopiesRead (loaded : Loaded) : Prop :=
  ∀ subject ∈ loaded.provenance.subject,
    Verify.CopiesRead files subject
      (loaded.build.topLevel ++ loaded.build.artifacts)

def SubjectHolds (build : Build) (subject : Subject) : Prop :=
  (∃ entry, CopyOf build subject entry) ∧
    ∀ entry, CopyOf build subject entry →
      DigestMatches v files subject entry.path

def LaunchDigestHolds (launchDigest : String) (igvmPath : Path) : Prop :=
  ∃ igvm measured, loadIgvm v files igvmPath = .ok igvm ∧
    Igvm.measureSnp v.sha384 igvm = .ok measured ∧
    eqIgnoreAsciiCase (v.hex.encode measured.launchDigest.toList)
      launchDigest = true

def RoothashHolds (igvmPath imagePath : Path) : Prop :=
  ∃ igvm cmdline igvmRoothash diskRoothash,
    loadIgvm v files igvmPath = .ok igvm ∧
    Igvm.kernelCmdline igvm = .ok cmdline ∧
    roothashFromCmdline cmdline = .ok igvmRoothash ∧
    storedRoothash v.verity files imagePath = .ok diskRoothash ∧
    eqIgnoreAsciiCase igvmRoothash diskRoothash = true

/-- Every check that is asked for. -/
structure ChecksPass (loaded : Loaded) : Prop where
  signature : loaded.result.signatureValid = true
  predicateType : loaded.provenance.predicateType = slsaPredicateType
  statementType : loaded.provenance.type = statementType
  checksum : loaded.result.claims.signedData.zeroPad checksumLen =
    (loaded.provenance.checksum v.json v.sha256).toList
  subjects : ∀ subject ∈ loaded.provenance.subject,
    SubjectHolds v files loaded.build subject
  nonce : ∀ nonceString, args.nonce = some nonceString →
    NonceHolds v.hex loaded.result.claims.signedData nonceString
  launchDigest : ∀ igvmPath, args.igvm = some igvmPath →
    LaunchDigestHolds v files loaded.result.claims.launchDigest igvmPath
  roothash : ∀ igvmPath imagePath, args.igvm = some igvmPath →
    args.image = some imagePath → RoothashHolds v files igvmPath imagePath

/-- Verification passes: there is something to check, and every check does. -/
def Passes : Prop :=
  ∃ loaded, Loads v files args loaded ∧ ChecksPass v files args loaded

/-- There is a report, without a failure. -/
def Succeeds : Prop :=
  ∃ report, verify v files args = .ok report ∧
    ∀ result ∈ report.results, result.isSuccess = true

/-- The status is the verdict, and no failure goes with success. -/
def StatusIsVerdict : Prop :=
  (exitStatus (verify v files args) = 0 ↔ Passes v files args) ∧
    ∀ report, verify v files args = .ok report →
      (∃ result ∈ report.results, result.isSuccess = false) →
        exitStatus (verify v files args) ≠ 0

variable {v files args}

theorem verifySignature_isSuccess_iff {result : VerificationResult} :
    (verifySignature result).isSuccess = true ↔
      result.signatureValid = true := by
  unfold verifySignature
  split
  · simp [Verification.isSuccess, *]
  · simp [Verification.isSuccess, *]

theorem verifyPredicate_isSuccess_iff {provenance : Provenance} :
    (verifyPredicate v provenance).isSuccess = true ↔
      provenance.predicateType = slsaPredicateType ∧
        provenance.type = statementType := by
  unfold verifyPredicate
  split
  · rename_i hvalid
    exact iff_of_true rfl hvalid
  · rename_i hinvalid
    exact iff_of_false Bool.false_ne_true hinvalid

/-- A check of several steps succeeds when its steps do. -/
theorem orFailure_isSuccess_iff
    {check : Except (String × String) Verification} :
    (orFailure check).isSuccess = true ↔
      ∃ verification, check = .ok verification ∧
        verification.isSuccess = true := by
  cases check with
  | error failure => simp [orFailure, Verification.isSuccess]
  | ok verification => simp [orFailure]

theorem failingWith_eq_ok_iff {α : Type} {message : String}
    {first : Except String α} {value : α} :
    failingWith message first = .ok value ↔ first = .ok value := by
  cases first <;> simp [failingWith]

theorem compareLaunchDigest_isSuccess (measured attested : String) :
    (compareLaunchDigest measured attested).isSuccess =
      eqIgnoreAsciiCase measured attested := by
  unfold compareLaunchDigest
  split <;> simp [Verification.isSuccess, *]

theorem compareRoothash_isSuccess (igvmRoothash diskRoothash : String) :
    (compareRoothash igvmRoothash diskRoothash).isSuccess =
      eqIgnoreAsciiCase igvmRoothash diskRoothash := by
  unfold compareRoothash
  split <;> simp [Verification.isSuccess, *]

theorem verifyIgvmMeasurement_isSuccess_iff {result : VerificationResult}
    {igvmPath : Path} :
    (verifyIgvmMeasurement v files result igvmPath).isSuccess = true ↔
      LaunchDigestHolds v files result.claims.launchDigest igvmPath := by
  unfold verifyIgvmMeasurement LaunchDigestHolds
  rw [orFailure_isSuccess_iff]
  simp only [bind_eq_ok_iff, failingWith_eq_ok_iff, Except.ok.injEq]
  constructor
  · rintro ⟨_, ⟨igvm, hload, measured, hmeasured, rfl⟩, hsuccess⟩
    rw [compareLaunchDigest_isSuccess] at hsuccess
    exact ⟨igvm, measured, hload, hmeasured, hsuccess⟩
  · rintro ⟨igvm, measured, hload, hmeasured, hsame⟩
    refine ⟨_, ⟨igvm, hload, measured, hmeasured, rfl⟩, ?_⟩
    rw [compareLaunchDigest_isSuccess]
    exact hsame

theorem verifyImageRoothash_isSuccess_iff {igvmPath imagePath : Path} :
    (verifyImageRoothash v files igvmPath imagePath).isSuccess = true ↔
      RoothashHolds v files igvmPath imagePath := by
  unfold verifyImageRoothash RoothashHolds
  rw [orFailure_isSuccess_iff]
  simp only [bind_eq_ok_iff, failingWith_eq_ok_iff, Except.ok.injEq]
  constructor
  · rintro ⟨_, ⟨igvm, hload, cmdline, hcmdline, fromIgvm, higvm, fromDisk,
      hdisk, rfl⟩, hsuccess⟩
    rw [compareRoothash_isSuccess] at hsuccess
    exact ⟨igvm, cmdline, fromIgvm, fromDisk, hload, hcmdline, higvm, hdisk,
      hsuccess⟩
  · rintro ⟨igvm, cmdline, fromIgvm, fromDisk, hload, hcmdline, higvm, hdisk,
      hsame⟩
    refine ⟨_, ⟨igvm, hload, cmdline, hcmdline, fromIgvm, higvm, fromDisk,
      hdisk, rfl⟩, ?_⟩
    rw [compareRoothash_isSuccess]
    exact hsame

/-- The results are those of checks, all of which succeed exactly when the
condition holds. -/
def Decides (results : List Verification) (condition : Prop) : Prop :=
  (∀ result ∈ results, result.isSuccess = true) ↔ condition

theorem Decides.append {left right : List Verification} {p q : Prop}
    (hleft : Decides left p) (hright : Decides right q) :
    Decides (left ++ right) (p ∧ q) := by
  unfold Decides
  rw [List.forall_mem_append]
  exact and_congr hleft hright

theorem Decides.cons {result : Verification} {rest : List Verification}
    {p q : Prop} (hresult : result.isSuccess = true ↔ p)
    (hrest : Decides rest q) : Decides (result :: rest) (p ∧ q) := by
  unfold Decides
  rw [List.forall_mem_cons]
  exact and_congr hresult hrest

theorem Decides.nil : Decides [] True := by
  simp [Decides]

/-- A check that is only made when it is asked for. -/
theorem Decides.option {α : Type} {asked : Option α}
    {check : α → Verification} {p : α → Prop}
    (hcheck : ∀ value, (check value).isSuccess = true ↔ p value) :
    Decides (asked.map check).toList (∀ value, asked = some value → p value) := by
  unfold Decides
  cases asked with
  | none => simp
  | some value => simp [hcheck]

theorem checkArtifact_spec {subject : Subject} {display : String}
    {entry : DirEntry}
    (hreadable : ∃ bytes, files.read entry.path = .ok bytes) :
    ∃ result, checkArtifact v files subject display entry = .ok result ∧
      (result.isSuccess = true ↔ DigestMatches v files subject entry.path) := by
  obtain ⟨bytes, hbytes⟩ := hreadable
  unfold checkArtifact DigestMatches
  rw [hbytes, ok_bind]
  by_cases hdigest :
      v.hex.encode (v.sha256 bytes).toList = subject.digest.value
  · rw [if_pos hdigest]
    exact ⟨_, rfl, iff_of_true rfl ⟨bytes, rfl, hdigest⟩⟩
  · rw [if_neg hdigest]
    refine ⟨_, rfl, iff_of_false Bool.false_ne_true ?_⟩
    rintro ⟨other, hother, hmatch⟩
    cases hother
    exact hdigest hmatch

theorem CopiesRead.append {subject : Subject} {left right : List DirEntry} :
    CopiesRead files subject (left ++ right) ↔
      CopiesRead files subject left ∧ CopiesRead files subject right :=
  List.forall_mem_append

/-- Every copy is checked. -/
theorem checkCopies_spec {subject : Subject} {display : String}
    {entries : List DirEntry} (hreadable : CopiesRead files subject entries) :
    ∃ results, checkCopies v files subject display entries = .ok results ∧
      (results = [] ↔ ∀ entry ∈ entries,
        entry.fileName.toStringLossy ≠ subject.name) ∧
      Decides results (∀ entry ∈ entries,
        entry.fileName.toStringLossy = subject.name →
          DigestMatches v files subject entry.path) := by
  induction entries with
  | nil => exact ⟨[], rfl, by simp, by simp [Decides]⟩
  | cons entry rest ih =>
      obtain ⟨hentry, hrest⟩ := List.forall_mem_cons.mp hreadable
      obtain ⟨later, hlater, hempty, hdecides⟩ := ih hrest
      unfold checkCopies
      simp only [List.forall_mem_cons]
      by_cases hname : entry.fileName.toStringLossy = subject.name
      · obtain ⟨result, hresult, hsuccess⟩ :=
          @checkArtifact_spec v files subject display entry (hentry hname)
        rw [if_pos hname, hresult, ok_bind, hlater, ok_bind]
        refine ⟨result :: later, rfl, by simp [hname], ?_⟩
        exact Decides.cons (hsuccess.trans (by simp [hname])) hdecides
      · rw [if_neg hname]
        refine ⟨later, hlater, by simp [hname, hempty], ?_⟩
        exact hdecides.trans (by simp [hname])

/-- A copy that cannot be read ends the checks. -/
theorem copiesRead_of_checkCopies {subject : Subject} {display : String}
    {entries : List DirEntry} {results : List Verification}
    (hok : checkCopies v files subject display entries = .ok results) :
    CopiesRead files subject entries := by
  induction entries generalizing results with
  | nil => exact fun entry hentry => by cases hentry
  | cons entry rest ih =>
      unfold checkCopies at hok
      refine List.forall_mem_cons.mpr ?_
      split at hok
      · obtain ⟨result, hresult, hrest⟩ := bind_eq_ok_iff.mp hok
        obtain ⟨later, hlater, -⟩ := bind_eq_ok_iff.mp hrest
        obtain ⟨bytes, hbytes, -⟩ := bind_eq_ok_iff.mp hresult
        exact ⟨fun _ => ⟨bytes, hbytes⟩, ih hlater⟩
      · rename_i hname
        exact ⟨fun hsame => absurd hsame hname, ih hok⟩

theorem verifySubject_spec {build : Build} {subject : Subject}
    (hreadable : CopiesRead files subject
      (build.topLevel ++ build.artifacts)) :
    ∃ results, verifySubject v files build.topLevel build.artifacts subject =
        .ok results ∧
      Decides results (SubjectHolds v files build subject) := by
  obtain ⟨htopRead, hnestedRead⟩ := CopiesRead.append.mp hreadable
  obtain ⟨top, htopOk, htopEmpty, htopDecides⟩ :=
    @checkCopies_spec v files subject subject.name build.topLevel htopRead
  obtain ⟨nested, hnestedOk, hnestedEmpty, hnestedDecides⟩ :=
    @checkCopies_spec v files subject s!"artifacts/{subject.name}"
      build.artifacts hnestedRead
  unfold verifySubject
  rw [htopOk, ok_bind, hnestedOk, ok_bind]
  refine ⟨_, rfl, ?_⟩
  have hnone : top ++ nested = [] ↔
      ¬ ∃ entry, CopyOf build subject entry := by
    rw [List.append_eq_nil_iff, htopEmpty, hnestedEmpty,
      ← List.forall_mem_append]
    simp [CopyOf]
  by_cases hempty : top ++ nested = []
  · rw [if_pos hempty]
    refine iff_of_false ?_ fun hholds => hnone.mp hempty hholds.1
    simp [missingArtifact, Verification.isSuccess]
  · rw [if_neg hempty]
    refine (htopDecides.append hnestedDecides).trans ?_
    rw [← List.forall_mem_append]
    have hsome : ∃ entry, CopyOf build subject entry :=
      not_not.mp fun h => hempty (hnone.mpr h)
    constructor
    · exact fun hall => ⟨hsome, fun entry hcopy =>
        hall entry hcopy.1 hcopy.2⟩
    · exact fun hholds entry hentry hname => hholds.2 entry ⟨hentry, hname⟩

theorem verifySubjects_spec {build : Build} {subjects : List Subject}
    (hreadable : ∀ subject ∈ subjects, CopiesRead files subject
      (build.topLevel ++ build.artifacts)) :
    ∃ results, verifySubjects v files build.topLevel build.artifacts
        subjects = .ok results ∧
      Decides results
        (∀ subject ∈ subjects, SubjectHolds v files build subject) := by
  induction subjects with
  | nil => exact ⟨[], rfl, by simp [Decides]⟩
  | cons subject rest ih =>
      obtain ⟨hsubject, hrest⟩ := List.forall_mem_cons.mp hreadable
      obtain ⟨results, hresults, hdecides⟩ :=
        @verifySubject_spec v files build subject hsubject
      obtain ⟨later, hlater, hlaterDecides⟩ := ih hrest
      unfold verifySubjects
      rw [hresults, ok_bind, hlater, ok_bind]
      refine ⟨_, rfl, ?_⟩
      rw [List.forall_mem_cons]
      exact hdecides.append hlaterDecides

theorem copiesRead_of_verifySubjects {topLevel artifacts : List DirEntry}
    {subjects : List Subject} {results : List Verification}
    (hok : verifySubjects v files topLevel artifacts subjects =
      .ok results) :
    ∀ subject ∈ subjects,
      CopiesRead files subject (topLevel ++ artifacts) := by
  induction subjects generalizing results with
  | nil => exact fun subject hsubject => by cases hsubject
  | cons subject rest ih =>
      obtain ⟨first, hfirst, hrest⟩ := bind_eq_ok_iff.mp hok
      obtain ⟨later, hlater, -⟩ := bind_eq_ok_iff.mp hrest
      obtain ⟨top, htop, hnested⟩ := bind_eq_ok_iff.mp hfirst
      obtain ⟨nested, hnestedOk, -⟩ := bind_eq_ok_iff.mp hnested
      refine List.forall_mem_cons.mpr ⟨?_, ih hlater⟩
      exact CopiesRead.append.mpr ⟨copiesRead_of_checkCopies htop,
        copiesRead_of_checkCopies hnestedOk⟩

/-- Where the copies can be read, the artifacts are checked. -/
theorem verifyArtifacts_spec {build : Build} {provenance : Provenance}
    (hreadable : ∀ subject ∈ provenance.subject, CopiesRead files subject
      (build.topLevel ++ build.artifacts)) :
    ∃ report, verifyArtifacts v files provenance build.topLevel
        build.artifacts = .ok report ∧
      Decides report.results (∀ subject ∈ provenance.subject,
        SubjectHolds v files build subject) := by
  obtain ⟨results, hresults, hdecides⟩ :=
    @verifySubjects_spec v files build provenance.subject hreadable
  unfold verifyArtifacts
  rw [hresults, ok_bind]
  exact ⟨_, rfl, hdecides⟩

theorem igvmResults_decides {result : VerificationResult} :
    Decides (igvmResults v files result args)
      ((∀ igvmPath, args.igvm = some igvmPath →
        LaunchDigestHolds v files result.claims.launchDigest igvmPath) ∧
      ∀ igvmPath imagePath, args.igvm = some igvmPath →
        args.image = some imagePath →
          RoothashHolds v files igvmPath imagePath) := by
  unfold igvmResults
  cases higvm : args.igvm with
  | none => simp [Decides]
  | some igvmPath =>
      have himage := @Decides.option Path args.image _ _ fun imagePath =>
        @verifyImageRoothash_isSuccess_iff v files igvmPath imagePath
      have hboth := Decides.cons
        (@verifyIgvmMeasurement_isSuccess_iff v files result igvmPath) himage
      refine hboth.trans (and_congr ?_ ?_)
      · simp
      · constructor
        · rintro hasked _ imagePath ⟨rfl⟩ himage
          exact hasked imagePath himage
        · exact fun hasked imagePath himage =>
            hasked igvmPath imagePath rfl himage

/-- What is loaded and read is verified, and the results say which checks
pass. -/
theorem verify_spec {loaded : Loaded} (hloads : Loads v files args loaded)
    (hcopies : loaded.CopiesRead files) :
    ∃ report, verify v files args = .ok report ∧
      Decides report.results (ChecksPass v files args loaded) := by
  obtain ⟨report, hreport, hsubjects⟩ :=
    @verifyArtifacts_spec v files _ loaded.provenance hcopies
  unfold verify
  rw [hloads.fromDir, ok_bind, hloads.fromJson, okOr_some, ok_bind,
    hloads.attested, ok_bind, hreport, ok_bind]
  refine ⟨_, rfl, ?_⟩
  have hnonce := @Decides.option String args.nonce _ _ fun nonceString =>
    @verifyNonce_isSuccess_iff v.hex v.debug loaded.result nonceString
  have hfixed : Decides [verifySignature loaded.result,
      verifyPredicate v loaded.provenance,
      verifyProvenance v.hex v.debug v.json v.sha256 loaded.result
        loaded.provenance] _ :=
    Decides.cons verifySignature_isSuccess_iff
      (Decides.cons verifyPredicate_isSuccess_iff
        (Decides.cons verifyProvenance_isSuccess_iff Decides.nil))
  refine (((hfixed.append hsubjects).append hnonce).append
    igvmResults_decides).trans ?_
  constructor
  · rintro ⟨⟨⟨⟨hsignature, ⟨hpredicate, hstatement⟩, hchecksum, -⟩,
      hsubject⟩, hasked⟩, hlaunch, hroothash⟩
    exact ⟨hsignature, hpredicate, hstatement, hchecksum, hsubject, hasked,
      hlaunch, hroothash⟩
  · intro hpass
    exact ⟨⟨⟨⟨hpass.signature, ⟨hpass.predicateType, hpass.statementType⟩,
      hpass.checksum, trivial⟩, hpass.subjects⟩, hpass.nonce⟩,
      hpass.launchDigest, hpass.roothash⟩

/-- The status is a success whenever the directory can be loaded and the
copies read. -/
theorem exitStatus_verify_eq_zero_iff :
    exitStatus (verify v files args) = 0 ↔
      ∃ loaded, Loads v files args loaded ∧ loaded.CopiesRead files := by
  constructor
  · intro hstatus
    cases hverify : verify v files args with
    | error message =>
        rw [hverify] at hstatus
        cases hstatus
    | ok report =>
        obtain ⟨build, hbuild, hrest⟩ := bind_eq_ok_iff.mp hverify
        obtain ⟨provenance, hprovenance, hrest⟩ := bind_eq_ok_iff.mp hrest
        obtain ⟨result, hresult, hrest⟩ := bind_eq_ok_iff.mp hrest
        obtain ⟨artifacts, hartifacts, -⟩ := bind_eq_ok_iff.mp hrest
        obtain ⟨results, hresults, -⟩ := bind_eq_ok_iff.mp hartifacts
        exact ⟨⟨build, provenance, result⟩, ⟨hbuild,
          okOr_eq_ok_iff.mp hprovenance, hresult⟩,
          copiesRead_of_verifySubjects hresults⟩
  · rintro ⟨loaded, hloads, hcopies⟩
    obtain ⟨report, hreport, -⟩ := verify_spec hloads hcopies
    rw [hreport]
    rfl

theorem Loads.unique {left right : Loaded} (hleft : Loads v files args left)
    (hright : Loads v files args right) : left = right := by
  obtain ⟨leftBuild, leftProvenance, leftResult⟩ := left
  obtain ⟨rightBuild, rightProvenance, rightResult⟩ := right
  cases Except.ok.inj (hleft.fromDir.symm.trans hright.fromDir)
  cases Option.some.inj (hleft.fromJson.symm.trans hright.fromJson)
  cases Except.ok.inj (hleft.attested.symm.trans hright.attested)
  rfl

/-- What passes has been read. -/
theorem ChecksPass.copiesRead {loaded : Loaded}
    (hpass : ChecksPass v files args loaded) : loaded.CopiesRead files := by
  intro subject hsubject entry hentry hname
  obtain ⟨bytes, hbytes, -⟩ :=
    (hpass.subjects subject hsubject).2 entry ⟨hentry, hname⟩
  exact ⟨bytes, hbytes⟩

/-- The report has no failure exactly when verification passes. -/
theorem succeeds_iff_passes :
    Succeeds v files args ↔ Passes v files args := by
  constructor
  · rintro ⟨report, hreport, hall⟩
    obtain ⟨loaded, hloads, hcopies⟩ := exitStatus_verify_eq_zero_iff.mp
      (congrArg exitStatus hreport)
    obtain ⟨found, hfound, hdecides⟩ := verify_spec hloads hcopies
    cases Except.ok.inj (hfound.symm.trans hreport)
    exact ⟨loaded, hloads, hdecides.mp hall⟩
  · rintro ⟨loaded, hloads, hpass⟩
    obtain ⟨report, hreport, hdecides⟩ :=
      verify_spec hloads hpass.copiesRead
    exact ⟨report, hreport, hdecides.mpr hpass⟩

/-- The status is the verdict exactly when nothing is loaded, or a copy cannot
be read, or every check passes. -/
theorem verify_statusIsVerdict_iff (v : Verifier) (files : FileSystem)
    (args : VerifyArgs) :
    StatusIsVerdict v files args ↔
      ∀ loaded, Loads v files args loaded → loaded.CopiesRead files →
        ChecksPass v files args loaded := by
  unfold StatusIsVerdict
  rw [exitStatus_verify_eq_zero_iff]
  constructor
  · rintro ⟨hverdict, -⟩ loaded hloads hcopies
    obtain ⟨other, hother, hpass⟩ := hverdict.mp ⟨loaded, hloads, hcopies⟩
    exact hother.unique hloads ▸ hpass
  · intro hall
    refine ⟨⟨?_, ?_⟩, ?_⟩
    · rintro ⟨loaded, hloads, hcopies⟩
      exact ⟨loaded, hloads, hall loaded hloads hcopies⟩
    · rintro ⟨loaded, hloads, hpass⟩
      exact ⟨loaded, hloads, hpass.copiesRead⟩
    · rintro report hreport ⟨result, hresult, hfailed⟩ -
      obtain ⟨loaded, hloads, hcopies⟩ := exitStatus_verify_eq_zero_iff.mp
        (congrArg exitStatus hreport)
      obtain ⟨found, hfound, hdecides⟩ := verify_spec hloads hcopies
      cases Except.ok.inj (hfound.symm.trans hreport)
      have hsuccess :=
        hdecides.mpr (hall loaded hloads hcopies) result hresult
      rw [hfailed] at hsuccess
      cases hsuccess

/-- A build directory without artifacts. -/
noncomputable def demoBuildDir : FileSystem where
  nodes := ⟨[
    (["out"], .dir),
    (["out", "evidence.json"], .file ⟨false, []⟩),
    (["out", "provenance.json"],
      .file ⟨false, printed (demoProvenance "9fceb02d") false⟩)], by decide⟩
  closed := by decide

def demoArgs : VerifyArgs where
  path := ["out"]
  nonce := none
  igvm := none
  image := none
  requires := id

/-- The attestation library rejects every signature. -/
noncomputable def rejecting : Verifier where
  hex := lowerHex
  debug := id
  json := JsonPretty.text
  jsonError _ := "expected value at line 1 column 1"
  sha256 := Bytes.zeroPadVec 32
  sha384 := Bytes.zeroPadVec 48
  verity := ⟨fun _ => "", fun _ => ""⟩
  attestationVerify _ := .ok ⟨false, ⟨"", []⟩⟩
  parseIgvm _ := .error "Invalid fixed header"

theorem rejecting_loads :
    Loads rejecting demoBuildDir demoArgs
      ⟨⟨printed (demoProvenance "9fceb02d") false, [],
          [⟨"evidence.json", ["out", "evidence.json"]⟩,
            ⟨"provenance.json", ["out", "provenance.json"]⟩], []⟩,
        demoProvenance "9fceb02d", ⟨false, ⟨"", []⟩⟩⟩ where
  fromDir := rfl
  fromJson := fromJson_printed (demoProvenance_integerCounts _) false
  attested := rfl

theorem rejecting_copiesRead :
    Loaded.CopiesRead demoBuildDir
      ⟨⟨printed (demoProvenance "9fceb02d") false, [],
          [⟨"evidence.json", ["out", "evidence.json"]⟩,
            ⟨"provenance.json", ["out", "provenance.json"]⟩], []⟩,
        demoProvenance "9fceb02d", ⟨false, ⟨"", []⟩⟩⟩ := by
  rintro subject - entry hentry -
  have hcases : entry = ⟨"evidence.json", ["out", "evidence.json"]⟩ ∨
      entry = ⟨"provenance.json", ["out", "provenance.json"]⟩ := by
    simpa using hentry
  rcases hcases with rfl | rfl
  · exact ⟨_, rfl⟩
  · exact ⟨_, rfl⟩

/-- A signature that is rejected, and a success status. -/
theorem rejecting_not_statusIsVerdict :
    ¬ StatusIsVerdict rejecting demoBuildDir demoArgs := by
  rintro ⟨hverdict, -⟩
  obtain ⟨loaded, hloads, hpass⟩ := hverdict.mp
    (exitStatus_verify_eq_zero_iff.mpr
      ⟨_, rejecting_loads, rejecting_copiesRead⟩)
  rw [hloads.unique rejecting_loads] at hpass
  cases hpass.signature

end Verify

end Kettle
