/-
What the report on the artifacts of a build says: every copy of every subject
is looked at, in order, and one bad copy or a missing subject is a failure.
-/
import Kettle.Verify.Verdict

namespace Kettle

namespace Verify

/-- `e.file_name().to_string_lossy() == subject.name`. -/
def Named (subject : Subject) (entry : DirEntry) : Prop :=
  entry.fileName.toStringLossy = subject.name

instance (subject : Subject) : DecidablePred (Named subject) :=
  fun _ => inferInstanceAs (Decidable (_ = _))

/-- The entries that have a subject's name, in listing order. -/
def copiesIn (entries : List DirEntry) (subject : Subject) :
    List DirEntry :=
  entries.filter (Named subject)

theorem mem_copiesIn {entries : List DirEntry} {subject : Subject}
    {entry : DirEntry} :
    entry ∈ copiesIn entries subject ↔
      entry ∈ entries ∧ Named subject entry := by
  rw [copiesIn, List.mem_filter, decide_eq_true_eq]

variable {v : Verifier} {files : FileSystem}

theorem checkCopies_eq_mapM (subject : Subject) (display : String)
    (entries : List DirEntry) :
    checkCopies v files subject display entries =
      (copiesIn entries subject).mapM
        (checkArtifact v files subject display) := by
  induction entries with
  | nil => rfl
  | cons entry rest ih =>
      unfold checkCopies
      by_cases hname : entry.fileName.toStringLossy = subject.name
      · have hcopies : copiesIn (entry :: rest) subject =
            entry :: copiesIn rest subject :=
          List.filter_cons_of_pos (decide_eq_true hname)
        rw [if_pos hname, hcopies, List.mapM_cons, ih]
        rfl
      · have hcopies : copiesIn (entry :: rest) subject =
            copiesIn rest subject :=
          List.filter_cons_of_neg fun h => hname (of_decide_eq_true h)
        rw [if_neg hname, hcopies, ih]

theorem verifySubjects_eq_mapM (topLevel artifacts : List DirEntry)
    (subjects : List Subject) :
    verifySubjects v files topLevel artifacts subjects =
      (do
        let groups ← subjects.mapM (verifySubject v files topLevel artifacts)
        .ok groups.flatten) := by
  induction subjects with
  | nil => rfl
  | cons subject rest ih =>
      rw [verifySubjects, List.mapM_cons, ih]
      cases verifySubject v files topLevel artifacts subject with
      | error message => rfl
      | ok results =>
          cases rest.mapM (verifySubject v files topLevel artifacts) <;> rfl

/-- The bytes of a file that can be read have a subject's digest. -/
def HasDigest (v : Verifier) (files : FileSystem) (subject : Subject)
    (entry : DirEntry) : Prop :=
  ∃ bytes, files.read entry.path = .ok bytes ∧
    lowerHex.encode (v.sha256 bytes).toList = subject.digest.value

/-- The check of one copy: its result says whether the digest is right. -/
theorem checkArtifact_ok (hhex : v.hex = lowerHex) {subject : Subject}
    {display : String} {entry : DirEntry} {result : Verification}
    (hok : checkArtifact v files subject display entry = .ok result) :
    result.isSuccess = true ↔ HasDigest v files subject entry := by
  unfold checkArtifact at hok
  obtain ⟨bytes, hbytes, hcompare⟩ := bind_eq_ok_iff.mp hok
  rw [hhex] at hcompare
  have hdigest : HasDigest v files subject entry ↔
      lowerHex.encode (v.sha256 bytes).toList = subject.digest.value := by
    constructor
    · rintro ⟨other, hother, hsame⟩
      rw [hbytes] at hother
      cases hother
      exact hsame
    · exact fun hsame => ⟨bytes, hbytes, hsame⟩
  rw [hdigest]
  split at hcompare
  · rename_i hsame
    cases hcompare
    exact iff_of_true rfl hsame
  · rename_i hdiffer
    cases hcompare
    exact iff_of_false Bool.false_ne_true hdiffer

theorem checkArtifact_error_iff {subject : Subject} {display : String}
    {entry : DirEntry} :
    (∃ message, checkArtifact v files subject display entry =
        .error message) ↔
      ∃ message, files.read entry.path = .error message := by
  unfold checkArtifact
  cases files.read entry.path with
  | error message => simp
  | ok bytes =>
      rw [ok_bind]
      split <;> simp

/-- The results for one subject: the copies at the top level, then those in
artifacts/, or that there are none. -/
def ResultsOf (v : Verifier) (files : FileSystem)
    (topLevel artifacts : List DirEntry) (subject : Subject)
    (results : List Verification) : Prop :=
  ∃ top nested,
    List.Forall₂ (fun entry result =>
      checkArtifact v files subject subject.name entry = .ok result)
      (copiesIn topLevel subject) top ∧
    List.Forall₂ (fun entry result =>
      checkArtifact v files subject s!"artifacts/{subject.name}" entry =
        .ok result)
      (copiesIn artifacts subject) nested ∧
    results = if top ++ nested = [] then [missingArtifact subject]
      else top ++ nested

theorem verifySubject_eq_ok_iff {topLevel artifacts : List DirEntry}
    {subject : Subject} {results : List Verification} :
    verifySubject v files topLevel artifacts subject = .ok results ↔
      ResultsOf v files topLevel artifacts subject results := by
  unfold verifySubject ResultsOf
  simp only [bind_eq_ok_iff, checkCopies_eq_mapM, mapM_eq_ok_iff,
    Except.ok.injEq]
  constructor
  · rintro ⟨top, htop, nested, hnested, rfl⟩
    exact ⟨top, nested, htop, hnested, rfl⟩
  · rintro ⟨top, nested, htop, hnested, rfl⟩
    exact ⟨top, htop, nested, hnested, rfl⟩

/-- As many results as there are copies, and one where there are none. -/
theorem ResultsOf.length {topLevel artifacts : List DirEntry}
    {subject : Subject} {results : List Verification}
    (hresults : ResultsOf v files topLevel artifacts subject results) :
    results.length = max 1 ((copiesIn topLevel subject).length +
      (copiesIn artifacts subject).length) := by
  obtain ⟨top, nested, htop, hnested, rfl⟩ := hresults
  rw [htop.length_eq, hnested.length_eq, ← List.length_append]
  by_cases hempty : top ++ nested = []
  · rw [if_pos hempty, hempty]
    rfl
  · have hpos : 0 < (top ++ nested).length :=
      List.length_pos_iff.mpr hempty
    rw [if_neg hempty]
    omega

/-- The subject has a copy, and every copy has its digest. -/
def SubjectMatches (v : Verifier) (files : FileSystem)
    (topLevel artifacts : List DirEntry) (subject : Subject) : Prop :=
  (∃ entry ∈ topLevel ++ artifacts, Named subject entry) ∧
    ∀ entry ∈ topLevel ++ artifacts, Named subject entry →
      HasDigest v files subject entry

/-- The results of the copies in one list. -/
theorem copies_isSuccess_iff (hhex : v.hex = lowerHex) {subject : Subject}
    {display : String} {entries : List DirEntry}
    {results : List Verification}
    (hresults : List.Forall₂ (fun entry result =>
      checkArtifact v files subject display entry = .ok result)
      (copiesIn entries subject) results) :
    (∀ result ∈ results, result.isSuccess = true) ↔
      ∀ entry ∈ entries, Named subject entry →
        HasDigest v files subject entry := by
  have hcopies : (∀ result ∈ results, result.isSuccess = true) ↔
      ∀ entry ∈ copiesIn entries subject,
        HasDigest v files subject entry := by
    refine forall_mem_iff_of_forall₂ ?_ hresults
    intro entry result hok
    exact checkArtifact_ok hhex hok
  rw [hcopies]
  simp only [mem_copiesIn, and_imp]

theorem ResultsOf.isSuccess_iff (hhex : v.hex = lowerHex)
    {topLevel artifacts : List DirEntry} {subject : Subject}
    {results : List Verification}
    (hresults : ResultsOf v files topLevel artifacts subject results) :
    (∀ result ∈ results, result.isSuccess = true) ↔
      SubjectMatches v files topLevel artifacts subject := by
  obtain ⟨top, nested, htop, hnested, rfl⟩ := hresults
  have hall : (∀ result ∈ top ++ nested, result.isSuccess = true) ↔
      ∀ entry ∈ topLevel ++ artifacts, Named subject entry →
        HasDigest v files subject entry := by
    rw [List.forall_mem_append, List.forall_mem_append,
      copies_isSuccess_iff hhex htop, copies_isSuccess_iff hhex hnested]
  have hnone : top ++ nested = [] ↔
      ¬ ∃ entry ∈ topLevel ++ artifacts, Named subject entry := by
    rw [← List.length_eq_zero_iff, List.length_append, ← htop.length_eq,
      ← hnested.length_eq, ← List.length_append, List.length_eq_zero_iff,
      copiesIn, copiesIn, ← List.filter_append, List.filter_eq_nil_iff]
    simp only [decide_eq_true_eq, not_exists, not_and]
  by_cases hempty : top ++ nested = []
  · rw [if_pos hempty]
    refine iff_of_false ?_ fun hmatch => hnone.mp hempty hmatch.1
    simp [missingArtifact, Verification.isSuccess]
  · rw [if_neg hempty, hall]
    exact ⟨fun h => ⟨not_not.mp (mt hnone.mpr hempty), h⟩, fun h => h.2⟩

/-- A subject is given up where a copy of it cannot be read. -/
theorem verifySubject_error_iff {topLevel artifacts : List DirEntry}
    {subject : Subject} :
    (∃ message, verifySubject v files topLevel artifacts subject =
        .error message) ↔
      ∃ entry ∈ topLevel ++ artifacts, Named subject entry ∧
        ∃ message, files.read entry.path = .error message := by
  have hcopies : ∀ (display : String) (entries : List DirEntry),
      (∃ message, (copiesIn entries subject).mapM
          (checkArtifact v files subject display) = .error message) ↔
        ∃ entry ∈ entries, Named subject entry ∧
          ∃ message, files.read entry.path = .error message := by
    intro display entries
    rw [exists_mapM_eq_error_iff]
    simp only [mem_copiesIn, checkArtifact_error_iff, and_assoc]
  have hsplit : (∃ entry ∈ topLevel ++ artifacts, Named subject entry ∧
      ∃ message, files.read entry.path = .error message) ↔
      (∃ entry ∈ topLevel, Named subject entry ∧
        ∃ message, files.read entry.path = .error message) ∨
      ∃ entry ∈ artifacts, Named subject entry ∧
        ∃ message, files.read entry.path = .error message := by
    simp only [List.mem_append, or_and_right, exists_or]
  rw [hsplit, ← hcopies subject.name, ← hcopies s!"artifacts/{subject.name}",
    verifySubject, checkCopies_eq_mapM, checkCopies_eq_mapM]
  cases (copiesIn topLevel subject).mapM
      (checkArtifact v files subject subject.name) with
  | error message => simp
  | ok top =>
      rw [ok_bind]
      cases (copiesIn artifacts subject).mapM
          (checkArtifact v files subject s!"artifacts/{subject.name}") with
      | error message => simp
      | ok nested => simp

/-- The report, subject by subject. -/
structure ReportOf (v : Verifier) (files : FileSystem)
    (subjects : List Subject) (topLevel artifacts : List DirEntry)
    (report : ArtifactReport) : Prop where
  success : (∀ result ∈ report.results, result.isSuccess = true) ↔
    ∀ subject ∈ subjects, SubjectMatches v files topLevel artifacts subject
  count : report.results.length = (subjects.map fun subject =>
    max 1 (((topLevel ++ artifacts).filter (Named subject)).length)).sum
  order : ∃ groups,
    List.Forall₂ (ResultsOf v files topLevel artifacts) subjects groups ∧
      report.results = groups.flatten
  warnings : report.warnings =
    (artifacts.filter fun entry => ∀ subject ∈ subjects,
      ¬ Named subject entry).map fun entry =>
        s!"artifacts/{entry.fileName.toStringLossy} is not listed in provenance.json"

theorem reportOf_flatten (hhex : v.hex = lowerHex) {subjects : List Subject}
    {topLevel artifacts : List DirEntry} {groups : List (List Verification)}
    (hgroups : List.Forall₂ (ResultsOf v files topLevel artifacts)
      subjects groups) :
    ReportOf v files subjects topLevel artifacts
      ⟨groups.flatten, artifactWarnings subjects artifacts⟩ where
  success := by
    rw [List.forall_mem_flatten]
    exact forall_mem_iff_of_forall₂
      (fun _ _ hresults => hresults.isSuccess_iff hhex) hgroups
  count := by
    rw [List.length_flatten]
    congr 1
    induction hgroups with
    | nil => rfl
    | cons hresults _ ih =>
        rw [List.map_cons, List.map_cons, ih, hresults.length,
          List.filter_append, List.length_append]
        rfl
  order := ⟨groups, hgroups, rfl⟩
  warnings := by
    have hunlisted : ∀ entry : DirEntry,
        (subjects.all fun subject =>
          decide (subject.name ≠ entry.fileName.toStringLossy)) =
          decide (∀ subject ∈ subjects, ¬ Named subject entry) := by
      intro entry
      rw [Bool.eq_iff_iff, List.all_eq_true, decide_eq_true_eq]
      simp only [decide_eq_true_eq, Named, ne_comm, ne_eq]
    simp only [artifactWarnings, hunlisted]

/-- The artifacts are reported on exactly: an unreadable copy is an error, and
otherwise every subject has its results and every other file its warning. -/
theorem verifyArtifacts_exact (hhex : v.hex = lowerHex) (files : FileSystem)
    (provenance : Provenance) (topLevel artifacts : List DirEntry) :
    ((∃ message, verifyArtifacts v files provenance topLevel artifacts =
        .error message) ↔
      ∃ subject ∈ provenance.subject, ∃ entry ∈ topLevel ++ artifacts,
        Named subject entry ∧
          ∃ message, files.read entry.path = .error message) ∧
    ∀ report, verifyArtifacts v files provenance topLevel artifacts =
        .ok report →
      ReportOf v files provenance.subject topLevel artifacts report := by
  unfold verifyArtifacts
  have herrors : (∃ subject ∈ provenance.subject,
      ∃ entry ∈ topLevel ++ artifacts, Named subject entry ∧
        ∃ message, files.read entry.path = .error message) ↔
      ∃ message, provenance.subject.mapM
        (verifySubject v files topLevel artifacts) = .error message := by
    rw [exists_mapM_eq_error_iff]
    simp only [verifySubject_error_iff]
  rw [verifySubjects_eq_mapM, herrors]
  cases hgroups : provenance.subject.mapM
      (verifySubject v files topLevel artifacts) with
  | error message => simp
  | ok groups =>
      refine ⟨by simp, ?_⟩
      intro report hreport
      cases hreport
      refine reportOf_flatten hhex ?_
      simpa only [verifySubject_eq_ok_iff] using mapM_eq_ok_iff.mp hgroups

/-- A program beside provenance.json and another one in artifacts/. -/
def copiesDir : FileSystem where
  nodes := ⟨[
    (["out"], .dir),
    (["out", "rg"], .file ⟨true, [1]⟩),
    (["out", "artifacts"], .dir),
    (["out", "artifacts", "rg"], .file ⟨true, [2]⟩)], by decide⟩
  closed := by decide

def copiesProvenance : Provenance :=
  { demoProvenance "9fceb02d" with
    subject := [⟨.sha256 (lowerHex.encode (Bytes.zeroPadVec 32 [1]).toList),
      "rg"⟩] }

/-- Both copies have a result, the good one first. -/
theorem verifyArtifacts_exact_copies :
    ∃ report, verifyArtifacts rejecting copiesDir copiesProvenance
        [⟨"rg", ["out", "rg"]⟩] [⟨"rg", ["out", "artifacts", "rg"]⟩] =
          .ok report ∧
      report.results.map Verification.isSuccess = [true, false] ∧
      ReportOf rejecting copiesDir copiesProvenance.subject
        [⟨"rg", ["out", "rg"]⟩] [⟨"rg", ["out", "artifacts", "rg"]⟩]
        report := by
  have hreport := verifyArtifacts_exact (v := rejecting) rfl copiesDir
    copiesProvenance [⟨"rg", ["out", "rg"]⟩]
    [⟨"rg", ["out", "artifacts", "rg"]⟩]
  exact ⟨_, rfl, by decide +kernel, hreport.2 _ rfl⟩

end Verify

end Kettle
