/-
Whether a build passes the check of its own artifacts.  The collectors copy
what they find into one directory, by name; the check looks every name up in
that directory and in the one above it, where the provenance lies.
-/
import Kettle.Toolchain.StaleArtifacts
import Kettle.Toolchain.StorePaths
import Kettle.Verify.Verdict

namespace Kettle

namespace Toolchain

open Verify (Verifier DirEntry)

/-- The verifier uses the hash, the digits and the JSON of the build. -/
structure Agrees (v : Verifier) (host : Host) : Prop where
  hex : v.hex = host.hex
  sha256 : v.sha256 = host.sha256
  json : v.json = host.json

/-- The written provenance is read back, the check of the artifacts over the
regular files reports no failure, and each subject is a file of that name. -/
structure VerifiesItself (v : Verifier) (path : Path)
    (provenance : Provenance) (final : FileSystem) : Prop where
  readsBack : ∃ bytes, final.read (provenanceFile path) = .ok bytes ∧
    Provenance.fromJson v.json bytes = some provenance
  noFailure : ∃ topLevel artifacts report,
    Verify.regularFiles final (outputDir path) = .ok topLevel ∧
    Verify.artifactFiles final (artifactsDir path) = .ok artifacts ∧
    Verify.verifyArtifacts v final provenance topLevel artifacts =
      .ok report ∧
    ∀ result ∈ report.results, result.isSuccess = true
  recorded : ∀ subject ∈ provenance.subject,
    Verify.DigestMatches v final subject
      (artifactsDir path ++ [.text subject.name])
  distinct : (provenance.subject.map (·.name)).Nodup

/-- A file of the build directory, or of the artifacts, that is listed under
the name. -/
def CopyAt (path : Path) (files : FileSystem) (text : String) (copy : Path) :
    Prop :=
  ∃ name : OsStr, name.toStringLossy = text ∧
    (copy = outputDir path ++ [name] ∨ copy = artifactsDir path ++ [name]) ∧
    files.isOwnFile copy = true

/-- Each subject has a copy, and all of its copies have its digest. -/
def ArtifactsHold (host : Host) (path : Path) (provenance : Provenance)
    (files : FileSystem) : Prop :=
  ∀ subject ∈ provenance.subject,
    (∃ copy, CopyAt path files subject.name copy) ∧
      ∀ copy, CopyAt path files subject.name copy →
        ∃ bytes, files.read copy = .ok bytes ∧
          host.sha256Hex bytes = subject.digest.value

/-- A file that was there before the collector ran, and that passes for a
copy of the artifact. -/
def InTheWay (path : Path) (ready : FileSystem) (entry : Found)
    (copy : Path) : Prop :=
  CopyAt path ready entry.name.toStringLossy copy ∧
    copy ≠ entry.stagedPath (artifactsDir path)

/-- No file that is written goes by another name in the directories that are
read, and no place that is copied to leads to a directory. -/
structure FilesApart (path : Path) (dirs : List Path) (found : List Found)
    (ready : FileSystem) : Prop where
  places : PlacesApart (artifactsDir path) (outputDir path :: dirs) found
    ready
  provenance : ready.Apart [outputDir path, artifactsDir path]
    (provenanceFile path)
  notDirs : ∀ entry ∈ found,
    ready.isDir (entry.stagedPath (artifactsDir path)) = false

/-- No two artifacts are copied to one name, none is called like the
provenance, and what else passes for an artifact has its hash.  A place that
remains a link is not listed, and needs another copy. -/
structure NothingInTheWay (host : Host) (linked : FileSystem → Path → Bool)
    (path : Path) (ready : FileSystem) (found : List Found) : Prop where
  distinct : (found.map fun entry => entry.name.toStringLossy).Nodup
  notProvenance : ∀ entry ∈ found,
    entry.name.toStringLossy = "provenance.json" →
      ready.isLink (provenanceFile path) = true
  readable : ∀ place ∈ [outputDir path, artifactsDir path,
    provenanceFile path], ready.isDenied place = false
  sameHash : ∀ entry ∈ found, ∀ copy, InTheWay path ready entry copy →
    ∃ bytes, ready.read copy = .ok bytes ∧
      host.sha256 bytes = host.sha256 entry.file.contents
  listed : ∀ entry ∈ found,
    linked ready (entry.stagedPath (artifactsDir path)) = true →
      ∃ copy, InTheWay path ready entry copy

/-- No subject has the digest of the provenance that records it. -/
def NotOwnDigest (host : Host) (provenance : Provenance) : Prop :=
  ∀ subject ∈ provenance.subject,
    subject.digest.value ≠ host.sha256Hex (provenance.toJson host.json)

section Listing

variable {files : FileSystem} {dir : Path}

/-- The entries of a listing are the files of the directory. -/
def Lists (files : FileSystem) (dir : Path) (entries : List DirEntry) : Prop :=
  ∀ entry, entry ∈ entries ↔
    entry.path = dir ++ [entry.fileName] ∧
      files.isOwnFile entry.path = true

theorem isFile_of_isOwnFile {path : Path}
    (hfile : files.isOwnFile path = true) : files.isFile path = true :=
  (Bool.and_eq_true_iff.mp hfile).1

theorem readDir_of_isDir (hdir : files.isDir dir = true)
    (hread : files.isDenied dir = false) :
    ∃ names, files.readDir dir = .ok names := by
  unfold FileSystem.readDir
  rw [hdir, hread]
  exact ⟨_, rfl⟩

theorem isDenied_of_readDir {names : List OsStr}
    (hok : files.readDir dir = .ok names) : files.isDenied dir = false := by
  unfold FileSystem.readDir at hok
  split at hok
  · rename_i hread
    rw [Bool.and_eq_true, Bool.not_eq_true'] at hread
    exact hread.2
  · cases hok

theorem regularFiles_lists {entries : List DirEntry}
    (hok : Verify.regularFiles files dir = .ok entries) :
    Lists files dir entries := by
  obtain ⟨names, hnames, hresult⟩ := bind_eq_ok_iff.mp hok
  cases hresult
  rintro ⟨name, path⟩
  simp only [List.mem_map, List.mem_filter, Verify.DirEntry.mk.injEq]
  constructor
  · rintro ⟨other, ⟨-, hfile⟩, rfl, rfl⟩
    exact ⟨rfl, hfile⟩
  · rintro ⟨rfl, hfile⟩
    refine ⟨name, ⟨(FileSystem.mem_readDir_iff hnames name).mpr ?_, hfile⟩,
      rfl, rfl⟩
    have hthere := isFile_of_isOwnFile hfile
    unfold FileSystem.isFile FileSystem.fileAt at hthere
    cases hnode : files.get? (dir ++ [name]) with
    | none => simp [hnode] at hthere
    | some node => rfl

/-- A directory that may be read is listed. -/
theorem regularFiles_spec (hdir : files.isDir dir = true) :
    (∃ entries, Verify.regularFiles files dir = .ok entries) ↔
      files.isDenied dir = false := by
  constructor
  · rintro ⟨entries, hok⟩
    obtain ⟨names, hnames, -⟩ := bind_eq_ok_iff.mp hok
    exact isDenied_of_readDir hnames
  · intro hread
    obtain ⟨names, hnames⟩ := readDir_of_isDir hdir hread
    exact ⟨_, bind_eq_ok_iff.mpr ⟨names, hnames, rfl⟩⟩

theorem artifactFiles_lists {entries : List DirEntry}
    (hok : Verify.artifactFiles files dir = .ok entries) :
    Lists files dir entries := by
  unfold Verify.artifactFiles at hok
  split at hok
  · exact regularFiles_lists hok
  · rename_i hnotDir
    cases hok
    rintro ⟨name, path⟩
    refine iff_of_false List.not_mem_nil ?_
    rintro ⟨hpath, hfile⟩
    simp only at hpath
    subst hpath
    exact hnotDir (FileSystem.isDir_of_isFile _ (isFile_of_isOwnFile hfile))

/-- The directory of the artifacts may be missing. -/
theorem artifactFiles_spec (files : FileSystem) (dir : Path) :
    (∃ entries, Verify.artifactFiles files dir = .ok entries) ↔
      (files.isDir dir = true → files.isDenied dir = false) := by
  unfold Verify.artifactFiles
  cases hdir : files.isDir dir with
  | true => simpa using regularFiles_spec hdir
  | false => simp

end Listing

variable {host : Host} {v : Verifier} {path : Path} {provenance : Provenance}

/-- The copies of a subject are the regular files of its name. -/
theorem copyAt_iff {files : FileSystem} {build : Verify.Build}
    {subject : Subject}
    (htop : Lists files (outputDir path) build.topLevel)
    (hnested : Lists files (artifactsDir path) build.artifacts)
    (copy : Path) :
    CopyAt path files subject.name copy ↔
      ∃ entry, Verify.CopyOf build subject entry ∧ entry.path = copy := by
  unfold Verify.CopyOf
  simp only [List.mem_append, htop _, hnested _]
  constructor
  · rintro ⟨name, hname, rfl | rfl, hfile⟩
    · exact ⟨⟨name, _⟩, ⟨.inl ⟨rfl, hfile⟩, hname⟩, rfl⟩
    · exact ⟨⟨name, _⟩, ⟨.inr ⟨rfl, hfile⟩, hname⟩, rfl⟩
  · rintro ⟨entry, ⟨⟨hpath, hfile⟩ | ⟨hpath, hfile⟩, hname⟩, rfl⟩
    · exact ⟨entry.fileName, hname, .inl hpath, hfile⟩
    · exact ⟨entry.fileName, hname, .inr hpath, hfile⟩

theorem digestMatches_iff (hagrees : Agrees v host) {files : FileSystem}
    {subject : Subject} {copy : Path} :
    Verify.DigestMatches v files subject copy ↔
      ∃ bytes, files.read copy = .ok bytes ∧
        host.sha256Hex bytes = subject.digest.value := by
  unfold Verify.DigestMatches Host.sha256Hex
  rw [hagrees.hex, hagrees.sha256]

/-- What the check of a subject comes down to. -/
theorem subjectHolds_iff (hagrees : Agrees v host) {files : FileSystem}
    {build : Verify.Build} {subject : Subject}
    (htop : Lists files (outputDir path) build.topLevel)
    (hnested : Lists files (artifactsDir path) build.artifacts) :
    Verify.SubjectHolds v files build subject ↔
      (∃ copy, CopyAt path files subject.name copy) ∧
        ∀ copy, CopyAt path files subject.name copy →
          ∃ bytes, files.read copy = .ok bytes ∧
            host.sha256Hex bytes = subject.digest.value := by
  unfold Verify.SubjectHolds
  simp only [copyAt_iff htop hnested, digestMatches_iff hagrees]
  constructor
  · rintro ⟨⟨entry, hcopy⟩, hall⟩
    refine ⟨⟨entry.path, entry, hcopy, rfl⟩, ?_⟩
    rintro _ ⟨other, hother, rfl⟩
    exact hall other hother
  · rintro ⟨⟨_, entry, hcopy, -⟩, hall⟩
    exact ⟨⟨entry, hcopy⟩, fun other hother => hall _ ⟨other, hother, rfl⟩⟩

/-- Subjects that hold have been read. -/
theorem copiesRead_of_holds {files : FileSystem} {build : Verify.Build}
    {subject : Subject}
    (hholds : Verify.SubjectHolds v files build subject) :
    Verify.CopiesRead files subject (build.topLevel ++ build.artifacts) := by
  intro entry hentry hname
  obtain ⟨bytes, hbytes, -⟩ := hholds.2 entry ⟨hentry, hname⟩
  exact ⟨bytes, hbytes⟩

/-- The check of all artifacts, over the regular files. -/
theorem noFailure_iff (hagrees : Agrees v host) {files : FileSystem}
    (hdir : files.isDir (outputDir path) = true) :
    (∃ topLevel artifacts report,
      Verify.regularFiles files (outputDir path) = .ok topLevel ∧
      Verify.artifactFiles files (artifactsDir path) = .ok artifacts ∧
      Verify.verifyArtifacts v files provenance topLevel artifacts =
        .ok report ∧
      ∀ result ∈ report.results, result.isSuccess = true) ↔
      files.isDenied (outputDir path) = false ∧
        (files.isDir (artifactsDir path) = true →
          files.isDenied (artifactsDir path) = false) ∧
        ArtifactsHold host path provenance files := by
  rw [← regularFiles_spec hdir, ← artifactFiles_spec files]
  constructor
  · rintro ⟨topLevel, artifacts, report, htop, hartifacts, hreport, hall⟩
    refine ⟨⟨_, htop⟩, ⟨_, hartifacts⟩, fun subject hsubject => ?_⟩
    obtain ⟨results, hresults, -⟩ := bind_eq_ok_iff.mp hreport
    obtain ⟨other, hother, hdecides⟩ :=
      @Verify.verifyArtifacts_spec v files ⟨[], [], topLevel, artifacts⟩
        provenance (Verify.copiesRead_of_verifySubjects hresults)
    cases hother.symm.trans hreport
    have hiff : Verify.SubjectHolds v files ⟨[], [], topLevel, artifacts⟩
        subject ↔ _ := subjectHolds_iff hagrees (regularFiles_lists htop)
      (artifactFiles_lists hartifacts)
    exact hiff.mp (hdecides.mp hall subject hsubject)
  · rintro ⟨⟨topLevel, htop⟩, ⟨artifacts, hartifacts⟩, hholds⟩
    have hsubjects : ∀ subject ∈ provenance.subject,
        Verify.SubjectHolds v files ⟨[], [], topLevel, artifacts⟩
          subject := fun subject hsubject =>
      (subjectHolds_iff hagrees (regularFiles_lists htop)
        (artifactFiles_lists hartifacts)).mpr (hholds subject hsubject)
    obtain ⟨report, hreport, hdecides⟩ :=
      @Verify.verifyArtifacts_spec v files ⟨[], [], topLevel, artifacts⟩
        provenance fun subject hsubject =>
          copiesRead_of_holds (hsubjects subject hsubject)
    exact ⟨topLevel, artifacts, report, htop, hartifacts, hreport,
      hdecides.mpr hsubjects⟩

/-- How an artifact is recorded. -/
def Found.subject (host : Host) (entry : Found) : Subject :=
  ⟨.sha256 (host.sha256Hex entry.file.contents), entry.name.toStringLossy⟩

/-- What a run has collected, staged and written. -/
structure Collected (host : Host) (linked : FileSystem → Path → Bool)
    (path : Path) (ready : FileSystem) (found : List Found)
    (provenance : Provenance) (final : FileSystem) : Prop where
  subject : provenance.subject = found.map (Found.subject host)
  integerCounts : provenance.IntegerCounts
  isDir : ready.isDir (artifactsDir path) = true
  written : ∃ artifacts staged,
    Staged host linked (artifactsDir path) found ready artifacts staged ∧
    staged.writeFile (provenanceFile path)
      ⟨false, provenance.toJson host.json⟩ = .ok final

namespace Collected

variable {linked : FileSystem → Path → Bool} {dirs : List Path}
  {ready final : FileSystem} {found : List Found}

theorem fileAt_provenance
    (hcollected : Collected host linked path ready found provenance final) :
    final.fileAt (provenanceFile path) =
      some ⟨false, provenance.toJson host.json⟩ := by
  obtain ⟨artifacts, staged, -, hwritten⟩ := hcollected.written
  exact FileSystem.fileAt_writeFile_self hwritten

theorem isDir_outputDir
    (hcollected : Collected host linked path ready found provenance final) :
    final.isDir (outputDir path) = true := by
  refine FileSystem.isDir_of_isFile (.text "provenance.json") ?_
  exact Option.isSome_iff_exists.mpr ⟨_, hcollected.fileAt_provenance⟩

theorem isDir_eq
    (hcollected : Collected host linked path ready found provenance final)
    (other : Path) : final.isDir other = ready.isDir other := by
  obtain ⟨artifacts, staged, hstaged, hwritten⟩ := hcollected.written
  rw [FileSystem.isDir_writeFile hwritten, hstaged.isDir]

theorem marks_subset
    (hcollected : Collected host linked path ready found provenance final) :
    final.marks ⊆ ready.marks := by
  obtain ⟨artifacts, staged, hstaged, hwritten⟩ := hcollected.written
  rw [FileSystem.marks_writeFile hwritten]
  exact hstaged.marks

/-- Only a place that is copied to may be read now. -/
theorem isDenied_eq
    (hcollected : Collected host linked path ready found provenance final)
    {other : Path} (hother : ready.isDir other = true ∨ ∀ entry ∈ found,
      ready.sameFile (entry.stagedPath (artifactsDir path)) other = false) :
    final.isDenied other = ready.isDenied other := by
  obtain ⟨artifacts, staged, hstaged, hwritten⟩ := hcollected.written
  rw [FileSystem.isDenied, FileSystem.marks_writeFile hwritten,
    ← hstaged.isDenied other hother, FileSystem.isDenied]

/-- A file that is no place is another file. -/
theorem place_sameFile (hapart : FilesApart path dirs found ready)
    {copy : Path} (hdir : copy.dropLast = outputDir path ∨
      copy.dropLast = artifactsDir path)
    (hplace : ∀ entry ∈ found,
      entry.stagedPath (artifactsDir path) ≠ copy) :
    ∀ entry ∈ found,
      ready.sameFile (entry.stagedPath (artifactsDir path)) copy = false := by
  intro entry hentry
  refine (hapart.places entry hentry).sameFile_eq_false ?_
    (hplace entry hentry)
  rcases hdir with hdir | hdir
  · simp [hdir]
  · simp [hdir]

theorem isLink_eq
    (hcollected : Collected host linked path ready found provenance final)
    {other : Path} (hplace : ∀ entry ∈ found,
      entry.stagedPath (artifactsDir path) ≠ other) :
    final.isLink other = ready.isLink other := by
  obtain ⟨artifacts, staged, hstaged, hwritten⟩ := hcollected.written
  rw [FileSystem.isLink, FileSystem.linkTarget?_of_marks
    (FileSystem.marks_writeFile hwritten), ← hstaged.isLink other hplace,
    FileSystem.isLink]

/-- What is neither a place nor the provenance is as it was. -/
theorem fileAt_eq
    (hcollected : Collected host linked path ready found provenance final)
    (hapart : FilesApart path dirs found ready) {copy : Path}
    (hdir : copy.dropLast = outputDir path ∨
      copy.dropLast = artifactsDir path)
    (hplace : ∀ entry ∈ found,
      entry.stagedPath (artifactsDir path) ≠ copy)
    (hprovenance : copy ≠ provenanceFile path) :
    final.fileAt copy = ready.fileAt copy := by
  obtain ⟨artifacts, staged, hstaged, hwritten⟩ := hcollected.written
  rw [FileSystem.fileAt_writeFile_of_other hwritten,
    hstaged.elsewhere copy (place_sameFile hapart hdir hplace)]
  refine (hapart.provenance.of_subset hstaged.marks).sameFile_eq_false ?_
    (Ne.symm hprovenance)
  simpa using hdir

theorem fileAt_staged
    (hcollected : Collected host linked path ready found provenance final)
    (hapart : FilesApart path dirs found ready)
    (hdistinct : (found.map fun entry => entry.name.toStringLossy).Nodup)
    {entry : Found} (hentry : entry ∈ found) :
    final.fileAt (entry.stagedPath (artifactsDir path)) =
      some entry.file := by
  obtain ⟨artifacts, staged, hstaged, hwritten⟩ := hcollected.written
  rw [FileSystem.fileAt_writeFile_of_other hwritten]
  · exact hstaged.copied hdistinct entry hentry
  · refine (hapart.provenance.of_subset hstaged.marks).sameFile_eq_false ?_ ?_
    · simp [Found.stagedPath]
    · simp [Found.stagedPath, provenanceFile, artifactsDir]

theorem read_staged
    (hcollected : Collected host linked path ready found provenance final)
    (hapart : FilesApart path dirs found ready)
    (hdistinct : (found.map fun entry => entry.name.toStringLossy).Nodup)
    {entry : Found} (hentry : entry ∈ found) :
    final.read (entry.stagedPath (artifactsDir path)) =
      .ok entry.file.contents := by
  refine FileSystem.read_eq_ok_iff.mpr ⟨⟨entry.file,
    hcollected.fileAt_staged hapart hdistinct hentry, rfl⟩, ?_⟩
  obtain ⟨artifacts, staged, hstaged, hwritten⟩ := hcollected.written
  rw [FileSystem.isDenied, FileSystem.marks_writeFile hwritten]
  exact hstaged.allowed entry hentry

theorem isOwnFile_staged
    (hcollected : Collected host linked path ready found provenance final)
    (hapart : FilesApart path dirs found ready)
    (hdistinct : (found.map fun entry => entry.name.toStringLossy).Nodup)
    {entry : Found} (hentry : entry ∈ found) :
    final.isOwnFile (entry.stagedPath (artifactsDir path)) =
      !linked ready (entry.stagedPath (artifactsDir path)) := by
  obtain ⟨artifacts, staged, hstaged, hwritten⟩ := hcollected.written
  have hlink : final.isLink (entry.stagedPath (artifactsDir path)) =
      linked ready (entry.stagedPath (artifactsDir path)) := by
    rw [FileSystem.isLink, FileSystem.linkTarget?_of_marks
      (FileSystem.marks_writeFile hwritten),
      ← hstaged.linked hdistinct entry hentry, FileSystem.isLink]
  rw [FileSystem.isOwnFile, FileSystem.isFile,
    hcollected.fileAt_staged hapart hdistinct hentry, hlink]
  rfl

/-- A copy that is no place is read as before, unless it is the
provenance. -/
theorem untouched
    (hcollected : Collected host linked path ready found provenance final)
    (hapart : FilesApart path dirs found ready) {copy : Path}
    (hdir : copy.dropLast = outputDir path ∨
      copy.dropLast = artifactsDir path)
    (hplace : ∀ entry ∈ found,
      entry.stagedPath (artifactsDir path) ≠ copy)
    (hprovenance : copy ≠ provenanceFile path) :
    final.isOwnFile copy = ready.isOwnFile copy ∧
      final.read copy = ready.read copy := by
  have hfile := hcollected.fileAt_eq hapart hdir hplace hprovenance
  have hdenied := hcollected.isDenied_eq
    (.inr (place_sameFile hapart hdir hplace))
  constructor
  · rw [FileSystem.isOwnFile, FileSystem.isFile, hfile,
      hcollected.isLink_eq hplace, FileSystem.isOwnFile, FileSystem.isFile]
  · rw [FileSystem.read, hfile, hdenied, FileSystem.read]

/-- What passes for a copy of the artifact in either tree, beside its place,
is the same in both. -/
theorem otherCopy
    (hcollected : Collected host linked path ready found provenance final)
    (hapart : FilesApart path dirs found ready) {entry : Found}
    (hname : entry.name.toStringLossy = "provenance.json" →
      ready.isLink (provenanceFile path) = true) {name : OsStr} {copy : Path}
    (hsame : name.toStringLossy = entry.name.toStringLossy)
    (hcopy : copy = outputDir path ++ [name] ∨
      copy = artifactsDir path ++ [name])
    (hplace : copy ≠ entry.stagedPath (artifactsDir path)) :
    final.isOwnFile copy = ready.isOwnFile copy ∧
      (ready.isOwnFile copy = true → final.read copy = ready.read copy) := by
  have hdir : copy.dropLast = outputDir path ∨
      copy.dropLast = artifactsDir path := by
    rcases hcopy with rfl | rfl
    · exact .inl List.dropLast_concat
    · exact .inr List.dropLast_concat
  -- the places of the other artifacts have other lossy names
  have hplaces : ∀ other ∈ found,
      other.stagedPath (artifactsDir path) ≠ copy := by
    rintro other - rfl
    refine hplace ?_
    rcases hcopy with hcopy | hcopy
    · simp [Found.stagedPath, artifactsDir] at hcopy
    · rw [Found.stagedPath, List.append_cancel_left_eq,
        List.singleton_inj] at hcopy
      subst hcopy
      rw [OsStr.toStringLossy_text] at hsame
      exact Found.stagedPath_inj.mpr hsame
  by_cases hprovenance : copy = provenanceFile path
  · -- the provenance is listed in neither tree, since it is a link
    have hlinked : ready.isLink copy = true := by
      rcases hcopy with hcopy | hcopy
      · rw [hcopy, provenanceFile, List.append_cancel_left_eq,
          List.singleton_inj] at hprovenance
        rw [hprovenance, OsStr.toStringLossy_text] at hsame
        rw [hcopy, hprovenance]
        exact hname hsame.symm
      · rw [hprovenance] at hcopy
        simp [provenanceFile, artifactsDir] at hcopy
    have hready : ready.isOwnFile copy = false := by
      rw [FileSystem.isOwnFile, hlinked, Bool.not_true, Bool.and_false]
    have hfinal : final.isOwnFile copy = false := by
      rw [FileSystem.isOwnFile, hcollected.isLink_eq hplaces, hlinked,
        Bool.not_true, Bool.and_false]
    rw [hready, hfinal]
    exact ⟨rfl, fun hown => by cases hown⟩
  · obtain ⟨hown, hread⟩ :=
      hcollected.untouched hapart hdir hplaces hprovenance
    exact ⟨hown, fun _ => hread⟩

/-- The copies of an artifact after the run are its own one, unless that
remains a link, and what was in the way. -/
theorem copyAt_iff
    (hcollected : Collected host linked path ready found provenance final)
    (hapart : FilesApart path dirs found ready)
    (hdistinct : (found.map fun entry => entry.name.toStringLossy).Nodup)
    {entry : Found} (hentry : entry ∈ found)
    (hname : entry.name.toStringLossy = "provenance.json" →
      ready.isLink (provenanceFile path) = true) (copy : Path) :
    CopyAt path final entry.name.toStringLossy copy ↔
      copy = entry.stagedPath (artifactsDir path) ∧
          linked ready copy = false ∨
        InTheWay path ready entry copy := by
  have hplaceOwn := hcollected.isOwnFile_staged hapart hdistinct hentry
  by_cases hplace : copy = entry.stagedPath (artifactsDir path)
  · subst hplace
    have hway : ¬ InTheWay path ready entry
        (entry.stagedPath (artifactsDir path)) := fun hway => hway.2 rfl
    rw [or_iff_left hway, and_iff_right rfl]
    constructor
    · rintro ⟨-, -, -, hown⟩
      rwa [hplaceOwn, Bool.not_eq_true'] at hown
    · intro hlinked
      rw [hlinked] at hplaceOwn
      exact ⟨.text entry.name.toStringLossy, OsStr.toStringLossy_text _,
        .inr rfl, hplaceOwn⟩
  · rw [or_iff_right fun hown => hplace hown.1, InTheWay,
      and_iff_left hplace]
    refine exists_congr fun name => and_congr_right fun hsame =>
      and_congr_right fun hcopy => ?_
    rw [(hcollected.otherCopy hapart hname hsame hcopy hplace).1]

/-- What was in the way is read as before. -/
theorem read_inTheWay
    (hcollected : Collected host linked path ready found provenance final)
    (hapart : FilesApart path dirs found ready) {entry : Found}
    (hname : entry.name.toStringLossy = "provenance.json" →
      ready.isLink (provenanceFile path) = true) {copy : Path}
    (hway : InTheWay path ready entry copy) :
    final.read copy = ready.read copy := by
  obtain ⟨⟨name, hsame, hcopy, hown⟩, hplace⟩ := hway
  exact (hcollected.otherCopy hapart hname hsame hcopy hplace).2 hown

theorem subject_names
    (hcollected : Collected host linked path ready found provenance final) :
    provenance.subject.map (·.name) =
      found.map fun entry => entry.name.toStringLossy := by
  rw [hcollected.subject, List.map_map]
  rfl

/-- The documents and the directories may be read as before. -/
theorem readable_iff
    (hcollected : Collected host linked path ready found provenance final)
    (hapart : FilesApart path dirs found ready) :
    (∀ place ∈ [outputDir path, artifactsDir path, provenanceFile path],
      ready.isDenied place = false) ↔
      final.isDenied (outputDir path) = false ∧
        (final.isDir (artifactsDir path) = true →
          final.isDenied (artifactsDir path) = false) ∧
        final.isDenied (provenanceFile path) = false := by
  have houtput : ready.isDir (outputDir path) = true := by
    rw [← hcollected.isDir_eq]
    exact hcollected.isDir_outputDir
  have hplace : ∀ entry ∈ found,
      ready.sameFile (entry.stagedPath (artifactsDir path))
        (provenanceFile path) = false :=
    place_sameFile hapart (.inl (by simp [provenanceFile]))
      fun entry _ => by
        simp [Found.stagedPath, provenanceFile, artifactsDir]
  rw [hcollected.isDenied_eq (.inl houtput),
    hcollected.isDenied_eq (.inl hcollected.isDir),
    hcollected.isDenied_eq (.inr hplace), hcollected.isDir_eq,
    hcollected.isDir]
  simp

/-- The artifacts hold when nothing is in the way. -/
theorem artifactsHold
    (hcollected : Collected host linked path ready found provenance final)
    (hapart : FilesApart path dirs found ready)
    (hclear : NothingInTheWay host linked path ready found) :
    ArtifactsHold host path provenance final := by
  unfold ArtifactsHold
  rw [hcollected.subject]
  intro subject hsubject
  obtain ⟨entry, hentry, rfl⟩ := List.mem_map.mp hsubject
  have hname := hclear.notProvenance entry hentry
  have hcopies := hcollected.copyAt_iff hapart hclear.distinct hentry hname
  constructor
  · cases hlinked : linked ready (entry.stagedPath (artifactsDir path)) with
    | false => exact ⟨_, (hcopies _).mpr (.inl ⟨rfl, hlinked⟩)⟩
    | true =>
        obtain ⟨copy, hway⟩ := hclear.listed entry hentry hlinked
        exact ⟨copy, (hcopies copy).mpr (.inr hway)⟩
  · intro copy hcopy
    rcases (hcopies copy).mp hcopy with ⟨rfl, -⟩ | hway
    · exact ⟨_, hcollected.read_staged hapart hclear.distinct hentry, rfl⟩
    · obtain ⟨bytes, hbytes, hhash⟩ := hclear.sameHash entry hentry copy hway
      rw [hcollected.read_inTheWay hapart hname hway]
      refine ⟨bytes, hbytes, ?_⟩
      unfold Host.sha256Hex Found.subject
      rw [hhash]
      rfl

theorem verifiesItself
    (hcollected : Collected host linked path ready found provenance final)
    (hagrees : Agrees v host) (hapart : FilesApart path dirs found ready)
    (hclear : NothingInTheWay host linked path ready found) :
    VerifiesItself v path provenance final := by
  obtain ⟨houtput, hartifacts, hprovenance⟩ :=
    (hcollected.readable_iff hapart).mp hclear.readable
  refine ⟨⟨provenance.toJson host.json, ?_, ?_⟩, ?_, ?_, ?_⟩
  · exact FileSystem.read_eq_ok_iff.mpr
      ⟨⟨_, hcollected.fileAt_provenance, rfl⟩, hprovenance⟩
  · rw [hagrees.json]
    exact Provenance.fromJson_toJson hcollected.integerCounts
  · exact (noFailure_iff hagrees hcollected.isDir_outputDir).mpr
      ⟨houtput, hartifacts, hcollected.artifactsHold hapart hclear⟩
  · rw [hcollected.subject]
    intro subject hsubject
    obtain ⟨entry, hentry, rfl⟩ := List.mem_map.mp hsubject
    exact (digestMatches_iff hagrees).mpr ⟨_,
      hcollected.read_staged hapart hclear.distinct hentry, rfl⟩
  · rw [hcollected.subject_names]
    exact hclear.distinct

/-- The provenance itself passes for an artifact of its name, unless it is a
link. -/
theorem notProvenance_of_holds
    (hcollected : Collected host linked path ready found provenance final)
    (hown : NotOwnDigest host provenance)
    (hholds : ArtifactsHold host path provenance final) {entry : Found}
    (hsubject : Found.subject host entry ∈ provenance.subject)
    (hname : entry.name.toStringLossy = "provenance.json") :
    ready.isLink (provenanceFile path) = true := by
  by_contra hlink
  have hplace : ∀ other ∈ found,
      other.stagedPath (artifactsDir path) ≠ provenanceFile path := by
    intro other _
    simp [Found.stagedPath, provenanceFile, artifactsDir]
  have hcopy : CopyAt path final (Found.subject host entry).name
      (provenanceFile path) := by
    refine ⟨.text "provenance.json", hname.symm, .inl rfl, ?_⟩
    rw [FileSystem.isOwnFile, hcollected.isLink_eq hplace,
      Bool.eq_false_iff.mpr hlink, FileSystem.isFile,
      hcollected.fileAt_provenance]
    rfl
  obtain ⟨bytes, hbytes, hdigest⟩ := (hholds _ hsubject).2 _ hcopy
  obtain ⟨file, hfile, rfl⟩ := FileSystem.fileAt_of_read hbytes
  rw [hcollected.fileAt_provenance, Option.some.injEq] at hfile
  rw [← hfile] at hdigest
  exact hown _ hsubject hdigest.symm

theorem nothingInTheWay
    (hcollected : Collected host linked path ready found provenance final)
    (hagrees : Agrees v host) (hapart : FilesApart path dirs found ready)
    (hown : NotOwnDigest host provenance)
    (hverifies : VerifiesItself v path provenance final) :
    NothingInTheWay host linked path ready found := by
  have hdistinct := hverifies.distinct
  rw [hcollected.subject_names] at hdistinct
  obtain ⟨houtput, hartifacts, hholds⟩ :=
    (noFailure_iff hagrees hcollected.isDir_outputDir).mp
      hverifies.noFailure
  have hprovenance : final.isDenied (provenanceFile path) = false := by
    obtain ⟨bytes, hbytes, -⟩ := hverifies.readsBack
    exact (FileSystem.read_eq_ok_iff.mp hbytes).2
  have hsubject : ∀ entry ∈ found,
      Found.subject host entry ∈ provenance.subject := by
    intro entry hentry
    rw [hcollected.subject]
    exact List.mem_map.mpr ⟨entry, hentry, rfl⟩
  have hname : ∀ entry ∈ found,
      entry.name.toStringLossy = "provenance.json" →
        ready.isLink (provenanceFile path) = true := fun entry hentry =>
    hcollected.notProvenance_of_holds hown hholds (hsubject entry hentry)
  have hcopies : ∀ entry (hentry : entry ∈ found) copy, _ :=
    fun entry hentry => hcollected.copyAt_iff hapart hdistinct hentry
      (hname entry hentry)
  refine ⟨hdistinct, hname, (hcollected.readable_iff hapart).mpr
    ⟨houtput, hartifacts, hprovenance⟩, ?_, ?_⟩
  · intro entry hentry copy hway
    obtain ⟨bytes, hbytes, hdigest⟩ := (hholds _ (hsubject entry hentry)).2
      copy ((hcopies entry hentry copy).mpr (.inr hway))
    rw [hcollected.read_inTheWay hapart (hname entry hentry) hway] at hbytes
    exact ⟨bytes, hbytes,
      List.Vector.toList_injective (host.hex.encode_inj hdigest)⟩
  · intro entry hentry hlinked
    obtain ⟨copy, hcopy⟩ := (hholds _ (hsubject entry hentry)).1
    rcases (hcopies entry hentry copy).mp hcopy with ⟨rfl, hnot⟩ | hway
    · rw [hlinked] at hnot
      cases hnot
    · exact ⟨copy, hway⟩

end Collected

section Runs

variable {Inputs : Type}

/-- What a driver collects, the directories that it reads for it, and which
places remain links. -/
structure Collector where
  found : BuildOutput → FileSystem → Path → List Found
  dirs : BuildOutput → FileSystem → Path → List Path
  linked : FileSystem → Path → Bool

/-- The collector copies what it finds, when the files are apart. -/
structure Collects (driver : ToolchainDriver Inputs) (host : Host)
    (collector : Collector) : Prop where
  staged : ∀ {output files path artifacts after},
    driver.collectArtifacts output files path (artifactsDir path) =
        .ok (artifacts, after) →
      FilesApart path (collector.dirs output files path)
        (collector.found output files path) files →
      Staged host collector.linked (artifactsDir path)
        (collector.found output files path) files artifacts after
  integerCounts : ∀ inputs git merkleRoot evaluation,
    (driver.provenanceFields inputs git merkleRoot).internalParameters.evaluation
        = some evaluation →
      evaluation.IntegerCounts

/-- What the build command of a run printed, and the files that the collector
is given. -/
def CollectedFrom (driver : ToolchainDriver Inputs) (built : FileSystem)
    (path : Path) (output : BuildOutput) (ready : FileSystem) : Prop :=
  ∃ after, driver.runBuild built path = .ok (output, after) ∧
    after.createDirAll (artifactsDir path) = .ok ready

/-- The files that a collector deals with are apart. -/
def Collector.FilesApart (collector : Collector) (output : BuildOutput)
    (path : Path) (ready : FileSystem) : Prop :=
  Toolchain.FilesApart path (collector.dirs output ready path)
    (collector.found output ready path) ready

/-- Nothing is in the way of what a collector finds. -/
def Collector.NothingInTheWay (collector : Collector) (host : Host)
    (output : BuildOutput) (path : Path) (ready : FileSystem) : Prop :=
  Toolchain.NothingInTheWay host collector.linked path ready
    (collector.found output ready path)

/-- Every run that succeeds over files that are apart verifies itself exactly
when nothing is in the way of the artifacts that it finds. -/
def VerifiesItselfWhenClear (driver : ToolchainDriver Inputs) (host : Host)
    (v : Verifier) (collector : Collector) : Prop :=
  ∀ metadata files path final,
    run driver host metadata files path = .ok final →
      ∃ built provenance output ready,
        Attests driver host metadata files path built provenance final ∧
        CollectedFrom driver built path output ready ∧
        (collector.FilesApart output path ready →
          (collector.NothingInTheWay host output path ready →
            VerifiesItself v path provenance final) ∧
          (NotOwnDigest host provenance →
            VerifiesItself v path provenance final →
              collector.NothingInTheWay host output path ready))

theorem attests_collected {driver : ToolchainDriver Inputs}
    {collector : Collector} (hcollects : Collects driver host collector)
    {metadata : Metadata} {files built final : FileSystem}
    (hattests : Attests driver host metadata files path built provenance
      final) :
    provenance.IntegerCounts ∧
      ∃ output ready, CollectedFrom driver built path output ready ∧
        (collector.FilesApart output path ready →
          Collected host collector.linked path ready
            (collector.found output ready path) provenance final) := by
  obtain ⟨started, staged, json, -, rfl, hfinished, ⟨rfl⟩, hwritten⟩ :=
    hattests
  obtain ⟨output, after, ready, artifacts, stagedFiles, merkleRoot, hbuild,
    hready, hcollect, hresult⟩ := finishBuild_spec hfinished
  cases hresult
  have hcounts := hcollects.integerCounts started.inputs started.git merkleRoot
  refine ⟨hcounts, output, ready, ⟨after, hbuild, hready⟩, fun hapart => ?_⟩
  have hstaged := hcollects.staged hcollect hapart
  refine ⟨?_, hcounts, FileSystem.isDir_createDirAll hready,
    ⟨artifacts, staged, hstaged, hwritten⟩⟩
  simp only [assembleProvenance, hstaged.artifacts_eq, List.map_map]
  rfl

theorem verifiesItselfWhenClear {driver : ToolchainDriver Inputs}
    {collector : Collector} (hcollects : Collects driver host collector)
    (hagrees : Agrees v host) :
    VerifiesItselfWhenClear driver host v collector := by
  intro metadata files path final hok
  obtain ⟨built, provenance, hattests⟩ := run_eq_ok_iff.mp hok
  obtain ⟨-, output, ready, hfrom, hcollected⟩ :=
    attests_collected hcollects hattests
  refine ⟨built, provenance, output, ready, hattests, hfrom,
    fun hapart => ⟨?_, ?_⟩⟩
  · exact (hcollected hapart).verifiesItself hagrees hapart
  · exact (hcollected hapart).nothingInTheWay hagrees hapart

/-- The artifacts of `target/release`.  A place that is a link remains one. -/
def cargoCollector : Collector where
  found _ files path := candidates files (releaseDir path)
    ((files.readDir (releaseDir path)).toOption.getD [])
  dirs _ _ path := [releaseDir path]
  linked := FileSystem.isLink

/-- The lines that the build command printed. -/
def printedLines (output : BuildOutput) : List (List Char) :=
  textLines ((fromUtf8 output.stdout).getD "")

/-- The executables under the printed store paths.  Of the places that are
links only those remain that lead nowhere. -/
def nixCollector (host : Host) : Collector where
  found output files _ := nixFoundAt host files (printedLines output)
  dirs output files _ :=
    (printedLines output).filterMap (storeBinDir host files)
  linked := linkedNowhere

theorem cargo_collects (host : Host) :
    Collects (CargoInputs.driver host) host cargoCollector where
  staged := by
    intro output files path artifacts after hok hapart
    obtain ⟨names, hnames, -⟩ := cargo_collectArtifacts_eq hok
    have hplaces := hapart.places
    unfold cargoCollector at hplaces ⊢
    dsimp only at hplaces ⊢
    rw [hnames] at hplaces ⊢
    exact cargo_collectArtifacts_staged hok hnames
      (List.mem_cons_of_mem _ List.mem_cons_self) hplaces
  integerCounts _ _ _ _ hevaluation := by cases hevaluation

theorem nix_collects (host : Host) :
    Collects (NixInputs.driver host) host (nixCollector host) where
  staged := by
    intro output files path artifacts after hok hapart
    obtain ⟨storePaths, htext, hcopied⟩ := bind_eq_ok_iff.mp hok
    have hlines : printedLines output = textLines storePaths := by
      rw [printedLines, okOr_eq_ok_iff.mp htext]
      rfl
    unfold nixArtifactsFromStorePaths at hcopied
    rw [← hlines] at hcopied
    refine (copyStorePaths_staged hcopied ?_ ?_ (List.Subset.refl _)
      hapart.places hapart.notDirs).1
    · simp [artifactsDir]
    · intro line hline binDir hbin
      exact List.mem_cons_of_mem _
        (List.mem_filterMap.mpr ⟨line, hline, hbin⟩)
  integerCounts _ _ _ _ hevaluation := by
    cases hevaluation
    exact ⟨rfl, rfl⟩

/-- A build verifies itself, but for what is in the way of its artifacts. -/
theorem builds_verifyThemselves (hagrees : Agrees v host) :
    VerifiesItselfWhenClear (CargoInputs.driver host) host v
        cargoCollector ∧
      VerifiesItselfWhenClear (NixInputs.driver host) host v
        (nixCollector host) :=
  ⟨verifiesItselfWhenClear (cargo_collects host) hagrees,
    verifiesItselfWhenClear (nix_collects host) hagrees⟩

/-- The demo project's collector finds one executable, and no file lies in the
build directory. -/
theorem demo_collectedFrom {built final ready : FileSystem}
    {provenance : Provenance} {output : BuildOutput}
    (hattests : Attests (CargoInputs.driver demoHost) demoHost demoMetadata
      demoFiles ["app"] built provenance final)
    (hfrom : CollectedFrom (CargoInputs.driver demoHost) built ["app"] output
      ready) :
    ready.marks = [] ∧
      cargoCollector.found output ready ["app"] =
        [⟨releaseDir ["app"], "app", ⟨true, [0x7f]⟩⟩] ∧
      ready.isDir ["app", "kettle-build", "artifacts", "app"] = false ∧
      ∀ entry ∈ ready.nodes.entries,
        Path.Within (outputDir ["app"]) entry.1 → entry.2 = .dir := by
  obtain ⟨started, staged, json, hstarted, rfl, -⟩ := hattests
  obtain ⟨after, hbuild, hready⟩ := hfrom
  cases hstarted
  cases hbuild
  cases hready
  refine ⟨rfl, ?_, ?_, ?_⟩
  · decide
  · decide
  · decide

theorem demo_clear {ready : FileSystem} {output : BuildOutput}
    (hmarks : ready.marks = [])
    (hfound : cargoCollector.found output ready ["app"] =
      [⟨releaseDir ["app"], "app", ⟨true, [0x7f]⟩⟩])
    (hplace : ready.isDir ["app", "kettle-build", "artifacts", "app"] = false)
    (hdirs : ∀ entry ∈ ready.nodes.entries,
      Path.Within (outputDir ["app"]) entry.1 → entry.2 = .dir) :
    cargoCollector.FilesApart output ["app"] ready ∧
      cargoCollector.NothingInTheWay demoHost output ["app"] ready := by
  have hnoFile : ∀ path, Path.Within (outputDir ["app"]) path →
      ready.fileAt path = none := by
    intro path hin
    unfold FileSystem.fileAt
    split
    · rename_i file hnode
      cases hdirs _ (AssocMap.mem_entries_iff.mpr hnode) hin
    · rfl
  have hclear : ∀ entry copy, ¬ InTheWay ["app"] ready entry copy := by
    rintro entry copy ⟨⟨name, -, hcopy, hown⟩, -⟩
    have hfile := isFile_of_isOwnFile hown
    rw [FileSystem.isFile, hnoFile] at hfile
    · cases hfile
    · rcases hcopy with rfl | rfl
      · exact List.prefix_append _ _
      · exact ⟨[.text "artifacts", name], by simp [artifactsDir]⟩
  unfold Collector.FilesApart Collector.NothingInTheWay
  rw [hfound]
  constructor
  · refine ⟨fun entry _ => FileSystem.apart_of_marks_eq_nil hmarks _ _,
      FileSystem.apart_of_marks_eq_nil hmarks _ _, ?_⟩
    rintro entry hentry
    cases List.mem_singleton.mp hentry
    exact hplace
  · refine ⟨by simp, ?_, ?_, ?_, ?_⟩
    · rintro entry hentry hname
      cases List.mem_singleton.mp hentry
      exact absurd hname (by decide)
    · intro place _
      rw [FileSystem.isDenied, hmarks]
      rfl
    · exact fun entry _ copy hway => absurd hway (hclear entry copy)
    · intro entry _ hlinked
      exact absurd (FileSystem.isLink_of_marks_eq_nil hmarks)
        (Bool.eq_false_iff.not_left.mpr hlinked)

/-- The demo project's build verifies itself. -/
theorem builds_verifyThemselves_demo :
    ∃ final, run (CargoInputs.driver demoHost) demoHost demoMetadata
        demoFiles ["app"] = .ok final ∧
      ∃ built provenance output ready,
        Attests (CargoInputs.driver demoHost) demoHost demoMetadata demoFiles
          ["app"] built provenance final ∧
        CollectedFrom (CargoInputs.driver demoHost) built ["app"] output
          ready ∧
        cargoCollector.FilesApart output ["app"] ready ∧
        cargoCollector.NothingInTheWay demoHost output ["app"] ready ∧
        VerifiesItself Verify.rejecting ["app"] provenance final := by
  obtain ⟨built, provenance, output, ready, hattests, hfrom, hverifies⟩ :=
    (@builds_verifyThemselves demoHost Verify.rejecting
      ⟨rfl, rfl, rfl⟩).1 demoMetadata demoFiles ["app"] _ rfl
  obtain ⟨hmarks, hfound, hplace, hdirs⟩ := demo_collectedFrom hattests hfrom
  obtain ⟨hapart, hclear⟩ := demo_clear hmarks hfound hplace hdirs
  exact ⟨_, rfl, built, provenance, output, ready, hattests, hfrom, hapart,
    hclear, (hverifies hapart).1 hclear⟩

/-- A flake without inputs, and two store paths. -/
noncomputable def demoNixHost : Host :=
  { demoHost with
    query := fun _ _ _ => some (.ok (JsonPretty.text.render .null))
    -- `/a` and `/b`, a line each
    command := fun _ _ _ => .ok ([0x2f, 0x61, 0x0a, 0x2f, 0x62, 0x0a], []) }

/-- Both store paths have a `tool`. -/
noncomputable def demoNixFiles : FileSystem where
  nodes := ⟨[
    (["app"], .dir),
    (["app", "flake.lock"], .file ⟨false, JsonPretty.text.render .null⟩),
    (["a"], .dir),
    (["a", "bin"], .dir),
    (["a", "bin", "tool"], .file ⟨true, [0x01]⟩),
    (["b"], .dir),
    (["b", "bin"], .dir),
    (["b", "bin", "tool"], .file ⟨true, [0x02]⟩)], by decide⟩
  closed := by decide

theorem demoNix_parseJson :
    demoNixHost.parseJson (JsonPretty.text.render .null) = .ok .null := by
  unfold Host.parseJson
  rw [show demoNixHost.json = JsonPretty.text from rfl,
    JsonPretty.text.parse_render _ .null]
  rfl

theorem demoNix_collectInputs (files : FileSystem) (path : Path)
    (git : GitContext) (lockfileHash : String) :
    (NixInputs.driver demoNixHost).collectInputs files path git lockfileHash
        (JsonPretty.text.render .null) =
      .ok ⟨"0.1.0", "00", "nix 2.31.0", "00", lockfileHash, [], [], 0⟩ := by
  have hflake : parseFlakeLock demoNixHost (JsonPretty.text.render .null) =
      .ok [] := by
    unfold parseFlakeLock
    rw [demoNix_parseJson, ok_bind]
    simp [Json.getObject?, Json.get?, Json.asObject, StableSort.sortBy]
  have hgraph : evaluateDerivationGraph demoNixHost files path = .ok .null :=
    demoNix_parseJson
  simp only [NixInputs.driver, NixInputs.collectInputs, hflake, hgraph]
  rfl

theorem demoNix_attests :
    ∃ built provenance final,
      Attests (NixInputs.driver demoNixHost) demoNixHost demoMetadata
        demoNixFiles ["app"] built provenance final ∧
      provenance.subject.map (·.name) = ["tool", "tool"] :=
  ⟨_, _, _, ⟨_, _, _,
    bind_eq_ok_iff.mpr ⟨_, rfl, bind_eq_ok_iff.mpr ⟨_, rfl,
      bind_eq_ok_iff.mpr ⟨_, rfl, bind_eq_ok_iff.mpr ⟨_,
        demoNix_collectInputs _ _ _ _, rfl⟩⟩⟩⟩,
    rfl, rfl, rfl, rfl⟩, rfl⟩

/-- The second copy takes the place of the first one, and both are recorded. -/
theorem twoTools_not_verifiesItself :
    ∃ final built provenance,
      run (NixInputs.driver demoNixHost) demoNixHost demoMetadata demoNixFiles
        ["app"] = .ok final ∧
      Attests (NixInputs.driver demoNixHost) demoNixHost demoMetadata
        demoNixFiles ["app"] built provenance final ∧
      ¬ VerifiesItself Verify.rejecting ["app"] provenance final := by
  obtain ⟨built, provenance, final, hattests, hnames⟩ := demoNix_attests
  refine ⟨final, built, provenance,
    run_eq_ok_iff.mpr ⟨built, provenance, hattests⟩, hattests, ?_⟩
  intro hverifies
  have hdistinct := hverifies.distinct
  rw [hnames] at hdistinct
  exact absurd hdistinct (by decide)

end Runs

end Toolchain

end Kettle
