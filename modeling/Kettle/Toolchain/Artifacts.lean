/-
What the artifact collectors find in a directory, and what copying them leaves.
-/
import Kettle.Toolchain.Cargo

namespace Kettle

namespace FileSystem

variable {files : FileSystem} {dir : Path} {names : List OsStr}

theorem mem_readDir_iff (hok : files.readDir dir = .ok names)
    (name : OsStr) :
    name ∈ names ↔ (files.get? (dir ++ [name])).isSome = true := by
  unfold readDir at hok
  split at hok
  · cases hok
    rw [Option.isSome_iff_exists, List.mem_filterMap]
    constructor
    · rintro ⟨⟨path, node⟩, hentry, hname⟩
      simp only at hname
      split at hname
      · rename_i hdir
        have hsplit := List.dropLast_append_getLast? name hname
        rw [← hdir, hsplit]
        exact ⟨node, AssocMap.mem_entries_iff.mp hentry⟩
      · cases hname
    · rintro ⟨node, hnode⟩
      refine ⟨(dir ++ [name], node), AssocMap.mem_entries_iff.mpr hnode, ?_⟩
      simp
  · cases hok

/-- A file has been copied, so that it may be read at its new place.  What
shares its file with the place is left open. -/
structure Copies (files : FileSystem) (dest : Path) (file : File)
    (linked : Bool) (copied : FileSystem) : Prop where
  copy : copied.fileAt dest = some file
  elsewhere : ∀ path, files.sameFile dest path = false →
    copied.fileAt path = files.fileAt path
  isDir : ∀ path, copied.isDir path = files.isDir path
  allowed : copied.isDenied dest = false
  isDenied : ∀ path,
    files.isDir path = true ∨ files.sameFile dest path = false →
    copied.isDenied path = files.isDenied path
  linked : copied.isLink dest = linked
  isLink : ∀ path, dest ≠ path → copied.isLink path = files.isLink path
  marks : copied.marks ⊆ files.marks

theorem Copies.of_writeFile {written : FileSystem} {dest : Path} {file : File}
    (hok : files.writeFile dest file = .ok written) :
    Copies files dest file (files.isLink dest) (written.allow dest) := by
  have hmarks := marks_writeFile hok
  have hsame : ∀ path, written.sameFile dest path =
      files.sameFile dest path := by
    intro path
    rw [FileSystem.sameFile, hmarks, FileSystem.sameFile]
  have hlink : ∀ path, (written.allow dest).isLink path =
      files.isLink path := by
    intro path
    rw [isLink_allow, FileSystem.isLink, linkTarget?_of_marks hmarks,
      FileSystem.isLink]
  exact {
    copy := (fileAt_writeFile_self hok :)
    elsewhere := fun path hpath => (fileAt_writeFile_of_other hok hpath :)
    isDir := fun path => (isDir_writeFile hok path :)
    allowed := by
      have hfile := isDir_eq_false_of_fileAt (fileAt_writeFile_self hok)
      rw [isDenied_allow, sameFile_self, hfile]
      simp
    isDenied := fun path hpath => by
      rw [isDenied_allow, hsame, isDir_writeFile hok, FileSystem.isDenied,
        hmarks, FileSystem.isDenied]
      rcases hpath with hdir | hother
      · simp [hdir]
      · simp [hother]
    linked := hlink dest
    isLink := fun path _ => hlink path
    marks := List.Subset.trans marks_allow_subset
      (hmarks ▸ List.Subset.refl _) }

/-- A copy to another file. -/
theorem copies_of_copy {copied : FileSystem} {source dest : Path} {file : File}
    (hok : files.copy source dest = .ok copied)
    (hfile : files.fileAt source = some file)
    (hother : files.sameFile dest source = false) :
    Copies files dest file (files.isLink dest) copied := by
  unfold copy at hok
  simp only [hfile] at hok
  split at hok
  · cases hok
  · rw [sameFile_comm, hother] at hok
    obtain ⟨written, hwritten, rfl⟩ := map_eq_ok_iff.mp hok
    exact Copies.of_writeFile hwritten

end FileSystem

namespace Toolchain

variable {host : Host} {files : FileSystem}

/-- A regular file of the directory that counts as an artifact. -/
def isCandidate (files : FileSystem) (dir : Path) (name : OsStr) : Bool :=
  files.isFile (dir ++ [name]) && isArtifactName name

/-- A file that a collector finds. -/
structure Found where
  dir : Path
  name : OsStr
  file : File
deriving DecidableEq, Repr

def Found.path (found : Found) : Path := found.dir ++ [found.name]

/-- The record of a file, wherever it lies. -/
def Found.artifactAt (host : Host) (found : Found) (path : Path) : Artifact :=
  ⟨found.name.toStringLossy, path, host.sha256Hex found.file.contents⟩

/-- The regular files among the names of a directory that a collector
takes. -/
def foundAmong (takes : OsStr → File → Bool) (files : FileSystem)
    (dir : Path) (names : List OsStr) : List Found :=
  names.filterMap fun name =>
    ((files.fileAt (dir ++ [name])).filter (takes name)).map
      fun file => ⟨dir, name, file⟩

theorem mem_foundAmong_iff {takes : OsStr → File → Bool} {dir : Path}
    {names : List OsStr} {found : Found} :
    found ∈ foundAmong takes files dir names ↔
      found.dir = dir ∧ found.name ∈ names ∧
        files.fileAt found.path = some found.file ∧
        takes found.name found.file = true := by
  obtain ⟨foundDir, name, file⟩ := found
  unfold foundAmong
  simp only [List.mem_filterMap, Option.map_eq_some_iff,
    Option.filter_eq_some_iff, Found.path, Found.mk.injEq]
  constructor
  · rintro ⟨other, hname, contents, ⟨hfile, htakes⟩, rfl, rfl, rfl⟩
    exact ⟨rfl, hname, hfile, htakes⟩
  · rintro ⟨rfl, hname, hfile, htakes⟩
    exact ⟨name, hname, file, ⟨hfile, htakes⟩, rfl, rfl, rfl⟩

/-- The artifacts of a directory, in listing order. -/
def candidates (files : FileSystem) (dir : Path) (names : List OsStr) :
    List Found :=
  foundAmong (fun name _ => isArtifactName name) files dir names

theorem artifactsNamed_spec {dir : Path} {names : List OsStr}
    {artifacts : List Artifact}
    (hok : artifactsNamed host files dir names = .ok artifacts) :
    artifacts = (candidates files dir names).map fun found =>
      found.artifactAt host found.path := by
  induction names generalizing artifacts with
  | nil =>
      cases hok
      rfl
  | cons name rest ih =>
      unfold artifactsNamed at hok
      unfold candidates foundAmong
      unfold FileSystem.isFile at hok
      rw [List.filterMap_cons]
      cases hfile : files.fileAt (dir ++ [name]) with
      | none =>
          rw [hfile] at hok
          exact ih hok
      | some file =>
          by_cases hname : isArtifactName name = true
          · simp only [hfile, Option.isSome_some, hname, Bool.and_self,
              if_true] at hok
            obtain ⟨bytes, hbytes, hrest⟩ := bind_eq_ok_iff.mp hok
            obtain ⟨later, hlater, hresult⟩ := bind_eq_ok_iff.mp hrest
            cases hresult
            obtain ⟨found, hfound, rfl⟩ :=
              FileSystem.fileAt_of_read hbytes
            cases hfile.symm.trans hfound
            rw [ih hlater]
            simp only [Option.filter_some, hname, if_true, Option.map_some,
              List.map_cons]
            rfl
          · simp only [hname, Bool.and_false, Bool.false_eq_true, if_false]
              at hok
            simp only [Option.filter_some, hname, Bool.false_eq_true,
              if_false, Option.map_none]
            exact ih hok

/-- The names of what is found are those of the candidates. -/
theorem mem_candidates_name_iff {dir : Path} {names : List OsStr}
    (hnames : files.readDir dir = .ok names) (name : OsStr) :
    (∃ found ∈ candidates files dir names, found.name = name) ↔
      isCandidate files dir name = true := by
  unfold candidates isCandidate FileSystem.isFile
  rw [Bool.and_eq_true, Option.isSome_iff_exists]
  constructor
  · rintro ⟨found, hfound, rfl⟩
    obtain ⟨rfl, -, hfile, hname⟩ := mem_foundAmong_iff.mp hfound
    exact ⟨⟨_, hfile⟩, hname⟩
  · rintro ⟨⟨file, hfile⟩, hname⟩
    refine ⟨⟨dir, name, file⟩, mem_foundAmong_iff.mpr
      ⟨rfl, ?_, hfile, hname⟩, rfl⟩
    rw [FileSystem.mem_readDir_iff hnames]
    unfold FileSystem.fileAt at hfile
    cases hnode : files.get? (dir ++ [name]) with
    | none => simp [hnode] at hfile
    | some node => rfl

theorem artifactsInDir_spec {dir : Path} {artifacts : List Artifact}
    (hok : artifactsInDir host files dir = .ok artifacts) :
    ∃ names, files.readDir dir = .ok names ∧
      artifacts = (candidates files dir names).map fun found =>
        found.artifactAt host found.path := by
  obtain ⟨names, hnames, hartifacts⟩ := bind_eq_ok_iff.mp hok
  exact ⟨names, hnames, artifactsNamed_spec hartifacts⟩

/-- Where a file is copied to. -/
def Found.stagedPath (artifactsDir : Path) (found : Found) : Path :=
  artifactsDir ++ [.text found.name.toStringLossy]

/-- The collected files lie in the directory under their lossy names, where
they may be read, and nothing else has changed.  `linked` tells which places
remain links. -/
structure Staged (host : Host) (linked : FileSystem → Path → Bool)
    (artifactsDir : Path) (found : List Found) (files : FileSystem)
    (artifacts : List Artifact) (after : FileSystem) : Prop where
  artifacts_eq : artifacts = found.map fun entry =>
    entry.artifactAt host (entry.stagedPath artifactsDir)
  elsewhere : ∀ path, (∀ entry ∈ found,
      files.sameFile (entry.stagedPath artifactsDir) path = false) →
    after.fileAt path = files.fileAt path
  copied : (found.map fun entry => entry.name.toStringLossy).Nodup →
    ∀ entry ∈ found,
      after.fileAt (entry.stagedPath artifactsDir) = some entry.file
  isDir : ∀ path, after.isDir path = files.isDir path
  allowed : ∀ entry ∈ found,
    after.isDenied (entry.stagedPath artifactsDir) = false
  isDenied : ∀ path, (files.isDir path = true ∨ ∀ entry ∈ found,
      files.sameFile (entry.stagedPath artifactsDir) path = false) →
    after.isDenied path = files.isDenied path
  linked : (found.map fun entry => entry.name.toStringLossy).Nodup →
    ∀ entry ∈ found, after.isLink (entry.stagedPath artifactsDir) =
      linked files (entry.stagedPath artifactsDir)
  isLink : ∀ path, (∀ entry ∈ found, entry.stagedPath artifactsDir ≠ path) →
    after.isLink path = files.isLink path
  marks : after.marks ⊆ files.marks

/-- No place that is copied to shares its file with another place, or with
what is read. -/
def PlacesApart (artifactsDir : Path) (dirs : List Path) (found : List Found)
    (files : FileSystem) : Prop :=
  ∀ entry ∈ found,
    files.Apart (artifactsDir :: dirs) (entry.stagedPath artifactsDir)

theorem PlacesApart.of_subset {artifactsDir : Path} {dirs : List Path}
    {found : List Found} {after : FileSystem}
    (hapart : PlacesApart artifactsDir dirs found files)
    (hmarks : after.marks ⊆ files.marks) :
    PlacesApart artifactsDir dirs found after :=
  fun entry hentry => (hapart entry hentry).of_subset hmarks

theorem PlacesApart.of_found {artifactsDir : Path} {dirs : List Path}
    {found part : List Found}
    (hapart : PlacesApart artifactsDir dirs found files)
    (hpart : part ⊆ found) : PlacesApart artifactsDir dirs part files :=
  fun entry hentry => hapart entry (hpart hentry)

theorem Found.stagedPath_inj {artifactsDir : Path} {entry other : Found} :
    entry.stagedPath artifactsDir = other.stagedPath artifactsDir ↔
      entry.name.toStringLossy = other.name.toStringLossy := by
  simp [Found.stagedPath]

/-- Different places are different files. -/
theorem PlacesApart.sameFile_eq_false {artifactsDir : Path}
    {dirs : List Path} {found : List Found}
    (hapart : PlacesApart artifactsDir dirs found files)
    {entry other : Found} (hentry : entry ∈ found)
    (hne : entry.name.toStringLossy ≠ other.name.toStringLossy) :
    files.sameFile (entry.stagedPath artifactsDir)
      (other.stagedPath artifactsDir) = false := by
  refine (hapart entry hentry).sameFile_eq_false ?_ ?_
  · simp [Found.stagedPath]
  · rwa [Ne, Found.stagedPath_inj]

/-- Whether a place remains a link is told by the entry that is there. -/
def ToldByEntry (linked : FileSystem → Path → Bool) : Prop :=
  ∀ {files after : FileSystem} {path : Path},
    after.fileAt path = files.fileAt path →
    after.isDir path = files.isDir path →
    after.isLink path = files.isLink path →
    linked after path = linked files path

section Stage

variable {linked : FileSystem → Path → Bool} {artifactsDir : Path}

theorem Staged.nil : Staged host linked artifactsDir [] files [] files where
  artifacts_eq := rfl
  elsewhere _ _ := rfl
  copied _ entry hentry := by cases hentry
  isDir _ := rfl
  allowed entry hentry := by cases hentry
  isDenied _ _ := rfl
  linked _ entry hentry := by cases hentry
  isLink _ _ := rfl
  marks := List.Subset.refl _

/-- One file that is copied. -/
theorem Staged.single {entry : Found} {copied : FileSystem}
    (hcopied : files.Copies (entry.stagedPath artifactsDir) entry.file
      (linked files (entry.stagedPath artifactsDir)) copied) :
    Staged host linked artifactsDir [entry] files
      [entry.artifactAt host (entry.stagedPath artifactsDir)] copied where
  artifacts_eq := rfl
  elsewhere path hpath := hcopied.elsewhere path (hpath _ List.mem_cons_self)
  copied _ other hother := by
    cases List.mem_singleton.mp hother
    exact hcopied.copy
  isDir := hcopied.isDir
  allowed other hother := by
    cases List.mem_singleton.mp hother
    exact hcopied.allowed
  isDenied path hpath :=
    hcopied.isDenied path (hpath.imp_right fun h => h _ List.mem_cons_self)
  linked _ other hother := by
    cases List.mem_singleton.mp hother
    exact hcopied.linked
  isLink path hpath := hcopied.isLink path (hpath _ List.mem_cons_self)
  marks := hcopied.marks

/-- The names of two parts, when all of them differ. -/
theorem names_of_nodup {left right : List Found}
    (hnodup : ((left ++ right).map
      fun entry => entry.name.toStringLossy).Nodup) :
    (left.map fun entry => entry.name.toStringLossy).Nodup ∧
      (right.map fun entry => entry.name.toStringLossy).Nodup ∧
      ∀ entry ∈ left, ∀ other ∈ right,
        other.name.toStringLossy ≠ entry.name.toStringLossy := by
  rw [List.map_append, List.nodup_append] at hnodup
  refine ⟨hnodup.1, hnodup.2.1, fun entry hentry other hother hname => ?_⟩
  exact hnodup.2.2 _ (List.mem_map.mpr ⟨entry, hentry, rfl⟩) _
    (List.mem_map.mpr ⟨other, hother, rfl⟩) hname.symm

/-- What has been staged in two goes. -/
theorem Staged.append {dirs : List Path} {left right : List Found}
    {middle after : FileSystem} {artifacts later : List Artifact}
    (hlinked : ToldByEntry linked)
    (hapart : PlacesApart artifactsDir dirs (left ++ right) files)
    (hleft : Staged host linked artifactsDir left files artifacts middle)
    (hright : Staged host linked artifactsDir right middle later after) :
    Staged host linked artifactsDir (left ++ right) files
      (artifacts ++ later) after := by
  have hmiddleApart := hapart.of_subset hleft.marks
  have hrightOther : ∀ path, (∀ entry ∈ right,
      files.sameFile (entry.stagedPath artifactsDir) path = false) →
      ∀ entry ∈ right,
        middle.sameFile (entry.stagedPath artifactsDir) path = false :=
    fun path hpath entry hentry =>
      FileSystem.sameFile_of_subset hleft.marks (hpath entry hentry)
  have hapartRight : ∀ entry : Found, ∀ other ∈ right,
      other.name.toStringLossy ≠ entry.name.toStringLossy →
      middle.sameFile (other.stagedPath artifactsDir)
        (entry.stagedPath artifactsDir) = false :=
    fun entry other hother hname =>
      hmiddleApart.sameFile_eq_false (List.mem_append_right _ hother) hname
  have hapartLeft : ∀ entry ∈ left, ∀ other : Found,
      entry.name.toStringLossy ≠ other.name.toStringLossy →
      files.sameFile (entry.stagedPath artifactsDir)
        (other.stagedPath artifactsDir) = false :=
    fun entry hentry other hname =>
      hapart.sameFile_eq_false (List.mem_append_left _ hentry) hname
  exact {
    artifacts_eq := by
      rw [hleft.artifacts_eq, hright.artifacts_eq, List.map_append]
    elsewhere := fun path hpath => by
      obtain ⟨hleftPath, hrightPath⟩ := List.forall_mem_append.mp hpath
      rw [hright.elsewhere path (hrightOther path hrightPath),
        hleft.elsewhere path hleftPath]
    copied := fun hnodup entry hentry => by
      obtain ⟨hleftNames, hrightNames, hnames⟩ := names_of_nodup hnodup
      rcases List.mem_append.mp hentry with hin | hin
      · rw [hright.elsewhere _ fun other hother =>
          hapartRight entry other hother (hnames entry hin other hother)]
        exact hleft.copied hleftNames entry hin
      · exact hright.copied hrightNames entry hin
    isDir := fun path => (hright.isDir path).trans (hleft.isDir path)
    allowed := fun entry hentry => by
      by_cases hagain : ∃ other ∈ right,
          other.name.toStringLossy = entry.name.toStringLossy
      · obtain ⟨other, hother, hname⟩ := hagain
        rw [← Found.stagedPath_inj.mpr hname]
        exact hright.allowed other hother
      · rcases List.mem_append.mp hentry with hin | hin
        · rw [hright.isDenied _ (.inr fun other hother => hapartRight entry
            other hother fun hname => hagain ⟨other, hother, hname⟩)]
          exact hleft.allowed entry hin
        · exact absurd ⟨entry, hin, rfl⟩ hagain
    isDenied := fun path hpath => by
      rcases hpath with hdir | hpath
      · rw [hright.isDenied path (.inl ((hleft.isDir path).trans hdir)),
          hleft.isDenied path (.inl hdir)]
      · obtain ⟨hleftPath, hrightPath⟩ := List.forall_mem_append.mp hpath
        rw [hright.isDenied path (.inr (hrightOther path hrightPath)),
          hleft.isDenied path (.inr hleftPath)]
    linked := fun hnodup entry hentry => by
      obtain ⟨hleftNames, hrightNames, hnames⟩ := names_of_nodup hnodup
      rcases List.mem_append.mp hentry with hin | hin
      · rw [hright.isLink _ fun other hother hpath =>
          hnames entry hin other hother (Found.stagedPath_inj.mp hpath)]
        exact hleft.linked hleftNames entry hin
      · rw [hright.linked hrightNames entry hin]
        have hother : ∀ other ∈ left, other.name.toStringLossy ≠
            entry.name.toStringLossy :=
          fun other hother hname => hnames other hother entry hin hname.symm
        exact hlinked
          (hleft.elsewhere _ fun other hmem =>
            hapartLeft other hmem entry (hother other hmem))
          (hleft.isDir _)
          (hleft.isLink _ fun other hmem hpath =>
            hother other hmem (Found.stagedPath_inj.mp hpath))
    isLink := fun path hpath => by
      obtain ⟨hleftPath, hrightPath⟩ := List.forall_mem_append.mp hpath
      rw [hright.isLink path hrightPath, hleft.isLink path hleftPath]
    marks := List.Subset.trans hright.marks hleft.marks }

/-- One more file that is copied before the others. -/
theorem Staged.cons {dirs : List Path} {entry : Found} {rest : List Found}
    {copied after : FileSystem} {artifacts : List Artifact}
    (hlinked : ToldByEntry linked)
    (hapart : PlacesApart artifactsDir dirs (entry :: rest) files)
    (hcopied : files.Copies (entry.stagedPath artifactsDir) entry.file
      (linked files (entry.stagedPath artifactsDir)) copied)
    (hrest : Staged host linked artifactsDir rest copied artifacts after) :
    Staged host linked artifactsDir (entry :: rest) files
      (entry.artifactAt host (entry.stagedPath artifactsDir) :: artifacts)
      after :=
  (Staged.single hcopied).append hlinked hapart hrest

end Stage

/-- What is recorded of the copies was known before. -/
theorem stageArtifacts_eq {artifactsDir : Path} {artifacts : List Artifact}
    {result : List Artifact × FileSystem}
    (hok : stageArtifacts artifactsDir artifacts files = .ok result) :
    result.1 = artifacts.map fun artifact =>
      ⟨artifact.name, artifactsDir ++ [.text artifact.name],
        artifact.checksum⟩ := by
  induction artifacts generalizing files result with
  | nil =>
      cases hok
      rfl
  | cons artifact rest ih =>
      obtain ⟨copied, -, hrest⟩ := bind_eq_ok_iff.mp hok
      obtain ⟨later, hlater, hresult⟩ := bind_eq_ok_iff.mp hrest
      cases hresult
      rw [ih hlater, List.map_cons]

/-- A link that is copied to stays one. -/
theorem isLink_toldByEntry : ToldByEntry FileSystem.isLink :=
  fun _ _ hlink => hlink

/-- Copying is staging, when the places share no file with a source. -/
theorem stageArtifacts_staged {artifactsDir : Path} {dirs : List Path}
    {found : List Found} {result : List Artifact × FileSystem}
    (hok : stageArtifacts artifactsDir
      (found.map fun entry => entry.artifactAt host entry.path) files =
        .ok result)
    (hfiles : ∀ entry ∈ found, files.fileAt entry.path = some entry.file)
    (hdirs : ∀ entry ∈ found, entry.dir ∈ dirs ∧ entry.dir ≠ artifactsDir)
    (hapart : PlacesApart artifactsDir dirs found files) :
    Staged host FileSystem.isLink artifactsDir found files result.1
      result.2 := by
  induction found generalizing files result with
  | nil =>
      cases hok
      exact Staged.nil
  | cons head rest ih =>
      obtain ⟨copied, hcopied, hrest⟩ := bind_eq_ok_iff.mp hok
      obtain ⟨⟨later, final⟩, hlater, hresult⟩ := bind_eq_ok_iff.mp hrest
      cases hresult
      have hsource : ∀ entry ∈ head :: rest, files.sameFile
          (head.stagedPath artifactsDir) entry.path = false := by
        intro entry hentry
        obtain ⟨hdir, hne⟩ := hdirs entry hentry
        refine (hapart head List.mem_cons_self).sameFile_eq_false ?_ ?_
        · simp [Found.path, hdir]
        · intro hpath
          have hparent := congrArg List.dropLast hpath
          simp [Found.path, Found.stagedPath] at hparent
          exact hne hparent.symm
      obtain ⟨hheadFile, hrestFiles⟩ := List.forall_mem_cons.mp hfiles
      have hstep := FileSystem.copies_of_copy hcopied hheadFile
        (hsource head List.mem_cons_self)
      refine Staged.cons isLink_toldByEntry hapart hstep
        (ih hlater ?_ (List.forall_mem_cons.mp hdirs).2 ?_)
      · intro entry hentry
        rw [hstep.elsewhere _ (hsource entry (List.mem_cons_of_mem _ hentry))]
        exact hrestFiles entry hentry
      · exact PlacesApart.of_subset (List.forall_mem_cons.mp hapart).2
          hstep.marks

end Toolchain

end Kettle
