/-
A build directory is verified from what can be listed and read of it.  A copy
under another name and on another machine gets the same verdict, in any order
in which it is listed.
-/
import Kettle.Toolchain.SelfVerify
import Kettle.Verify.BuiltImage

namespace Kettle

/-- The bytes that can be read at a path. -/
def FileSystem.bytesAt (files : FileSystem) (path : Path) : Option Bytes :=
  (files.read path).toOption

theorem FileSystem.read_eq_ok_iff_bytesAt {files : FileSystem} {path : Path}
    {bytes : Bytes} :
    files.read path = .ok bytes ↔ files.bytesAt path = some bytes := by
  unfold FileSystem.bytesAt
  cases files.read path with
  | error message => simp [Except.toOption]
  | ok found => simp [Except.toOption]

/-- Two directories that are listed and read alike: the same directories and
regular files below them, and the same bytes in those that can be read. -/
structure CopiedTree (left : FileSystem) (leftDir : Path)
    (right : FileSystem) (rightDir : Path) : Prop where
  isDir : ∀ sub, left.isDir (leftDir ++ sub) = right.isDir (rightDir ++ sub)
  isDenied : ∀ sub, left.isDir (leftDir ++ sub) = true →
    left.isDenied (leftDir ++ sub) = right.isDenied (rightDir ++ sub)
  isOwnFile : ∀ sub,
    left.isOwnFile (leftDir ++ sub) = right.isOwnFile (rightDir ++ sub)
  bytesAt : ∀ sub,
    left.bytesAt (leftDir ++ sub) = right.bytesAt (rightDir ++ sub)

theorem CopiedTree.symm {left right : FileSystem} {leftDir rightDir : Path}
    (htree : CopiedTree left leftDir right rightDir) :
    CopiedTree right rightDir left leftDir where
  isDir sub := (htree.isDir sub).symm
  isDenied sub hdir :=
    (htree.isDenied sub ((htree.isDir sub).trans hdir)).symm
  isOwnFile sub := (htree.isOwnFile sub).symm
  bytesAt sub := (htree.bytesAt sub).symm

/-- Without links, and when everything may be read, only the contents
count. -/
theorem CopiedTree.of_contents {left right : FileSystem}
    {leftDir rightDir : Path} (hleft : left.marks = [])
    (hright : right.marks = [])
    (hdirs : ∀ sub,
      left.isDir (leftDir ++ sub) = right.isDir (rightDir ++ sub))
    (hcontents : ∀ sub,
      (left.fileAt (leftDir ++ sub)).map File.contents =
        (right.fileAt (rightDir ++ sub)).map File.contents) :
    CopiedTree left leftDir right rightDir := by
  have hallowed : ∀ {files : FileSystem}, files.marks = [] → ∀ path,
      files.isDenied path = false := by
    intro files hmarks path
    rw [FileSystem.isDenied, hmarks]
    rfl
  have hbytes : ∀ {files : FileSystem}, files.marks = [] → ∀ path,
      files.bytesAt path = (files.fileAt path).map File.contents := by
    intro files hmarks path
    rw [FileSystem.bytesAt, FileSystem.read, hallowed hmarks]
    cases files.fileAt path <;> rfl
  have hfile : ∀ {files : FileSystem}, files.marks = [] → ∀ path,
      files.isOwnFile path =
        ((files.fileAt path).map File.contents).isSome := by
    intro files hmarks path
    rw [FileSystem.isOwnFile, FileSystem.isLink_of_marks_eq_nil hmarks,
      FileSystem.isFile]
    simp
  exact {
    isDir := hdirs
    isDenied := fun sub _ => by rw [hallowed hleft, hallowed hright]
    isOwnFile := fun sub => by rw [hfile hleft, hfile hright, hcontents]
    bytesAt := fun sub => by rw [hbytes hleft, hbytes hright, hcontents] }

namespace Commands

open Toolchain (Lists regularFiles_spec regularFiles_lists artifactFiles_spec
  artifactFiles_lists)
open Verify (Verifier VerifyArgs Loaded Loads ChecksPass DirEntry Build)

/-- A verification that is asked for again over copies of its inputs. -/
structure SameInputs (files : FileSystem) (args : VerifyArgs)
    (mine : FileSystem) (copied : VerifyArgs) : Prop where
  tree : CopiedTree files args.path mine copied.path
  nonce : args.nonce = copied.nonce
  igvm : args.igvm.map files.bytesAt = copied.igvm.map mine.bytesAt
  image : args.image.map files.bytesAt = copied.image.map mine.bytesAt

variable {v : Verifier} {files mine : FileSystem} {args copied : VerifyArgs}

theorem SameInputs.symm (hsame : SameInputs files args mine copied) :
    SameInputs mine copied files args :=
  ⟨hsame.tree.symm, hsame.nonce.symm, hsame.igvm.symm, hsame.image.symm⟩

section Listings

variable {dir : Path} {build : Build} {subject : Subject}

/-- What stands under the subject's name in a directory: a regular file at the
top or among the artifacts. -/
def Stands (files : FileSystem) (dir : Path) (name : String) (sub : Path) :
    Prop :=
  ∃ entry : OsStr, entry.toStringLossy = name ∧
    (sub = [entry] ∨ sub = [.text "artifacts", entry]) ∧
    files.isOwnFile (dir ++ sub) = true

/-- The listings of a build directory. -/
structure Listed (files : FileSystem) (dir : Path) (build : Build) :
    Prop where
  topLevel : Lists files dir build.topLevel
  artifacts : Lists files (dir ++ [.text "artifacts"]) build.artifacts

theorem stands_iff (hlisted : Listed files dir build) {sub : Path} :
    Stands files dir subject.name sub ↔
      ∃ entry, Verify.CopyOf build subject entry ∧
        entry.path = dir ++ sub := by
  unfold Verify.CopyOf
  simp only [List.mem_append, hlisted.topLevel _, hlisted.artifacts _]
  constructor
  · rintro ⟨name, hname, rfl | rfl, hfile⟩
    · exact ⟨⟨name, _⟩, ⟨.inl ⟨rfl, hfile⟩, hname⟩, rfl⟩
    · exact ⟨⟨name, _⟩, ⟨.inr ⟨by simp, hfile⟩, hname⟩, rfl⟩
  · rintro ⟨entry, ⟨⟨hpath, hfile⟩ | ⟨hpath, hfile⟩, hname⟩, hsub⟩
    · rw [hpath, List.append_cancel_left_eq] at hsub
      rw [hpath, hsub] at hfile
      exact ⟨entry.fileName, hname, .inl hsub.symm, hfile⟩
    · rw [hpath, List.append_assoc, List.append_cancel_left_eq] at hsub
      rw [hpath, List.append_assoc, hsub] at hfile
      exact ⟨entry.fileName, hname, .inr hsub.symm, hfile⟩

theorem mem_copyOf (hlisted : Listed files dir build) {entry : DirEntry}
    (hcopy : Verify.CopyOf build subject entry) :
    ∃ sub, entry.path = dir ++ sub ∧
      Stands files dir subject.name sub := by
  have hpath : ∃ sub, entry.path = dir ++ sub := by
    rcases List.mem_append.mp hcopy.1 with htop | hnested
    · exact ⟨_, ((hlisted.topLevel entry).mp htop).1⟩
    · exact ⟨_, ((hlisted.artifacts entry).mp hnested).1.trans
        (List.append_assoc _ _ _)⟩
  obtain ⟨sub, hsub⟩ := hpath
  exact ⟨sub, hsub, (stands_iff hlisted).mpr ⟨entry, hcopy, hsub⟩⟩

/-- The check of a subject, from what stands under its name. -/
theorem subjectHolds_iff_stands (hlisted : Listed files dir build) :
    Verify.SubjectHolds v files build subject ↔
      (∃ sub, Stands files dir subject.name sub) ∧
        ∀ sub, Stands files dir subject.name sub →
          ∃ bytes, files.bytesAt (dir ++ sub) = some bytes ∧
            v.hex.encode (v.sha256 bytes).toList =
              subject.digest.value := by
  unfold Verify.SubjectHolds Verify.DigestMatches
  simp only [FileSystem.read_eq_ok_iff_bytesAt]
  constructor
  · rintro ⟨⟨entry, hcopy⟩, hall⟩
    obtain ⟨sub, -, hsub⟩ := mem_copyOf hlisted hcopy
    refine ⟨⟨sub, hsub⟩, fun other hother => ?_⟩
    obtain ⟨otherEntry, hotherCopy, hpath⟩ := (stands_iff hlisted).mp hother
    exact hpath ▸ hall otherEntry hotherCopy
  · rintro ⟨⟨sub, hsub⟩, hall⟩
    obtain ⟨entry, hcopy, -⟩ := (stands_iff hlisted).mp hsub
    refine ⟨⟨entry, hcopy⟩, fun other hother => ?_⟩
    obtain ⟨otherSub, hpath, hstands⟩ := mem_copyOf hlisted hother
    exact hpath ▸ hall otherSub hstands

theorem copiesRead_iff_stands (hlisted : Listed files dir build) :
    Verify.CopiesRead files subject (build.topLevel ++ build.artifacts) ↔
      ∀ sub, Stands files dir subject.name sub →
        ∃ bytes, files.bytesAt (dir ++ sub) = some bytes := by
  unfold Verify.CopiesRead
  simp only [FileSystem.read_eq_ok_iff_bytesAt]
  constructor
  · intro hall sub hsub
    obtain ⟨entry, hcopy, hpath⟩ := (stands_iff hlisted).mp hsub
    exact hpath ▸ hall entry hcopy.1 hcopy.2
  · intro hall entry hentry hname
    obtain ⟨sub, hpath, hstands⟩ := mem_copyOf hlisted ⟨hentry, hname⟩
    exact hpath ▸ hall sub hstands

theorem stands_copy {copy : Path} (htree : CopiedTree files dir mine copy)
    {name : String} {sub : Path} :
    Stands files dir name sub ↔ Stands mine copy name sub := by
  unfold Stands
  rw [htree.isOwnFile]

end Listings

section Loading

variable {dir : Path} {build : Build}

/-- What is read and listed when a directory is loaded. -/
structure Opens (files : FileSystem) (dir : Path) (evidence provenance : Bytes) :
    Prop where
  evidence : files.bytesAt (dir ++ [.text "evidence.json"]) = some evidence
  provenance : files.bytesAt (dir ++ [.text "provenance.json"]) =
    some provenance
  directory : files.isDenied dir = false
  artifacts : files.isDir (dir ++ [.text "artifacts"]) = true →
    files.isDenied (dir ++ [.text "artifacts"]) = false

theorem isDir_of_bytesAt {name : OsStr} {bytes : Bytes}
    (hbytes : files.bytesAt (dir ++ [name]) = some bytes) :
    files.isDir dir = true := by
  rw [← FileSystem.read_eq_ok_iff_bytesAt] at hbytes
  obtain ⟨file, hfile, -⟩ := FileSystem.fileAt_of_read hbytes
  exact FileSystem.isDir_of_isFile _
    (Option.isSome_iff_exists.mpr ⟨file, hfile⟩)

/-- A directory is loaded when both documents and the listings can be read. -/
theorem fromDir_iff {evidence provenance : Bytes} :
    (∃ topLevel artifacts, Build.fromDir files dir =
      .ok ⟨provenance, evidence, topLevel, artifacts⟩) ↔
      Opens files dir evidence provenance := by
  constructor
  · rintro ⟨topLevel, artifacts, hok⟩
    obtain ⟨evidence, hevidence, hrest⟩ := bind_eq_ok_iff.mp hok
    obtain ⟨provenance, hprovenance, hrest⟩ := bind_eq_ok_iff.mp hrest
    obtain ⟨topLevel, htop, hrest⟩ := bind_eq_ok_iff.mp hrest
    obtain ⟨artifacts, hartifacts, hresult⟩ := bind_eq_ok_iff.mp hrest
    cases hresult
    rw [FileSystem.read_eq_ok_iff_bytesAt] at hevidence hprovenance
    exact ⟨hevidence, hprovenance,
      (regularFiles_spec (isDir_of_bytesAt hevidence)).mp ⟨_, htop⟩,
      (artifactFiles_spec _ _).mp ⟨_, hartifacts⟩⟩
  · intro hopens
    obtain ⟨topLevel, htop⟩ := (regularFiles_spec
      (isDir_of_bytesAt hopens.evidence)).mpr hopens.directory
    obtain ⟨artifacts, hartifacts⟩ :=
      (artifactFiles_spec _ _).mpr hopens.artifacts
    refine ⟨topLevel, artifacts, ?_⟩
    unfold Build.fromDir
    rw [FileSystem.read_eq_ok_iff_bytesAt.mpr hopens.evidence, ok_bind,
      FileSystem.read_eq_ok_iff_bytesAt.mpr hopens.provenance, ok_bind, htop,
      ok_bind, hartifacts, ok_bind]

theorem fromDir_listed (hok : Build.fromDir files dir = .ok build) :
    Listed files dir build := by
  obtain ⟨evidence, -, hrest⟩ := bind_eq_ok_iff.mp hok
  obtain ⟨provenance, -, hrest⟩ := bind_eq_ok_iff.mp hrest
  obtain ⟨topLevel, htop, hrest⟩ := bind_eq_ok_iff.mp hrest
  obtain ⟨artifacts, hartifacts, hresult⟩ := bind_eq_ok_iff.mp hrest
  cases hresult
  exact ⟨regularFiles_lists htop, artifactFiles_lists hartifacts⟩

theorem opens_copy {copy : Path} (htree : CopiedTree files dir mine copy)
    {evidence provenance : Bytes}
    (hopens : Opens files dir evidence provenance) :
    Opens mine copy evidence provenance := by
  have hdirs : ∀ sub, files.isDir (dir ++ sub) = true →
      files.isDenied (dir ++ sub) = false →
        mine.isDenied (copy ++ sub) = false :=
    fun sub hdir hread => (htree.isDenied sub hdir).symm.trans hread
  have hdir := isDir_of_bytesAt hopens.evidence
  have htop := hdirs [] (by rwa [List.append_nil])
    (by rw [List.append_nil]; exact hopens.directory)
  rw [List.append_nil] at htop
  refine ⟨(htree.bytesAt _).symm.trans hopens.evidence,
    (htree.bytesAt _).symm.trans hopens.provenance, htop, fun hnested => ?_⟩
  rw [← htree.isDir] at hnested
  exact hdirs _ hnested (hopens.artifacts hnested)

/-- The copy is loaded with the same documents and the same verdict on the
evidence. -/
theorem loads_copy (hsame : SameInputs files args mine copied)
    {loaded : Loaded} (hloads : Loads v files args loaded) :
    ∃ build, Loads v mine copied
        ⟨build, loaded.provenance, loaded.result⟩ ∧
      Listed files args.path loaded.build ∧
      Listed mine copied.path build := by
  have hopens := opens_copy hsame.tree
    (fromDir_iff.mp ⟨_, _, hloads.fromDir⟩)
  obtain ⟨topLevel, artifacts, hcopy⟩ := fromDir_iff.mpr hopens
  exact ⟨_, ⟨hcopy, hloads.fromJson, hloads.attested⟩,
    fromDir_listed hloads.fromDir, fromDir_listed hcopy⟩

end Loading

section Verdicts

variable {path copy imagePath imageCopy : Path}

theorem loadIgvm_copy
    (hcontents : files.bytesAt path = mine.bytesAt copy)
    {igvm : Igvm.IgvmFile} :
    Verify.loadIgvm v files path = .ok igvm ↔
      Verify.loadIgvm v mine copy = .ok igvm := by
  rw [Verify.loadIgvm_eq_ok_iff, Verify.loadIgvm_eq_ok_iff]
  simp only [FileSystem.read_eq_ok_iff_bytesAt, hcontents]

theorem storedRoothash_copy
    (hcontents : files.bytesAt path = mine.bytesAt copy)
    {roothash : String} :
    Verify.storedRoothash v.verity files path = .ok roothash ↔
      Verify.storedRoothash v.verity mine copy = .ok roothash := by
  unfold Verify.storedRoothash
  simp only [bind_eq_ok_iff, FileSystem.read_eq_ok_iff_bytesAt, hcontents]

/-- The checks of the copy are those of the directory. -/
theorem checksPass_copy (hsame : SameInputs files args mine copied)
    (loaded : Loaded) {build : Build}
    (hlisted : Listed files args.path loaded.build)
    (hcopied : Listed mine copied.path build)
    (hpass : ChecksPass v files args loaded) :
    ChecksPass v mine copied
      ⟨build, loaded.provenance, loaded.result⟩ where
  signature := hpass.signature
  predicateType := hpass.predicateType
  statementType := hpass.statementType
  checksum := hpass.checksum
  subjects := by
    intro subject hsubject
    have hholds := hpass.subjects subject hsubject
    rw [subjectHolds_iff_stands hlisted] at hholds
    rw [subjectHolds_iff_stands hcopied]
    simpa only [stands_copy hsame.tree, hsame.tree.bytesAt] using hholds
  nonce := fun nonceString hnonce =>
    hpass.nonce nonceString (hsame.nonce.trans hnonce)
  launchDigest := by
    intro igvmPath higvm
    obtain ⟨path, hpath, hcontents⟩ := Option.map_eq_some_iff.mp
      (hsame.igvm.trans (congrArg (Option.map mine.bytesAt) higvm))
    obtain ⟨igvm, measured, hload, hrest⟩ := hpass.launchDigest path hpath
    exact ⟨igvm, measured, (loadIgvm_copy hcontents).mp hload, hrest⟩
  roothash := by
    intro igvmPath imagePath higvm himage
    obtain ⟨path, hpath, hcontents⟩ := Option.map_eq_some_iff.mp
      (hsame.igvm.trans (congrArg (Option.map mine.bytesAt) higvm))
    obtain ⟨image, himagePath, himageContents⟩ := Option.map_eq_some_iff.mp
      (hsame.image.trans (congrArg (Option.map mine.bytesAt) himage))
    obtain ⟨igvm, cmdline, fromIgvm, fromDisk, hload, htext, hnamed, hdisk,
      hmatch⟩ := hpass.roothash path image hpath himagePath
    exact ⟨igvm, cmdline, fromIgvm, fromDisk,
      (loadIgvm_copy hcontents).mp hload, htext, hnamed,
      (storedRoothash_copy himageContents).mp hdisk, hmatch⟩

/-- The copies of the copy can be read. -/
theorem copiesRead_copy (hsame : SameInputs files args mine copied)
    {loaded : Loaded} {build : Build}
    (hlisted : Listed files args.path loaded.build)
    (hcopied : Listed mine copied.path build)
    (hread : loaded.CopiesRead files) :
    Loaded.CopiesRead mine ⟨build, loaded.provenance, loaded.result⟩ := by
  intro subject hsubject
  have hall := (copiesRead_iff_stands hlisted).mp (hread subject hsubject)
  refine (copiesRead_iff_stands hcopied).mpr ?_
  simpa only [stands_copy hsame.tree, hsame.tree.bytesAt] using hall

/-- Verification passes for the copy if it does for the directory. -/
theorem passes_copy (hsame : SameInputs files args mine copied)
    (hpasses : Verify.Passes v files args) :
    Verify.Passes v mine copied := by
  obtain ⟨loaded, hloads, hpass⟩ := hpasses
  obtain ⟨build, hcopy, hlisted, hcopied⟩ := loads_copy hsame hloads
  exact ⟨_, hcopy, checksPass_copy hsame loaded hlisted hcopied hpass⟩

theorem exitStatus_copy (hsame : SameInputs files args mine copied)
    (hzero : Verify.exitStatus (Verify.verify v files args) = 0) :
    Verify.exitStatus (Verify.verify v mine copied) = 0 := by
  obtain ⟨loaded, hloads, hread⟩ :=
    Verify.exitStatus_verify_eq_zero_iff.mp hzero
  obtain ⟨build, hcopy, hlisted, hcopied⟩ := loads_copy hsame hloads
  exact Verify.exitStatus_verify_eq_zero_iff.mpr
    ⟨_, hcopy, copiesRead_copy hsame hlisted hcopied hread⟩

/-- The warnings are about the files among the artifacts that no subject
names. -/
theorem mem_artifactWarnings_iff {dir : Path} {entries : List DirEntry}
    (hlists : Lists files dir entries) {subjects : List Subject}
    {warning : String} :
    warning ∈ Verify.artifactWarnings subjects entries ↔
      ∃ name : OsStr, files.isOwnFile (dir ++ [name]) = true ∧
        (∀ subject ∈ subjects, subject.name ≠ name.toStringLossy) ∧
        s!"artifacts/{name.toStringLossy} is not listed in provenance.json" =
          warning := by
  unfold Verify.artifactWarnings
  simp only [List.mem_map, List.mem_filter, List.all_eq_true,
    decide_eq_true_eq, hlists _]
  constructor
  · rintro ⟨entry, ⟨⟨hpath, hfile⟩, hunnamed⟩, htext⟩
    exact ⟨entry.fileName, hpath ▸ hfile, hunnamed, htext⟩
  · rintro ⟨name, hfile, hunnamed, htext⟩
    exact ⟨⟨name, _⟩, ⟨⟨rfl, hfile⟩, hunnamed⟩, htext⟩

theorem verify_warnings {loaded : Loaded} {report : Verify.Report}
    (hloads : Loads v files args loaded)
    (hok : Verify.verify v files args = .ok report) :
    report.warnings = Verify.artifactWarnings loaded.provenance.subject
      loaded.build.artifacts := by
  unfold Verify.verify at hok
  rw [hloads.fromDir, ok_bind, hloads.fromJson, okOr_some, ok_bind,
    hloads.attested, ok_bind] at hok
  obtain ⟨checked, hchecked, hreport⟩ := bind_eq_ok_iff.mp hok
  obtain ⟨results, -, hresults⟩ := bind_eq_ok_iff.mp hchecked
  cases hresults
  cases hreport
  rfl

theorem exitStatus_eq {α β : Type} {left : Except String α}
    {right : Except String β}
    (hzero : Verify.exitStatus left = 0 ↔ Verify.exitStatus right = 0) :
    Verify.exitStatus left = Verify.exitStatus right := by
  cases left with
  | ok value => exact (hzero.mp rfl).symm
  | error message =>
      cases right with
      | ok value => exact absurd (hzero.mpr rfl) Nat.one_ne_zero
      | error other => rfl

/-- A copy of a build directory, with copies of the IGVM file and of the
image, is verified with the same status, the same verdict and the same
warnings. -/
theorem verify_copy (hsame : SameInputs files args mine copied) :
    Verify.exitStatus (Verify.verify v files args) =
        Verify.exitStatus (Verify.verify v mine copied) ∧
      (Verify.Succeeds v files args ↔ Verify.Succeeds v mine copied) ∧
      ∀ report other, Verify.verify v files args = .ok report →
        Verify.verify v mine copied = .ok other →
        ∀ warning, warning ∈ report.warnings ↔
          warning ∈ other.warnings := by
  refine ⟨exitStatus_eq ⟨exitStatus_copy hsame, exitStatus_copy hsame.symm⟩,
    ?_, ?_⟩
  · rw [Verify.succeeds_iff_passes, Verify.succeeds_iff_passes]
    exact ⟨passes_copy hsame, passes_copy hsame.symm⟩
  · intro report other hreport hother warning
    obtain ⟨loaded, hloads, -⟩ := Verify.exitStatus_verify_eq_zero_iff.mp
      (congrArg Verify.exitStatus hreport)
    obtain ⟨build, hcopy, hlisted, hcopied⟩ := loads_copy hsame hloads
    rw [verify_warnings hloads hreport, verify_warnings hcopy hother,
      mem_artifactWarnings_iff hlisted.artifacts,
      mem_artifactWarnings_iff hcopied.artifacts]
    simp only [List.append_assoc, hsame.tree.isOwnFile ([_] ++ [_])]

/-- The directory of a sample under another name, listed in another order,
and with executable files. -/
noncomputable def demoReceivedDir : FileSystem where
  nodes := ⟨[
    (["received"], .dir),
    (["received", "provenance.json"], .file ⟨true,
      Verify.printed (Verify.demoProvenance "9fceb02d") false⟩),
    (["received", "evidence.json"], .file ⟨true, []⟩)], by decide⟩
  closed := by decide

def demoReceivedArgs : VerifyArgs where
  path := ["received"]
  nonce := none
  igvm := none
  image := none
  requires := Verify.no_image_requires

theorem demo_sameInputs : SameInputs Verify.demoBuildDir Verify.demoArgs
    demoReceivedDir demoReceivedArgs := by
  refine ⟨.of_contents rfl rfl ?_ ?_, rfl, rfl, rfl⟩
  · rintro (_ | ⟨name, _ | ⟨below, rest⟩⟩)
    · rfl
    · by_cases hevidence : OsStr.text "evidence.json" = name
      · subst hevidence
        rfl
      · simp [FileSystem.isDir, dirIn, AssocMap.get?, AssocMap.lookup,
          Verify.demoBuildDir, Verify.demoArgs, demoReceivedDir,
          demoReceivedArgs, hevidence]
    · simp [FileSystem.isDir, dirIn, AssocMap.get?, AssocMap.lookup,
        Verify.demoBuildDir, Verify.demoArgs, demoReceivedDir,
        demoReceivedArgs]
  · rintro (_ | ⟨name, _ | ⟨below, rest⟩⟩)
    · rfl
    · by_cases hevidence : OsStr.text "evidence.json" = name
      · subst hevidence
        rfl
      · by_cases hprovenance : OsStr.text "provenance.json" = name
        · subst hprovenance
          rfl
        · simp [FileSystem.fileAt, FileSystem.get?, AssocMap.get?,
            AssocMap.lookup, Verify.demoBuildDir, Verify.demoArgs,
            demoReceivedDir, demoReceivedArgs, hevidence, hprovenance]
    · simp [FileSystem.fileAt, FileSystem.get?, AssocMap.get?,
        AssocMap.lookup, Verify.demoBuildDir, Verify.demoArgs,
        demoReceivedDir, demoReceivedArgs]

theorem verify_copy_demo :
    Verify.exitStatus (Verify.verify Verify.rejecting Verify.demoBuildDir
        Verify.demoArgs) =
      Verify.exitStatus (Verify.verify Verify.rejecting demoReceivedDir
        demoReceivedArgs) ∧
      (Verify.Succeeds Verify.rejecting Verify.demoBuildDir Verify.demoArgs ↔
        Verify.Succeeds Verify.rejecting demoReceivedDir
          demoReceivedArgs) :=
  ⟨(verify_copy demo_sameInputs).1, (verify_copy demo_sameInputs).2.1⟩

end Verdicts

end Commands

end Kettle
