/-
Which files a Cargo build records.  The collector takes what it finds in
`target/release` after the build command, whether or not the command put it
there.
-/
import Kettle.Toolchain.Artifacts

namespace Kettle

namespace Toolchain

variable {host : Host} {files : FileSystem} {path : Path}

/-- What the build command of a run did to the files. -/
def BuildEffects (host : Host) (built : FileSystem) (path : Path)
    (effects : List FileEffect) : Prop :=
  ∃ stdout,
    host.command built path ("cargo" :: buildArgs) = .ok (stdout, effects)

/-- The subject is recorded of a file of that name. -/
def RecordedOf (after : FileSystem) (path : Path) (subject : Subject)
    (name : OsStr) : Prop :=
  isCandidate after (releaseDir path) name = true ∧
    name.toStringLossy = subject.name

/-- Every subject is recorded of a file that the command wrote, and of no
other. -/
def SubjectsWritten (path : Path) (built : FileSystem)
    (effects : List FileEffect) (provenance : Provenance) : Prop :=
  ∀ subject ∈ provenance.subject,
    (∃ name, RecordedOf (FileEffect.applyAll built effects) path subject
      name) ∧
    ∀ name, RecordedOf (FileEffect.applyAll built effects) path subject name →
      ∃ effect ∈ effects, effect.writes (releaseDir path ++ [name]) = true

/-- Every file in `target/release` that could pass for an artifact is written
or removed by the command. -/
def StaleReplaced (path : Path) (effects : List FileEffect)
    (files : FileSystem) : Prop :=
  ∀ name, isCandidate files (releaseDir path) name = true →
    ∃ effect ∈ effects,
      effect.writes (releaseDir path ++ [name]) = true ∨
        effect.removes (releaseDir path ++ [name]) = true

theorem cargo_runBuild_spec {built : FileSystem} {output : BuildOutput}
    {after : FileSystem}
    (hok : (CargoInputs.driver host).runBuild built path =
      .ok (output, after)) :
    ∃ effects, BuildEffects host built path effects ∧
      after = FileEffect.applyAll built effects := by
  obtain ⟨⟨stdout, commandFiles⟩, hstream, hrest⟩ := bind_eq_ok_iff.mp hok
  cases hrest
  obtain ⟨⟨printed, effects⟩, hcommand, hresult⟩ :=
    bind_eq_ok_iff.mp (mapError_eq_ok_iff.mp hstream)
  cases hresult
  exact ⟨effects, ⟨_, hcommand⟩, rfl⟩

/-- The release directory does not lie in the output directory. -/
theorem releaseDir_not_within (path : Path) (name : OsStr) :
    ¬ Path.Within (outputDir path) (releaseDir path ++ [name]) := by
  unfold Path.Within outputDir releaseDir
  rw [List.append_assoc, List.prefix_append_right_inj]
  simp

/-- The candidates of the release directory are recorded. -/
theorem cargo_collectArtifacts_eq {output : BuildOutput}
    {result : List Artifact × FileSystem}
    (hok : (CargoInputs.driver host).collectArtifacts output files path
      (artifactsDir path) = .ok result) :
    ∃ names, files.readDir (releaseDir path) = .ok names ∧
      result.1 = (candidates files (releaseDir path) names).map fun entry =>
        entry.artifactAt host (entry.stagedPath (artifactsDir path)) := by
  obtain ⟨found, hfound, hstages⟩ := bind_eq_ok_iff.mp hok
  obtain ⟨names, hnames, rfl⟩ := artifactsInDir_spec hfound
  refine ⟨names, hnames, ?_⟩
  rw [stageArtifacts_eq hstages, List.map_map]
  rfl

/-- They are staged, where the places share no file. -/
theorem cargo_collectArtifacts_staged {output : BuildOutput}
    {result : List Artifact × FileSystem} {dirs : List Path}
    (hok : (CargoInputs.driver host).collectArtifacts output files path
      (artifactsDir path) = .ok result) {names : List OsStr}
    (hnames : files.readDir (releaseDir path) = .ok names)
    (hdirs : releaseDir path ∈ dirs)
    (hapart : PlacesApart (artifactsDir path) dirs
      (candidates files (releaseDir path) names) files) :
    Staged host FileSystem.isLink (artifactsDir path)
      (candidates files (releaseDir path) names) files result.1 result.2 := by
  obtain ⟨found, hfound, hstages⟩ := bind_eq_ok_iff.mp hok
  obtain ⟨listed, hlisted, rfl⟩ := artifactsInDir_spec hfound
  cases hnames.symm.trans hlisted
  refine stageArtifacts_staged hstages ?_ ?_ hapart
  · exact fun entry hentry => (mem_foundAmong_iff.mp hentry).2.2.1
  · intro entry hentry
    rw [(mem_foundAmong_iff.mp hentry).1]
    refine ⟨hdirs, ?_⟩
    simp [releaseDir, artifactsDir, outputDir]

/-- What a Cargo run finds and records. -/
theorem cargo_attests_spec {metadata : Metadata} {built final : FileSystem}
    {provenance : Provenance}
    (hattests : Attests (CargoInputs.driver host) host metadata files path
      built provenance final) :
    ∃ effects names found,
      BuildEffects host built path effects ∧
      (FileEffect.applyAll built effects).createDirAll (artifactsDir path) =
        .ok found ∧
      found.readDir (releaseDir path) = .ok names ∧
      provenance.subject = (candidates found (releaseDir path) names).map
        (fun entry => ⟨.sha256 (host.sha256Hex entry.file.contents),
          entry.name.toStringLossy⟩) := by
  obtain ⟨started, staged, json, hstarted, rfl, hfinished, hjson, hwritten⟩ :=
    hattests
  obtain ⟨output, after, ready, artifacts, stagedFiles, merkleRoot, hbuild,
    hready, hcollect, hresult⟩ := finishBuild_spec hfinished
  obtain ⟨effects, heffects, rfl⟩ := cargo_runBuild_spec hbuild
  obtain ⟨names, hnames, hartifacts⟩ := cargo_collectArtifacts_eq hcollect
  cases hresult
  refine ⟨effects, names, ready, heffects, hready, hnames, ?_⟩
  change artifacts = _ at hartifacts
  simp only [assembleProvenance, hartifacts, List.map_map]
  rfl

/-- The subjects are the candidates of `target/release` after the command. -/
theorem mem_subject_iff {metadata : Metadata} {built final : FileSystem}
    {provenance : Provenance}
    (hattests : Attests (CargoInputs.driver host) host metadata files path
      built provenance final) :
    ∃ effects, BuildEffects host built path effects ∧
      ∀ text, (∃ subject ∈ provenance.subject, subject.name = text) ↔
        ∃ name, isCandidate (FileEffect.applyAll built effects)
          (releaseDir path) name = true ∧ name.toStringLossy = text := by
  obtain ⟨effects, names, ready, heffects, hready, hnames, hsubject⟩ :=
    cargo_attests_spec hattests
  refine ⟨effects, heffects, ?_⟩
  intro text
  have hsame : ∀ name, isCandidate ready (releaseDir path) name =
      isCandidate (FileEffect.applyAll built effects) (releaseDir path)
        name := by
    intro name
    unfold isCandidate FileSystem.isFile
    rw [FileSystem.fileAt_createDirAll hready]
  rw [hsubject]
  constructor
  · rintro ⟨subject, hmem, rfl⟩
    obtain ⟨entry, hentry, rfl⟩ := List.mem_map.mp hmem
    refine ⟨entry.name, ?_, rfl⟩
    rw [← hsame, ← mem_candidates_name_iff hnames]
    exact ⟨entry, hentry, rfl⟩
  · rintro ⟨name, hcandidate, rfl⟩
    rw [← hsame, ← mem_candidates_name_iff hnames] at hcandidate
    obtain ⟨entry, hentry, rfl⟩ := hcandidate
    exact ⟨_, List.mem_map.mpr ⟨entry, hentry, rfl⟩, rfl⟩

theorem isCandidate_iff (dir : Path) (name : OsStr) :
    isCandidate files dir name = true ↔
      (∃ file, files.fileAt (dir ++ [name]) = some file) ∧
        isArtifactName name = true := by
  unfold isCandidate FileSystem.isFile
  rw [Bool.and_eq_true, Option.isSome_iff_exists]

/-- The candidates after the command were all written exactly when it dealt
with the candidates before. -/
theorem candidates_written_iff {built : FileSystem}
    {effects : List FileEffect}
    (hsame : ∀ name, built.fileAt (releaseDir path ++ [name]) =
      files.fileAt (releaseDir path ++ [name])) :
    (∀ name, isCandidate (FileEffect.applyAll built effects)
        (releaseDir path) name = true →
      ∃ effect ∈ effects,
        effect.writes (releaseDir path ++ [name]) = true) ↔
      StaleReplaced path effects files := by
  constructor
  · intro hwritten name hcandidate
    by_contra huntouched
    push Not at huntouched
    have hnotWritten : ∀ effect ∈ effects,
        effect.writes (releaseDir path ++ [name]) = false := by
      intro effect heffect
      simpa using (huntouched effect heffect).1
    have hnotRemoved : ¬ ∃ effect ∈ effects,
        effect.removes (releaseDir path ++ [name]) = true := by
      rintro ⟨effect, heffect, hremoves⟩
      exact (huntouched effect heffect).2 hremoves
    obtain ⟨hfile, hname⟩ := (isCandidate_iff _ name).mp hcandidate
    have hstill : isCandidate (FileEffect.applyAll built effects)
        (releaseDir path) name = true := by
      rw [isCandidate_iff, FileEffect.fileAt_applyAll hnotWritten,
        if_neg hnotRemoved, hsame]
      exact ⟨hfile, hname⟩
    obtain ⟨effect, heffect, hwrites⟩ := hwritten name hstill
    exact (huntouched effect heffect).1 hwrites
  · intro hreplaced name hcandidate
    by_contra hnone
    have hnotWritten : ∀ effect ∈ effects,
        effect.writes (releaseDir path ++ [name]) = false := by
      intro effect heffect
      rw [← Bool.not_eq_true]
      exact fun hwrites => hnone ⟨effect, heffect, hwrites⟩
    rw [isCandidate_iff, FileEffect.fileAt_applyAll hnotWritten] at hcandidate
    obtain ⟨⟨file, hfile⟩, hname⟩ := hcandidate
    split at hfile
    · cases hfile
    · rename_i hnotRemoved
      rw [hsame] at hfile
      obtain ⟨effect, heffect, htouched⟩ := hreplaced name
        ((isCandidate_iff _ name).mpr ⟨⟨file, hfile⟩, hname⟩)
      rcases htouched with hwrites | hremoves
      · exact hnone ⟨effect, heffect, hwrites⟩
      · exact hnotRemoved ⟨effect, heffect, hremoves⟩

/-- The subjects are what the command wrote exactly when it left no earlier
candidate behind. -/
theorem run_subjectsWritten_iff {metadata : Metadata} {final : FileSystem}
    (hok : run (CargoInputs.driver host) host metadata files path =
      .ok final) :
    ∃ built provenance effects,
      Attests (CargoInputs.driver host) host metadata files path built
        provenance final ∧
      BuildEffects host built path effects ∧
      (SubjectsWritten path built effects provenance ↔
        StaleReplaced path effects files) := by
  obtain ⟨built, provenance, hattests⟩ := run_eq_ok_iff.mp hok
  obtain ⟨effects, heffects, hsubjects⟩ := mem_subject_iff hattests
  refine ⟨built, provenance, effects, hattests, heffects, ?_⟩
  have hsame : ∀ name, built.fileAt (releaseDir path ++ [name]) =
      files.fileAt (releaseDir path ++ [name]) := by
    intro name
    obtain ⟨started, copied, json, hstarted, rfl, -⟩ := hattests
    exact fileAt_cleanOutputDir (startBuild_spec hstarted).1 _
      (releaseDir_not_within path name)
  rw [← candidates_written_iff hsame]
  constructor
  · intro hwritten name hcandidate
    obtain ⟨subject, hsubject, hname⟩ :=
      (hsubjects name.toStringLossy).mpr ⟨name, hcandidate, rfl⟩
    exact (hwritten subject hsubject).2 name ⟨hcandidate, hname.symm⟩
  · intro hwritten subject hsubject
    constructor
    · exact (hsubjects subject.name).mp ⟨subject, hsubject, rfl⟩
    · exact fun name hrecorded => hwritten name hrecorded.1

/-- The demo project's first build. -/
theorem run_subjectsWritten_demo :
    ∃ final, run (CargoInputs.driver demoHost) demoHost demoMetadata
        demoFiles ["app"] = .ok final ∧
      ∃ built provenance effects,
        Attests (CargoInputs.driver demoHost) demoHost demoMetadata demoFiles
          ["app"] built provenance final ∧
        BuildEffects demoHost built ["app"] effects ∧
        (SubjectsWritten ["app"] built effects provenance ↔
          StaleReplaced ["app"] effects demoFiles) :=
  ⟨_, rfl, run_subjectsWritten_iff rfl⟩

/-- The demo project with an executable of an earlier build. -/
def demoStale : FileSystem :=
  FileEffect.applyAll demoFiles [
    .makeDir ["app", "target"],
    .makeDir ["app", "target", "release"],
    .write ["app", "target", "release", "old"] ⟨true, [0x7e]⟩]

/-- The earlier executable becomes a subject. -/
theorem run_stale_not_subjectsWritten :
    ∃ final built provenance effects,
      run (CargoInputs.driver demoHost) demoHost demoMetadata demoStale
        ["app"] = .ok final ∧
      Attests (CargoInputs.driver demoHost) demoHost demoMetadata demoStale
        ["app"] built provenance final ∧
      BuildEffects demoHost built ["app"] effects ∧
      ¬ SubjectsWritten ["app"] built effects provenance := by
  refine ⟨_, _, _, _, rfl, ⟨_, _, _, rfl, rfl, rfl, rfl, rfl⟩, ⟨_, rfl⟩, ?_⟩
  intro hwritten
  obtain ⟨effect, heffect, hwrites⟩ :=
    (hwritten _ List.mem_cons_self).2 "old" ⟨rfl, rfl⟩
  revert effect
  decide

end Toolchain

end Kettle
