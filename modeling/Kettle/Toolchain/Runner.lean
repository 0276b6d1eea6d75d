/-
A run: clean the output directory, record the inputs, build, stage the
artifacts, and write the provenance.
-/
import Kettle.Toolchain.Driver

namespace Kettle

namespace Toolchain

def outputDir (path : Path) : Path := path ++ [.text "kettle-build"]

def artifactsDir (path : Path) : Path := outputDir path ++ [.text "artifacts"]

def provenanceFile (path : Path) : Path :=
  outputDir path ++ [.text "provenance.json"]

def removeOutputDir (files : FileSystem) (path : Path) :
    Except String FileSystem :=
  if files.exists? (outputDir path) then files.removeDirAll (outputDir path)
  else .ok files

def cleanOutputDir (files : FileSystem) (path : Path) :
    Except String FileSystem := do
  let files ← removeOutputDir files path
  files.createDirAll (outputDir path)

/-- What is recorded of a build before its command runs, and the files that
the command finds. -/
structure Started (Inputs : Type) where
  files : FileSystem
  git : GitContext
  lockfileHash : String
  inputs : Inputs

variable {Inputs : Type} (driver : ToolchainDriver Inputs) (host : Host)

/-- The steps before the build command. -/
def startBuild (files : FileSystem) (path : Path) :
    Except String (Started Inputs) := do
  let files ← cleanOutputDir files path
  let git ← GitContext.fromDir host files path
  let lockfileBytes ← files.read (path ++ [.text driver.lockfileFilename])
  let inputs ← driver.collectInputs files path git
    (host.sha256Hex lockfileBytes) lockfileBytes
  .ok {
    files := files
    git := git
    lockfileHash := host.sha256Hex lockfileBytes
    inputs := inputs }

def computeMerkleRoot (entries : List String) : Except String String := do
  let root ← okOr "Merkle tree root calculation failed!"
    (host.merkleRoot
      (entries.map fun entry => host.sha256 entry.toUTF8.data.toList))
  .ok (host.hex.encode root.toList)

def assembleProvenance (git : GitContext) (metadata : Metadata)
    (artifacts : List Artifact) (merkleRoot : String)
    (fields : ProvenanceFields) : Provenance where
  type := "https://in-toto.io/Statement/v1"
  predicateType := "https://slsa.dev/provenance/v1"
  subject := artifacts.map fun artifact =>
    ⟨.sha256 artifact.checksum, artifact.name⟩
  predicate := {
    buildDefinition := {
      buildType := fields.buildType
      externalParameters := {
        buildCommand := fields.externalBuildCommand
        source := ⟨⟨git.commit, git.tree⟩, git.sourceUri⟩ }
      internalParameters := fields.internalParameters
      resolvedDependencies := fields.resolvedDependencies }
    runDetails := {
      builder := "https://confidential.ai/attested-builds"
      byproducts := [⟨.sha256 merkleRoot, "input_merkle_root"⟩]
      metadata := metadata } }

/-- The build command and the steps after it, up to the provenance. -/
def finishBuild (metadata : Metadata) (path : Path)
    (started : Started Inputs) :
    Except String (Provenance × FileSystem) := do
  let (output, files) ← driver.runBuild started.files path
  let files ← files.createDirAll (artifactsDir path)
  let (artifacts, files) ← driver.collectArtifacts output files path
    (artifactsDir path)
  let merkleRoot ← computeMerkleRoot host
    (driver.merkleEntries started.inputs started.git started.lockfileHash)
  .ok (assembleProvenance started.git metadata artifacts merkleRoot
    (driver.provenanceFields started.inputs started.git merkleRoot), files)

/-- The clock and the invocation id come with `metadata`. -/
def run (metadata : Metadata) (files : FileSystem) (path : Path) :
    Except String FileSystem := do
  let started ← startBuild driver host files path
  let (provenance, files) ← finishBuild driver host metadata path started
  let json ← host.provenanceJson provenance
  files.writeFile (provenanceFile path) ⟨false, json⟩

variable {driver host} {files : FileSystem} {path : Path}

/-- Cleaning leaves no file in the output directory, and all others. -/
theorem fileAt_cleanOutputDir {cleaned : FileSystem}
    (hok : cleanOutputDir files path = .ok cleaned) (other : Path)
    (houtside : ¬ Path.Within (outputDir path) other) :
    cleaned.fileAt other = files.fileAt other := by
  obtain ⟨removed, hremoved, hcreated⟩ := bind_eq_ok_iff.mp hok
  rw [FileSystem.fileAt_createDirAll hcreated]
  unfold removeOutputDir at hremoved
  split at hremoved
  · rw [FileSystem.fileAt_removeDirAll hremoved, if_neg houtside]
  · cases hremoved
    rfl

theorem startBuild_spec {started : Started Inputs}
    (hok : startBuild driver host files path = .ok started) :
    cleanOutputDir files path = .ok started.files ∧
      GitContext.fromDir host started.files path = .ok started.git := by
  obtain ⟨cleaned, hcleaned, hrest⟩ := bind_eq_ok_iff.mp hok
  obtain ⟨git, hgit, hrest⟩ := bind_eq_ok_iff.mp hrest
  obtain ⟨lockfileBytes, -, hrest⟩ := bind_eq_ok_iff.mp hrest
  obtain ⟨inputs, -, hstarted⟩ := bind_eq_ok_iff.mp hrest
  cases hstarted
  exact ⟨hcleaned, hgit⟩

theorem finishBuild_spec {metadata : Metadata} {started : Started Inputs}
    {result : Provenance × FileSystem}
    (hok : finishBuild driver host metadata path started = .ok result) :
    ∃ output built ready artifacts staged merkleRoot,
      driver.runBuild started.files path = .ok (output, built) ∧
      built.createDirAll (artifactsDir path) = .ok ready ∧
      driver.collectArtifacts output ready path (artifactsDir path) =
        .ok (artifacts, staged) ∧
      result = (assembleProvenance started.git metadata artifacts merkleRoot
        (driver.provenanceFields started.inputs started.git merkleRoot),
        staged) := by
  obtain ⟨⟨output, built⟩, hbuilt, hrest⟩ := bind_eq_ok_iff.mp hok
  obtain ⟨ready, hready, hrest⟩ := bind_eq_ok_iff.mp hrest
  obtain ⟨⟨artifacts, staged⟩, hstaged, hrest⟩ := bind_eq_ok_iff.mp hrest
  obtain ⟨merkleRoot, -, hresult⟩ := bind_eq_ok_iff.mp hrest
  cases hresult
  exact ⟨output, built, ready, artifacts, staged, merkleRoot, hbuilt, hready,
    hstaged, rfl⟩

/-- The run builds over the files `built`, and `provenance` is what it
writes. -/
def Attests (driver : ToolchainDriver Inputs) (host : Host)
    (metadata : Metadata) (files : FileSystem) (path : Path)
    (built : FileSystem) (provenance : Provenance) (final : FileSystem) :
    Prop :=
  ∃ started staged json,
    startBuild driver host files path = .ok started ∧
    started.files = built ∧
    finishBuild driver host metadata path started = .ok (provenance, staged) ∧
    host.provenanceJson provenance = .ok json ∧
    staged.writeFile (provenanceFile path) ⟨false, json⟩ = .ok final

/-- A run that succeeds leaves a provenance. -/
theorem run_eq_ok_iff {metadata : Metadata} {final : FileSystem} :
    run driver host metadata files path = .ok final ↔
      ∃ built provenance,
        Attests driver host metadata files path built provenance final := by
  constructor
  · intro hok
    obtain ⟨started, hstarted, hrest⟩ := bind_eq_ok_iff.mp hok
    obtain ⟨⟨provenance, staged⟩, hfinished, hrest⟩ :=
      bind_eq_ok_iff.mp hrest
    obtain ⟨json, hjson, hwritten⟩ := bind_eq_ok_iff.mp hrest
    exact ⟨started.files, provenance, started, staged, json, hstarted, rfl,
      hfinished, hjson, hwritten⟩
  · rintro ⟨built, provenance, started, staged, json, hstarted, -, hfinished,
      hjson, hwritten⟩
    unfold run
    rw [hstarted, ok_bind, hfinished, ok_bind]
    simp only [hjson, ok_bind]
    exact hwritten

end Toolchain

end Kettle
