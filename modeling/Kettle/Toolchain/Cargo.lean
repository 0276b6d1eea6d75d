/-
The Cargo toolchain.
-/
import Kettle.Toolchain.CargoLock
import Kettle.Toolchain.Runner

namespace Kettle

namespace Toolchain

def buildArgs : List String := ["build", "--locked", "--release"]

structure CargoInputs where
  kettleVersion : String
  kettleHash : String
  rustcVersion : String
  rustcHash : String
  cargoVersion : String
  cargoHash : String
  lockfileHash : String
  resolvedDeps : List ResolvedDependency
deriving DecidableEq, Repr

def releaseDir (path : Path) : Path := path ++ [.text "target", .text "release"]

/-- Copy the artifacts; each is then where its copy lies. -/
def stageArtifacts (artifactsDir : Path) :
    List Artifact → FileSystem → Except String (List Artifact × FileSystem)
  | [], files => .ok ([], files)
  | artifact :: rest, files => do
      let files ← files.copy artifact.path
        (artifactsDir ++ [.text artifact.name])
      let (later, files) ← stageArtifacts artifactsDir rest files
      .ok (⟨artifact.name, artifactsDir ++ [.text artifact.name],
        artifact.checksum⟩ :: later, files)

namespace CargoInputs

variable (host : Host)

def buildCommandDisplay : String :=
  "cargo " ++ String.intercalate " " buildArgs

def collectInputs (files : FileSystem) (path : Path) (_git : GitContext)
    (lockfileHash : String) (lockfileBytes : Bytes) :
    Except String CargoInputs := do
  let rustc ← host.viaRustup "rustc"
  let cargo ← host.viaRustup "cargo"
  let kettle ← host.kettleInfo
  let resolvedDeps ← resolveDependencies host files path lockfileBytes
  .ok {
    kettleVersion := kettle.version
    kettleHash := kettle.sha256
    rustcVersion := rustc.version
    rustcHash := rustc.sha256
    cargoVersion := cargo.version
    cargoHash := cargo.sha256
    lockfileHash := lockfileHash
    resolvedDeps := resolvedDeps }

/-- The order is part of the build type. -/
def merkleEntries (inputs : CargoInputs) (git : GitContext)
    (lockfileHash : String) : List String :=
  [git.commit, git.tree, inputs.rustcHash, inputs.rustcVersion,
    inputs.cargoHash, inputs.cargoVersion, lockfileHash] ++
    inputs.resolvedDeps.map (·.uri)

def runBuild (files : FileSystem) (path : Path) :
    Except String (BuildOutput × FileSystem) := do
  let (stdout, files) ← mapError (fun e => s!"cargo build failed: {e}")
    (streamCommand host files path ("cargo" :: buildArgs))
  .ok (⟨stdout⟩, files)

def collectArtifacts (_output : BuildOutput) (files : FileSystem)
    (path artifactsDir : Path) :
    Except String (List Artifact × FileSystem) := do
  let artifacts ← artifactsInDir host files (releaseDir path)
  stageArtifacts artifactsDir artifacts files

def provenanceFields (inputs : CargoInputs) (_git : GitContext)
    (_merkleRoot : String) : ProvenanceFields where
  buildType := buildType
  externalBuildCommand := buildCommandDisplay
  internalParameters := {
    evaluation := none
    flakeInputs := none
    lockfileHash := .sha256 inputs.lockfileHash
    toolchain := .rust
      ⟨.sha256 inputs.cargoHash, inputs.cargoVersion⟩
      ⟨.sha256 inputs.rustcHash, inputs.rustcVersion⟩
      ⟨.sha256 inputs.kettleHash, inputs.kettleVersion⟩ }
  resolvedDependencies := inputs.resolvedDeps

def driver : ToolchainDriver CargoInputs where
  lockfileFilename := "Cargo.lock"
  buildCommandDisplay := buildCommandDisplay
  collectInputs := collectInputs host
  merkleEntries := merkleEntries
  runBuild := runBuild host
  collectArtifacts := collectArtifacts host
  provenanceFields := provenanceFields

end CargoInputs

def demoPackage : Toml :=
  .table [("name", .string "app"), ("version", .string "0.1.0")]

/-- The build writes one executable. -/
noncomputable def demoHost : Host :=
  { Host.plain
      (fun _ _ args =>
        if args = ["rev-parse", "HEAD"] then
          .ok "9fceb02d0ae598e95dc970b74767f19372d61af8"
        else if args = ["rev-parse", "HEAD^{tree}"] then
          .ok "eac1c8ad3ba8d6ebf9e5b2b1f3a5f6a5c2f8a1d0"
        else .error "git remote get-url origin failed: No such remote 'origin'")
      (fun text =>
        if text = "a" then .ok (.table [("package", demoPackage)])
        else .ok (.table [("package", .array [demoPackage])])) with
    command := fun _ path _ => .ok ([], [
      .makeDir (path ++ [.text "target"]),
      .makeDir (releaseDir path),
      .write (releaseDir path ++ [.text "app"]) ⟨true, [0x7f]⟩]) }

/-- A project without dependencies; the texts of its manifest and its lock
file are `a` and `b`. -/
def demoFiles : FileSystem where
  nodes := ⟨[
    (["app"], .dir),
    (["app", "Cargo.toml"], .file ⟨false, [0x61]⟩),
    (["app", "Cargo.lock"], .file ⟨false, [0x62]⟩),
    (["app", "main.rs"], .file ⟨false, [0x66]⟩)], by decide⟩
  closed := by decide

def demoMetadata : Metadata where
  invocationId := "build-20250101-120000-0badcafe"
  startedOn := "2025-01-01T12:00:00.000000+00:00"
  finishedOn := some "2025-01-01T12:01:00.000000+00:00"

end Toolchain

end Kettle
