/-
What the toolchains share: the git context, the artifacts of a directory, and
what each of them supplies to a run.
-/
import Kettle.Host.Machine

namespace Kettle

namespace Toolchain

structure GitContext where
  commit : String
  tree : String
  sourceUri : String
deriving DecidableEq, Repr

def GitContext.fromDir (host : Host) (files : FileSystem) (path : Path) :
    Except String GitContext := do
  let commit ← host.git files path ["rev-parse", "HEAD"]
  let tree ← host.git files path ["rev-parse", "HEAD^{tree}"]
  .ok {
    commit := commit
    tree := tree
    -- a repository may have no remote
    sourceUri :=
      (host.git files path ["remote", "get-url", "origin"]).toOption.getD "" }

/-- An artifact by its name, with where it lies and the hash of its bytes. -/
structure Artifact where
  name : String
  path : Path
  checksum : String
deriving DecidableEq, Repr

def isDotfile (name : OsStr) : Bool :=
  name.toStringLossy.toList.head? = some '.'

/-- Whether a file of that name counts as an artifact. -/
def isArtifactName (name : OsStr) : Bool :=
  !isDotfile name && (name.extension = "" || name.extension = "exe")

/-- The artifacts among the names of a directory. -/
def artifactsNamed (host : Host) (files : FileSystem) (dir : Path) :
    List OsStr → Except String (List Artifact)
  | [] => .ok []
  | name :: rest =>
      if files.isFile (dir ++ [name]) && isArtifactName name then do
        let bytes ← files.read (dir ++ [name])
        let later ← artifactsNamed host files dir rest
        .ok (⟨name.toStringLossy, dir ++ [name], host.sha256Hex bytes⟩ ::
          later)
      else artifactsNamed host files dir rest

/-- `Artifact::in_dir`. -/
def artifactsInDir (host : Host) (files : FileSystem) (dir : Path) :
    Except String (List Artifact) := do
  let names ← files.readDir dir
  artifactsNamed host files dir names

structure BuildOutput where
  stdout : Bytes
deriving DecidableEq, Repr

def buildType : String := "https://confidential.ai/attested-builds/v1"

structure ProvenanceFields where
  buildType : String
  externalBuildCommand : String
  internalParameters : InternalParameters
  resolvedDependencies : List ResolvedDependency
deriving DecidableEq, Repr

/-- The inputs are collected without changing a file; the build command and
the staging of artifacts change the files. -/
structure ToolchainDriver (Inputs : Type) where
  lockfileFilename : String
  buildCommandDisplay : String
  collectInputs : FileSystem → Path → GitContext → String → Bytes →
    Except String Inputs
  merkleEntries : Inputs → GitContext → String → List String
  runBuild : FileSystem → Path → Except String (BuildOutput × FileSystem)
  collectArtifacts : BuildOutput → FileSystem → Path → Path →
    Except String (List Artifact × FileSystem)
  provenanceFields : Inputs → GitContext → String → ProvenanceFields

/-- A run of a build command, which streams its output. -/
def streamCommand (host : Host) (files : FileSystem) (path : Path)
    (command : List String) : Except String (Bytes × FileSystem) := do
  let (stdout, effects) ← host.command files path command
  .ok (stdout, FileEffect.applyAll files effects)

end Toolchain

end Kettle
