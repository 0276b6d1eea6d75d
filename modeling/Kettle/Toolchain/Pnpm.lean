/-
The pnpm toolchain.
-/
import Kettle.Toolchain.Nix
import Mathlib.Data.List.Infix

namespace Kettle

/-- Whether `to_str` gives the path's text. -/
def Path.isUtf8 (path : Path) : Bool :=
  path.all fun
    | .text _ => true
    | .raw _ _ => false

namespace Toolchain

structure PnpmInputs where
  nodeVersion : String
  nodeHash : String
  pnpmVersion : String
  pnpmHash : String
  kettleVersion : String
  kettleHash : String
  lockfileHash : String
  deps : List ResolvedDependency
deriving DecidableEq, Repr

section PnpmLock

variable (host : Host)

/-- A key without the peer dependencies, which follow in parentheses. -/
def stripPeers (key : String) : String :=
  String.ofList (key.toList.takeWhile (· ≠ '('))

/-- A package key as name and version; a scope starts with an `@` of its
own. -/
def parseKey (key : String) : Except String (String × String) :=
  let key := stripPeers key
  match stripPrefix "@" key with
  | some rest =>
      match splitOnce '@' rest with
      | some (inner, version) => .ok ("@" ++ inner, version)
      | none =>
          .error s!"pnpm-lock.yaml: cannot parse scoped key {host.debug key}"
  | none =>
      okOr s!"pnpm-lock.yaml: cannot parse key {host.debug key}"
        (splitOnce '@' key)

/-- A string of the `resolution` of a package, if it is not empty. -/
def resolutionStr? (value : Yaml) (key : String) : Option String :=
  (((value.get? "resolution").bind (·.get? key)).bind Yaml.asStr).filter
    (· ≠ "")

def isGithubTarball (uri : String) : Bool :=
  decide ("codeload.github.com".toList <:+: uri.toList)

/-- What follows the last slash. -/
def lastSegment (uri : String) : String :=
  String.ofList (uri.toList.rtakeWhile (· ≠ '/'))

def pnpmPackage (entry : Yaml × Yaml) : Except String ResolvedDependency := do
  let key ← okOr "pnpm-lock.yaml: package key is not a string" entry.1.asStr
  let (name, version) ← parseKey host key
  match resolutionStr? entry.2 "integrity" with
  | some checksum =>
      .ok {
        annotations := none
        digest := .sha512 checksum
        name := name
        uri := s!"pkg:npm/{name}@{version}?checksum={checksum}" }
  | none => do
      let uri ← okOr
        s!"pnpm-lock.yaml: package {host.debug key} missing resolution with integrity or commit tarball"
        ((resolutionStr? entry.2 "tarball").filter isGithubTarball)
      .ok {
        annotations := none
        digest := .sha512 (lastSegment uri)
        name := name
        uri := uri }

def pnpmPackages : List (Yaml × Yaml) → Except String (List ResolvedDependency)
  | [] => .ok []
  | entry :: rest => do
      let dep ← pnpmPackage host entry
      let later ← pnpmPackages rest
      .ok (dep :: later)

def parsePnpmLock (bytes : Bytes) : Except String (List ResolvedDependency) := do
  let data ← withContext "malformed pnpm-lock.yaml" (host.parseYaml bytes)
  let deps ← pnpmPackages host
    (((data.get? "packages").bind Yaml.asMapping).getD [])
  .ok (sortByUri deps)

end PnpmLock

namespace PnpmInputs

variable (host : Host)

def installArgs : List String := ["install", "--frozen-lockfile"]

def buildArgs : List String := ["build"]

def buildCommandDisplay : String :=
  "pnpm " ++ String.intercalate " " installArgs ++ " && pnpm " ++
    String.intercalate " " buildArgs

def collectInputs (_files : FileSystem) (_path : Path) (_git : GitContext)
    (lockfileHash : String) (lockfileBytes : Bytes) :
    Except String PnpmInputs := do
  let node ← host.viaWhich "node"
  let pnpm ← host.viaWhich "pnpm"
  let kettle ← host.kettleInfo
  let deps ← parsePnpmLock host lockfileBytes
  .ok {
    nodeVersion := node.version
    nodeHash := node.sha256
    pnpmVersion := pnpm.version
    pnpmHash := pnpm.sha256
    kettleVersion := kettle.version
    kettleHash := kettle.sha256
    lockfileHash := lockfileHash
    deps := deps }

/-- The order is part of the build type. -/
def merkleEntries (inputs : PnpmInputs) (git : GitContext)
    (lockfileHash : String) : List String :=
  [git.commit, git.tree, inputs.nodeHash, inputs.nodeVersion,
    inputs.pnpmHash, inputs.pnpmVersion, lockfileHash] ++
    inputs.deps.map (·.uri)

def runBuild (files : FileSystem) (path : Path) :
    Except String (BuildOutput × FileSystem) := do
  let (_, files) ← mapError
    (fun e => s!"pnpm install --frozen-lockfile failed: {e}")
    (streamCommand host files path ("pnpm" :: installArgs))
  let (stdout, files) ← mapError (fun e => s!"pnpm build failed: {e}")
    (streamCommand host files path ("pnpm" :: buildArgs))
  .ok (⟨stdout⟩, files)

def collectArtifacts (_output : BuildOutput) (files : FileSystem)
    (path artifactsDir : Path) :
    Except String (List Artifact × FileSystem) :=
  let tarball := artifactsDir ++ [.text "dist.tar.gz"]
  if files.exists? (path ++ [.text "dist"]) = false then
    .error s!"dist/ directory not found in {host.debug path.display}"
  else if tarball.isUtf8 = false then
    .error s!"path is not valid UTF-8: {host.debug tarball.display}"
  else do
    let archive ← host.tar files path "dist"
    let files ← files.writeFile tarball ⟨false, archive⟩
    let bytes ← files.read tarball
    .ok ([⟨"dist.tar.gz", tarball, host.sha256Hex bytes⟩], files)

def provenanceFields (inputs : PnpmInputs) (_git : GitContext)
    (_merkleRoot : String) : ProvenanceFields where
  buildType := buildType
  externalBuildCommand := buildCommandDisplay
  internalParameters := {
    evaluation := none
    flakeInputs := none
    lockfileHash := .sha256 inputs.lockfileHash
    toolchain := .pnpm
      ⟨.sha256 inputs.pnpmHash, inputs.pnpmVersion⟩
      ⟨.sha256 inputs.nodeHash, inputs.nodeVersion⟩
      ⟨.sha256 inputs.kettleHash, inputs.kettleVersion⟩ }
  resolvedDependencies := inputs.deps

def driver : ToolchainDriver PnpmInputs where
  lockfileFilename := "pnpm-lock.yaml"
  buildCommandDisplay := buildCommandDisplay
  collectInputs := collectInputs host
  merkleEntries := merkleEntries
  runBuild := runBuild host
  collectArtifacts := collectArtifacts host
  provenanceFields := provenanceFields

end PnpmInputs

end Toolchain

end Kettle
