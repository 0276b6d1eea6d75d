/-
The Nix toolchain.
-/
import Kettle.Lib.Separated
import Kettle.Lib.StableSort
import Kettle.Toolchain.CargoLock
import Kettle.Toolchain.Runner

namespace Kettle

namespace Toolchain

structure FlakeDep where
  name : String
  narHash : Option String
deriving DecidableEq, Repr

structure FetchEntry where
  name : String
  drvPath : String
  outputHash : String
  outputHashAlgo : String
  outputHashMode : Option String
  url : Option String
  urls : Option String
deriving DecidableEq, Repr

/-- `split_once`: around the first occurrence. -/
def splitOnce (c : Char) (text : String) : Option (String × String) :=
  if c ∈ text.toList then
    let front := text.toList.takeWhile (· ≠ c)
    some (String.ofList front,
      String.ofList (text.toList.drop (front.length + 1)))
  else none

theorem splitOnce_append {c : Char} {front back : List Char}
    (hfront : c ∉ front) :
    splitOnce c (String.ofList (front ++ c :: back)) =
      some (String.ofList front, String.ofList back) := by
  have hmem : c ∈ front ++ c :: back :=
    List.mem_append_right _ List.mem_cons_self
  have hdrop : (front ++ c :: back).drop (front.length + 1) = back := by
    rw [← List.drop_drop, List.drop_left, List.drop_one, List.tail_cons]
  simp only [splitOnce, String.toList_ofList, if_pos hmem,
    Separated.takeWhile_append_cons hfront, hdrop]

theorem splitOnce_eq_some_iff {c : Char} {text front back : String} :
    splitOnce c text = some (front, back) ↔
      c ∉ front.toList ∧ text.toList = front.toList ++ c :: back.toList := by
  constructor
  · intro hsplit
    by_cases hmem : c ∈ text.toList
    · obtain ⟨before, after, htext, hbefore⟩ :=
        List.eq_append_cons_of_mem hmem
      rw [← String.ofList_toList (s := text), htext,
        splitOnce_append hbefore, Option.some.injEq, Prod.mk.injEq] at hsplit
      obtain ⟨rfl, rfl⟩ := hsplit
      rw [String.toList_ofList, String.toList_ofList]
      exact ⟨hbefore, htext⟩
    · rw [splitOnce, if_neg hmem] at hsplit
      cases hsplit
  · rintro ⟨hfront, htext⟩
    rw [← String.ofList_toList (s := text), htext, splitOnce_append hfront,
      String.ofList_toList, String.ofList_toList]

section FlakeLock

/-- One input of the root node. -/
def flakeDep (nodes : AssocMap String Json) (input : String × Json) :
    Option FlakeDep := do
  -- a node's key, or an object with the key as its id
  let nodeKey ← input.2.asStr <|> input.2.getStr? "id"
  let node ← nodes.get? nodeKey
  let locked ← node.get? "locked"
  some ⟨input.1, locked.getStr? "narHash"⟩

def parseFlakeLock (host : Host) (bytes : Bytes) :
    Except String (List FlakeDep) := do
  let data ← host.parseJson bytes
  let rootInputs := (data.getObject? "nodes").bind fun nodes =>
    ((nodes.get? "root").bind (·.getObject? "inputs")).map fun inputs =>
      inputs.entries.filterMap (flakeDep nodes)
  .ok (StableSort.sortBy (·.name) (rootInputs.getD []))

end FlakeLock

section Derivations

def evaluateArgs : List String :=
  ["nix", "derivation", "show", "--recursive",
    "--extra-experimental-features", "flakes",
    "--extra-experimental-features", "nix-command"]

def evaluateDerivationGraph (host : Host) (files : FileSystem) (path : Path) :
    Except String Json :=
  match host.query files path evaluateArgs with
  | none => .error "nix not found"
  | some (.error stderr) =>
      .error s!"nix derivation show failed: {stderr}"
  | some (.ok stdout) => host.parseJson stdout

structure OutputHash where
  algo : String
  hash : String
  mode : Option String
deriving DecidableEq, Repr

/-- The hash of an output that is fixed, as `algo-hash` or as the hash. -/
def outputHashOf (spec : Json) : Option OutputHash := do
  let text ← spec.getStr? "hash"
  let (algo, hash) := (splitOnce '-' text).getD ("sha256", text)
  some ⟨algo, hash, spec.getStr? "method"⟩

def joinUrls (urls : Json) : String :=
  match urls.asArray with
  | some values => String.intercalate "," (values.filterMap Json.asStr)
  | none => urls.asStr.getD ""

/-- A derivation with a fixed output, the first one that has a hash. -/
def fetchEntry (derivation : String × Json) : Option FetchEntry := do
  let drv ← derivation.2.asObject
  let env := (drv.get? "env").bind Json.asObject
  let outputs ← (drv.get? "outputs").bind Json.asObject
  let output ← outputs.entries.findSome? fun spec => outputHashOf spec.2
  some {
    name := ((drv.get? "name" <|> env.bind (·.get? "name")).bind
      Json.asStr).getD "unknown"
    drvPath := derivation.1
    outputHash := output.hash
    outputHashAlgo := output.algo
    outputHashMode := output.mode
    url := (env.bind (·.get? "url")).bind Json.asStr
    urls := (env.bind (·.get? "urls")).map joinUrls }

/-- Newer versions of nix nest the derivations. -/
def extractFixedOutputHashes (graph : Json) : List FetchEntry :=
  match graph.getObject? "derivations" <|> graph.asObject with
  | some derivations =>
      StableSort.sortBy (·.name) (derivations.entries.filterMap fetchEntry)
  | none => []

/-- As many as a `usize` counts. -/
def derivationCount (graph : Json) : UInt64 :=
  match graph.asObject with
  | some entries => .ofNat entries.entries.length
  | none => 0

end Derivations

section StorePaths

/-- Store files may be read-only, so that an old copy is removed first. -/
def removeOldCopy (files : FileSystem) (dest : Path) :
    Except String FileSystem :=
  if files.exists? dest then (files.setPermissions dest).removeFile dest
  else .ok files

def copyStoreFile (host : Host) (artifactsDir binDir : Path) (name : OsStr)
    (files : FileSystem) : Except String (Artifact × FileSystem) := do
  let dest := artifactsDir ++ [.text name.toStringLossy]
  let files ← removeOldCopy files dest
  let files ← files.copy (binDir ++ [name]) dest
  let bytes ← files.read dest
  .ok (⟨name.toStringLossy, dest, host.sha256Hex bytes⟩, files)

def executableAt (files : FileSystem) (path : Path) : Bool :=
  (files.fileAt path).any (·.executable)

/-- The executables among the names of a `bin` directory. -/
def copyExecutables (host : Host) (artifactsDir binDir : Path) :
    List OsStr → FileSystem → Except String (List Artifact × FileSystem)
  | [], files => .ok ([], files)
  | name :: rest, files =>
      if executableAt files (binDir ++ [name]) then do
        let (artifact, files) ← copyStoreFile host artifactsDir binDir name
          files
        let (later, files) ← copyExecutables host artifactsDir binDir rest
          files
        .ok (artifact :: later, files)
      else copyExecutables host artifactsDir binDir rest files

/-- The `bin` directory of a line that was printed, if there is one. -/
def storeBinDir (host : Host) (files : FileSystem) (line : List Char) :
    Option Path :=
  let line := Utf8.trim line
  if line = [] then none
  else
    ((files.canonicalize host.currentDir
      (String.ofList (line ++ ['/']))).map fun storePath =>
        storePath ++ [.text "bin"]).filter files.isDir

def copyStorePaths (host : Host) (artifactsDir : Path) :
    List (List Char) → FileSystem →
      Except String (List Artifact × FileSystem)
  | [], files => .ok ([], files)
  | line :: rest, files =>
      match storeBinDir host files line with
      | none => copyStorePaths host artifactsDir rest files
      | some binDir => do
          let names ← files.readDir binDir
          let (found, files) ← copyExecutables host artifactsDir binDir names
            files
          let (later, files) ← copyStorePaths host artifactsDir rest files
          .ok (found ++ later, files)

/-- `str::lines`; a carriage return is trimmed away with the line. -/
def textLines (text : String) : List (List Char) :=
  text.toList.splitOn '\n'

def nixArtifactsFromStorePaths (host : Host) (storePaths : String)
    (artifactsDir : Path) (files : FileSystem) :
    Except String (List Artifact × FileSystem) :=
  copyStorePaths host artifactsDir (textLines storePaths) files

end StorePaths

structure NixInputs where
  kettleVersion : String
  kettleHash : String
  nixVersion : String
  nixHash : String
  lockfileHash : String
  flakeDeps : List FlakeDep
  fetches : List FetchEntry
  derivationCount : UInt64
deriving DecidableEq, Repr

/-- How a fetch is recorded. -/
def FetchEntry.dependency (fetch : FetchEntry) : ResolvedDependency where
  annotations := some {
    drvPath := fetch.drvPath
    outputHashMode := fetch.outputHashMode
    url := fetch.url
    urls := fetch.urls }
  digest := .sha256 fetch.outputHash
  name := fetch.name
  uri := s!"pkg:nix-fetch/{fetch.name}?hash={fetch.outputHashAlgo}:{fetch.outputHash}"

/-- Inputs without a hash are left out. -/
def FlakeDep.input (dep : FlakeDep) : Option FlakeInput :=
  dep.narHash.map fun narHash => ⟨dep.name, narHash⟩

/-- `Number::from` of a count. -/
def countNumber (count : UInt64) : JsonNumber :=
  .integer count.toNat ⟨by omega, by exact_mod_cast count.toNat_lt⟩

namespace NixInputs

variable (host : Host)

def buildArgs : List String :=
  ["build", "--no-link", "--print-out-paths",
    "--extra-experimental-features", "nix-command",
    "--extra-experimental-features", "flakes"]

def buildCommandDisplay : String :=
  "nix " ++ String.intercalate " " buildArgs

def collectInputs (files : FileSystem) (path : Path) (_git : GitContext)
    (lockfileHash : String) (lockfileBytes : Bytes) :
    Except String NixInputs := do
  let nix ← host.viaWhich "nix"
  let kettle ← host.kettleInfo
  let flakeDeps ← parseFlakeLock host lockfileBytes
  let graph ← evaluateDerivationGraph host files path
  .ok {
    kettleVersion := kettle.version
    kettleHash := kettle.sha256
    nixVersion := nix.version
    nixHash := nix.sha256
    lockfileHash := lockfileHash
    flakeDeps := flakeDeps
    fetches := extractFixedOutputHashes graph
    derivationCount := Toolchain.derivationCount graph }

def fetchLine (fetch : FetchEntry) : String :=
  s!"fetch:{fetch.name}:{fetch.outputHashAlgo}:{fetch.outputHash}"

/-- The order is part of the build type. -/
def merkleEntries (inputs : NixInputs) (git : GitContext)
    (lockfileHash : String) : List String :=
  [git.commit, git.tree, lockfileHash] ++ inputs.fetches.map fetchLine ++
    [inputs.nixHash, inputs.nixVersion]

def runBuild (files : FileSystem) (path : Path) :
    Except String (BuildOutput × FileSystem) := do
  let (stdout, files) ← mapError (fun e => s!"nix build failed: {e}")
    (streamCommand host files path ("nix" :: buildArgs))
  .ok (⟨stdout⟩, files)

def collectArtifacts (output : BuildOutput) (files : FileSystem)
    (_path artifactsDir : Path) :
    Except String (List Artifact × FileSystem) := do
  let storePaths ← okOr "invalid utf-8 sequence" (fromUtf8 output.stdout)
  nixArtifactsFromStorePaths host storePaths artifactsDir files

def provenanceFields (inputs : NixInputs) (_git : GitContext)
    (_merkleRoot : String) : ProvenanceFields where
  buildType := buildType
  externalBuildCommand := buildCommandDisplay
  internalParameters :=
    let flakeInputs := inputs.flakeDeps.filterMap FlakeDep.input
    { evaluation := some {
        derivationCount := countNumber inputs.derivationCount
        fetchCount := countNumber (.ofNat inputs.fetches.length) }
      flakeInputs := if flakeInputs = [] then none else some flakeInputs
      lockfileHash := .sha256 inputs.lockfileHash
      toolchain := .nix
        ⟨.sha256 inputs.nixHash, inputs.nixVersion⟩
        ⟨.sha256 inputs.kettleHash, inputs.kettleVersion⟩ }
  resolvedDependencies := inputs.fetches.map FetchEntry.dependency

def driver : ToolchainDriver NixInputs where
  lockfileFilename := "flake.lock"
  buildCommandDisplay := buildCommandDisplay
  collectInputs := collectInputs host
  merkleEntries := merkleEntries
  runBuild := runBuild host
  collectArtifacts := collectArtifacts host
  provenanceFields := provenanceFields

end NixInputs

end Toolchain

end Kettle
