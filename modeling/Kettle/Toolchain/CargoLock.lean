/-
The dependencies of a Cargo build, read from `Cargo.lock` and, for packages
without a source, from the path declarations of the manifests.
-/
import Kettle.Host.Machine
import Kettle.Lib.StableSort
import Mathlib.Data.String.Basic

namespace Kettle

namespace Toolchain

/-- `with_context`: the message that is shown is the context's. -/
def withContext {α : Type} (message : String) :
    Except String α → Except String α
  | .ok value => .ok value
  | .error _ => .error message

variable (host : Host) (files : FileSystem)

def assertClean (path : Path) : Except String Unit := do
  let out ← host.git files path ["status", "--porcelain"]
  if out ≠ "" then
    .error s!"path dependency at {path.display} has uncommitted changes:\n{out}"
  else .ok ()

def gitShaAt (path : Path) : Except String String :=
  host.git files path ["rev-parse", "HEAD"]

/-- A manifest by its directory, and its path as it is shown. -/
structure Manifest where
  dir : Path
  shown : String
deriving DecidableEq, Repr

def cargoToml (dir : Path) : Path := dir ++ [.text "Cargo.toml"]

def rootManifest (project : Path) : Manifest :=
  ⟨project, (cargoToml project).display⟩

def readManifest (manifest : Manifest) : Except String Toml := do
  let bytes ← withContext s!"read manifest {manifest.shown}"
    (files.read (cargoToml manifest.dir))
  let text ← okOr s!"manifest {manifest.shown} is not utf-8" (fromUtf8 bytes)
  withContext s!"parse manifest {manifest.shown}" (host.parseToml text)

/-- How `base.join(text)` is shown. -/
def joinShown (base : Path) (text : String) : String :=
  if text.toList.head? = some '/' then text
  else base.display ++ "/" ++ text

def trimEnd (c : Char) (text : List Char) : List Char :=
  text.rdropWhile (· = c)

/-- The directories under a glob's base, in listing order. -/
def globDirs (base : Path) : Except String (List Path) := do
  let names ← files.readDir base
  .ok ((names.map fun name => base ++ [name]).filter files.isOwnDir)

/-- The directories of one `workspace.members` entry, with how they are shown;
a literal one may be missing. -/
def expandMemberPattern (project : Path) (pattern : String) :
    Except String (List (Option Path × String)) :=
  if '*' ∉ pattern.toList then
    .ok [(files.canonicalize project pattern, joinShown project pattern)]
  else if 1 < pattern.toList.count '*' ∨
      pattern.toList.getLast? ≠ some '*' then
    .error s!"unsupported glob pattern in workspace.members: `{pattern}` (only literal paths or a single trailing `*` are supported)"
  else
    let base := String.ofList (trimEnd '/' (trimEnd '*' pattern.toList))
    let context := s!"read workspace member dir {joinShown project base}"
    match files.canonicalize project base with
    | none => .error context
    | some dir =>
        (withContext context (globDirs files dir)).map fun dirs =>
          dirs.map fun member => (some member, member.display)

/-- The manifests in the directories of one entry.  Only a glob may match
directories without one. -/
def manifestsIn (pattern : String) :
    List (Option Path × String) → Except String (List Manifest)
  | [] => .ok []
  | (dir, shown) :: rest =>
      match dir.filter (fun dir => files.exists? (cargoToml dir)) with
      | some dir => do
          let later ← manifestsIn pattern rest
          .ok (⟨dir, shown ++ "/Cargo.toml"⟩ :: later)
      | none =>
          if '*' ∈ pattern.toList then manifestsIn pattern rest
          else
            .error s!"workspace member `{pattern}` resolved to {shown} but no Cargo.toml is present"

def memberManifests (project : Path) :
    List Toml → Except String (List Manifest)
  | [] => .ok []
  | member :: rest =>
      match member.asStr with
      | none => memberManifests project rest
      | some pattern => do
          let dirs ← expandMemberPattern files project pattern
          let found ← manifestsIn files pattern dirs
          let later ← memberManifests project rest
          .ok (found ++ later)

/-- The `workspace.members` of a root manifest. -/
def workspaceMembers (doc : Toml) : List Toml :=
  (((doc.getTable? "workspace").bind (Toml.getEntry "members")).bind
    Toml.asArray).getD []

def discoverManifests (project : Path) : Except String (List Manifest) := do
  let doc ← readManifest host files (rootManifest project)
  let members ← memberManifests files project (workspaceMembers doc)
  .ok (rootManifest project :: members)

def dependencyKeys : List String :=
  ["dependencies", "dev-dependencies", "build-dependencies"]

/-- The tables under the given keys, also per target. -/
def dependencyTables (keys : List String) (doc : Toml) :
    List (List (String × Toml)) :=
  keys.filterMap doc.getTable? ++
    ((doc.getTable? "target").getD []).flatMap fun target =>
      keys.filterMap target.2.getTable?

def patchTables (doc : Toml) : List (List (String × Toml)) :=
  ((doc.getTable? "patch").getD []).filterMap fun registry =>
    registry.2.asTable

/-- The entries of the tables in which path declarations are looked for. -/
def visitedEntries (doc : Toml) : List (String × Toml) :=
  (dependencyTables dependencyKeys doc ++ patchTables doc).flatten

/-- External path dependencies by the key of their declaration. -/
abbrev PathMap := AssocMap String Path

/-- One entry of `visit_dep_table`. -/
def visitEntry (manifest : Manifest) (project : Path) (map : PathMap)
    (entry : String × Toml) : Except String PathMap :=
  match entry.2.getStr? "path" with
  | none => .ok map
  | some relPath =>
      match files.canonicalize manifest.dir relPath with
      | none =>
          .error s!"canonicalize path dep `{entry.1}` at {joinShown manifest.dir relPath} (declared in {manifest.shown})"
      | some canon =>
          -- covered by the project's own commit
          if Path.Within project canon then .ok map
          else
            match map.get? entry.1 with
            | some existing =>
                if existing ≠ canon then
                  .error s!"conflicting path declarations for `{entry.1}`: {existing.display} vs {canon.display}"
                else .ok map
            | none => .ok (map.insert entry.1 canon)

def visitEntries (manifest : Manifest) (project : Path) :
    List (String × Toml) → PathMap → Except String PathMap
  | [], map => .ok map
  | entry :: rest, map => do
      let map ← visitEntry files manifest project map entry
      visitEntries manifest project rest map

def extractPathsFromManifest (manifest : Manifest) (project : Path)
    (map : PathMap) : Except String PathMap := do
  let doc ← readManifest host files manifest
  visitEntries files manifest project (visitedEntries doc) map

def extractPaths (project : Path) :
    List Manifest → PathMap → Except String PathMap
  | [], map => .ok map
  | manifest :: rest, map => do
      let map ← extractPathsFromManifest host files manifest project map
      extractPaths project rest map

/-- The project path is canonical; `canonicalize` only checks that it is
there. -/
def canonicalProject (project : Path) : Except String Path :=
  if files.exists? project then .ok project
  else .error s!"canonicalize project path {project.display}"

def collectExternalPathDeps (project : Path) : Except String PathMap := do
  let projectCanon ← canonicalProject files project
  let manifests ← discoverManifests host files projectCanon
  extractPaths host files projectCanon manifests .empty

/-- From one absolute path to another: up to the common prefix, then down. -/
def relativePath : Path → Path → Path
  | left :: leftRest, right :: rightRest =>
      if left = right then relativePath leftRest rightRest
      else List.replicate (leftRest.length + 1) (.text "..") ++
        (right :: rightRest)
  | leftRest, rightRest =>
      List.replicate leftRest.length (.text "..") ++ rightRest

def pctEncodeChar (c : Char) : List Char :=
  if c = '?' then "%3F".toList
  else if c = '#' then "%23".toList
  else if c = '&' then "%26".toList
  else if c = ' ' then "%20".toList
  else [c]

def pctEncode (text : String) : String :=
  String.ofList (text.toList.flatMap pctEncodeChar)

/-- `strip_prefix` on strings. -/
def stripPrefix (front text : String) : Option String :=
  if front.toList.isPrefixOf text.toList then
    some (String.ofList (text.toList.drop front.length))
  else none

theorem stripPrefix_eq_some_iff {front text rest : String} :
    stripPrefix front text = some rest ↔ text = front ++ rest := by
  unfold stripPrefix
  rw [Option.ite_none_right_eq_some, List.isPrefixOf_iff_prefix,
    Option.some.injEq]
  constructor
  · rintro ⟨⟨back, hback⟩, rfl⟩
    apply String.toList_inj.mp
    rw [String.toList_append, String.toList_ofList, ← hback,
      ← String.length_toList, List.drop_left]
  · rintro rfl
    rw [String.toList_append, ← String.length_toList, List.drop_left,
      String.ofList_toList]
    exact ⟨List.prefix_append _ _, rfl⟩

/-- `rsplit_once`: around the last occurrence. -/
def rsplitOnce (c : Char) (text : String) : Option (String × String) :=
  if c ∈ text.toList then
    let back := text.toList.rtakeWhile (· ≠ c)
    some (String.ofList (text.toList.take
      (text.toList.length - back.length - 1)), String.ofList back)
  else none

def registryDependency (name version : String) (pkg : Toml) :
    Except String ResolvedDependency := do
  let checksum ← okOr
    s!"cargo dependency {name}@{version} from registry has no checksum"
    (pkg.getStr? "checksum")
  .ok {
    annotations := none
    digest := .sha256 checksum
    name := name
    uri := s!"pkg:cargo/{name}@{version}?checksum=sha256:{checksum}" }

def gitDependency (name version src rest : String) :
    Except String ResolvedDependency := do
  let (url, commit) ← okOr
    s!"cargo dependency {name}@{version} has git source without commit: {src}"
    (rsplitOnce '#' rest)
  .ok {
    annotations := none
    digest := .gitCommit commit
    name := name
    uri :=
      s!"pkg:cargo/{name}@{version}?vcs_url=git+{pctEncode url}@{commit}" }

/-- `map_err`: the message wraps the error. -/
def mapError {α : Type} (wrap : String → String) :
    Except String α → Except String α
  | .ok value => .ok value
  | .error e => .error (wrap e)

theorem mapError_eq_ok_iff {α : Type} {wrap : String → String}
    {first : Except String α} {result : α} :
    mapError wrap first = .ok result ↔ first = .ok result := by
  cases first <;> simp [mapError]

/-- The record of an external path dependency. -/
def pathDependency (name version : String) (absPath project : Path) :
    Except String ResolvedDependency := do
  mapError
    (fun e => s!"verifying path dependency {name} at {absPath.display}: {e}")
    (assertClean host files absPath)
  let commit ← mapError
    (fun e =>
      s!"path dependency {name} at {absPath.display} is not a git repository: {e}")
    (gitShaAt host files absPath)
  let relpath := String.intercalate "/"
    ((relativePath project absPath).map OsStr.toStringLossy)
  .ok {
    annotations := none
    digest := .gitCommit commit
    name := name
    uri :=
      s!"pkg:cargo/{name}@{version}?vcs_url=git+file:{pctEncode relpath}@{commit}" }

/-- `none` stands for a workspace member, which is skipped. -/
def classifyPackage (pkg : Toml) (externalPaths : PathMap) (project : Path) :
    Except String (Option ResolvedDependency) := do
  let name ← okOr "lockfile package missing name field" (pkg.getStr? "name")
  let version ← okOr s!"lockfile package `{name}` missing version field"
    (pkg.getStr? "version")
  match pkg.getStr? "source" with
  | some src =>
      match stripPrefix "registry+" src, stripPrefix "git+" src with
      | some _, _ => some <$> registryDependency name version pkg
      | none, some rest => some <$> gitDependency name version src rest
      | none, none =>
          .error s!"cargo dependency {name}@{version} has unrecognized source: {src}"
  | none =>
      match externalPaths.get? name with
      | some absPath =>
          some <$> pathDependency host files name version absPath project
      | none => .ok none

def classifyPackages (externalPaths : PathMap) (project : Path) :
    List Toml → Except String (List ResolvedDependency)
  | [] => .ok []
  | pkg :: rest => do
      let dep ← classifyPackage host files pkg externalPaths project
      let later ← classifyPackages externalPaths project rest
      .ok (dep.toList ++ later)

/-- The `[[package]]` entries of a lock file. -/
def lockPackages (lock : Toml) : List Toml :=
  ((lock.get? "package").bind Toml.asArray).getD []

def parseLock (lockfileBytes : Bytes) : Except String Toml := do
  let text ← okOr "Cargo.lock is not utf-8" (fromUtf8 lockfileBytes)
  withContext "parse Cargo.lock" (host.parseToml text)

/-- The `sort_by` is stable. -/
def sortByUri (deps : List ResolvedDependency) : List ResolvedDependency :=
  StableSort.sortBy (·.uri) deps

def resolveDependencies (project : Path) (lockfileBytes : Bytes) :
    Except String (List ResolvedDependency) := do
  let projectCanon ← canonicalProject files project
  let externalPaths ← collectExternalPathDeps host files project
  let lock ← parseLock host lockfileBytes
  let deps ← classifyPackages host files externalPaths projectCanon
    (lockPackages lock)
  .ok (sortByUri deps)

end Toolchain

end Kettle
