/-
Whether every package of a lock file that lies outside the project is
recorded.  Where Cargo takes a package from follows from the path declarations
of all manifests it reaches; what the code records follows from the map of
external paths alone.
-/
import Kettle.Toolchain.PathDependencies

namespace Kettle

namespace Toolchain

section CargoRules

variable (host : Host) (files : FileSystem) (project : Path)

/-- Cargo builds the dev-dependencies of workspace members only. -/
def cargoKeys (member : Bool) : List String :=
  if member then dependencyKeys else ["dependencies", "build-dependencies"]

/-- The directory an entry stands for: its own `path`, or the one of the root's
`workspace.dependencies` that it inherits. -/
inductive CargoPath (dir : Path) (entry : String × Toml) : Path → Prop
  | own {relPath : String} {target : Path} :
      entry.2.getStr? "path" = some relPath →
      files.canonicalize dir relPath = some target → CargoPath dir entry target
  | inherited {doc shared : Toml} {common : List (String × Toml)}
      {relPath : String} {target : Path} :
      entry.2.get? "workspace" = some (.boolean true) →
      readManifest host files (rootManifest project) = .ok doc →
      (doc.get? "workspace").bind (·.getTable? "dependencies") = some common →
      Toml.getEntry entry.1 common = some shared →
      shared.getStr? "path" = some relPath →
      files.canonicalize project relPath = some target →
      CargoPath dir entry target

/-- The package directories that Cargo finds, and whether each is a workspace
member.  A path dependency below the root of a workspace is one implicitly. -/
inductive CargoReaches : Bool → Path → Prop
  | listed {manifests : List Manifest} {manifest : Manifest} :
      discoverManifests host files project = .ok manifests →
      manifest ∈ manifests → CargoReaches true manifest.dir
  | declared {member : Bool} {manifest : Manifest} {doc root : Toml}
      {table : List (String × Toml)} {entry : String × Toml}
      {target : Path} :
      CargoReaches member manifest.dir →
      readManifest host files manifest = .ok doc →
      table ∈ dependencyTables (cargoKeys member) doc → entry ∈ table →
      CargoPath host files project manifest.dir entry target →
      readManifest host files (rootManifest project) = .ok root →
      CargoReaches
        ((root.get? "workspace").isSome && decide (Path.Within project target))
        target
  | patched {doc : Toml} {table : List (String × Toml)}
      {entry : String × Toml} {target : Path} :
      readManifest host files (rootManifest project) = .ok doc →
      table ∈ patchTables doc → entry ∈ table →
      CargoPath host files project project entry target →
      CargoReaches false target

/-- The version of a manifest's package, which may be the workspace's. -/
inductive CargoVersion (doc : Toml) : String → Prop
  | own {package : List (String × Toml)} {version : String} :
      doc.getTable? "package" = some package →
      (Toml.getEntry "version" package).bind Toml.asStr = some version →
      CargoVersion doc version
  | inherited {package : List (String × Toml)} {value root : Toml}
      {version : String} :
      doc.getTable? "package" = some package →
      Toml.getEntry "version" package = some value →
      value.get? "workspace" = some (.boolean true) →
      readManifest host files (rootManifest project) = .ok root →
      (((root.get? "workspace").bind (·.get? "package")).bind
        (·.getStr? "version")) = some version →
      CargoVersion doc version
  | missing {package : List (String × Toml)} :
      doc.getTable? "package" = some package →
      Toml.getEntry "version" package = none → CargoVersion doc "0.0.0"

/-- The directory from which Cargo takes a package of the lock file without a
source. -/
def CargoLocated (pkg : Toml) (dir : Path) : Prop :=
  ∃ member manifest doc name version,
    CargoReaches host files project member dir ∧ manifest.dir = dir ∧
    readManifest host files manifest = .ok doc ∧
    (doc.get? "package").bind (·.getStr? "name") = some name ∧
    CargoVersion host files project doc version ∧
    pkg.getStr? "name" = some name ∧ pkg.getStr? "version" = some version

end CargoRules

variable {host : Host} {files : FileSystem} {project : Path}

/-- What becomes of a package of the lock file. -/
def classification (host : Host) (files : FileSystem) (project : Path)
    (pkg : Toml) : Except String (Option ResolvedDependency) := do
  let externalPaths ← collectExternalPathDeps host files project
  classifyPackage host files pkg externalPaths project

/-- The package is in the result, under its name and with the commit of its
directory. -/
def RecordedAt (host : Host) (files : FileSystem) (project : Path)
    (deps : List ResolvedDependency) (pkg : Toml) (dir : Path) : Prop :=
  ∃ dep ∈ deps, classification host files project pkg = .ok (some dep) ∧
    pkg.getStr? "name" = some dep.name ∧
    ∃ commit, gitShaAt host files dir = .ok commit ∧
      dep.digest = .gitCommit commit

/-- Every package without a source that lies outside the project is recorded
with the commit of its directory. -/
def Complete (host : Host) (files : FileSystem) (project : Path)
    (located : Toml → Path → Prop) (lock : Toml)
    (deps : List ResolvedDependency) : Prop :=
  ∀ pkg ∈ lockPackages lock, pkg.getStr? "source" = none →
    ∀ dir, located pkg dir → ¬ Path.Within project dir →
      RecordedAt host files project deps pkg dir

/-- Every such package is declared under its own name, in the root manifest or
a listed member, with a directory at the same commit. -/
def DeclaredByName (host : Host) (files : FileSystem) (project : Path)
    (located : Toml → Path → Prop) (lock : Toml) : Prop :=
  ∀ pkg ∈ lockPackages lock, pkg.getStr? "source" = none →
    ∀ dir, located pkg dir → ¬ Path.Within project dir →
      ∃ name declaredDir, pkg.getStr? "name" = some name ∧
        Declared host files project name declaredDir ∧
        ∃ commit, gitShaAt host files dir = .ok commit ∧
          gitShaAt host files declaredDir = .ok commit

/-- A path dependency is recorded with the commit of the declared directory. -/
theorem pathDependency_spec {name version : String} {dir : Path}
    {dep : ResolvedDependency}
    (hok : pathDependency host files name version dir project = .ok dep) :
    dep.name = name ∧ ∃ commit, gitShaAt host files dir = .ok commit ∧
      dep.digest = .gitCommit commit := by
  obtain ⟨clean, -, hrest⟩ := bind_eq_ok_iff.mp hok
  obtain ⟨commit, hcommit, hdep⟩ := bind_eq_ok_iff.mp hrest
  cases hdep
  exact ⟨rfl, commit, mapError_eq_ok_iff.mp hcommit, rfl⟩

/-- A package without a source is skipped, unless its name is in the map. -/
theorem classifyPackage_no_source {pkg : Toml} {map : PathMap}
    {result : Option ResolvedDependency}
    (hsource : pkg.getStr? "source" = none)
    (hok : classifyPackage host files pkg map project = .ok result) :
    ∃ name, pkg.getStr? "name" = some name ∧
      match result with
      | none => map.get? name = none
      | some dep => ∃ dir, map.get? name = some dir ∧ dep.name = name ∧
          ∃ commit, gitShaAt host files dir = .ok commit ∧
            dep.digest = .gitCommit commit := by
  obtain ⟨name, hname, hrest⟩ := bind_eq_ok_iff.mp hok
  obtain ⟨version, -, hrest⟩ := bind_eq_ok_iff.mp hrest
  refine ⟨name, okOr_eq_ok_iff.mp hname, ?_⟩
  rw [hsource] at hrest
  cases hmap : map.get? name with
  | none =>
      simp only [hmap] at hrest
      cases hrest
      rfl
  | some dir =>
      simp only [hmap] at hrest
      obtain ⟨dep, hdep, rfl⟩ := map_eq_ok_iff.mp hrest
      exact ⟨dir, rfl, pathDependency_spec hdep⟩

/-- Every package is classified, and the dependencies are what comes of it. -/
theorem classifyPackages_spec {map : PathMap} {packages : List Toml}
    {deps : List ResolvedDependency}
    (hok : classifyPackages host files map project packages = .ok deps) :
    ∀ pkg ∈ packages, ∃ result,
      classifyPackage host files pkg map project = .ok result ∧
      ∀ dep, result = some dep → dep ∈ deps := by
  induction packages generalizing deps with
  | nil =>
      intro pkg hpkg
      cases hpkg
  | cons head rest ih =>
      obtain ⟨result, hresult, hrest⟩ := bind_eq_ok_iff.mp hok
      obtain ⟨later, hlater, hdeps⟩ := bind_eq_ok_iff.mp hrest
      cases hdeps
      intro pkg hpkg
      rcases List.mem_cons.mp hpkg with rfl | hpkg
      · refine ⟨result, hresult, ?_⟩
        rintro dep rfl
        simp
      · obtain ⟨found, hfound, hmem⟩ := ih hlater pkg hpkg
        exact ⟨found, hfound, fun dep hdep =>
          List.mem_append_right _ (hmem dep hdep)⟩

/-- What is behind a result: the map, and a classification of each package. -/
theorem resolveDependencies_spec {lockfileBytes : Bytes}
    {deps : List ResolvedDependency} {lock : Toml}
    (hok : resolveDependencies host files project lockfileBytes = .ok deps)
    (hlock : parseLock host lockfileBytes = .ok lock) :
    ∃ map, collectExternalPathDeps host files project = .ok map ∧
      ∀ pkg ∈ lockPackages lock, ∃ result,
        classifyPackage host files pkg map project = .ok result ∧
        ∀ dep, result = some dep → dep ∈ deps := by
  obtain ⟨canon, hcanon, hrest⟩ := bind_eq_ok_iff.mp hok
  obtain ⟨map, hmap, hrest⟩ := bind_eq_ok_iff.mp hrest
  obtain ⟨parsed, hparsed, hrest⟩ := bind_eq_ok_iff.mp hrest
  obtain ⟨found, hfound, hsorted⟩ := bind_eq_ok_iff.mp hrest
  rw [hlock] at hparsed
  cases hparsed
  cases hsorted
  rw [canonicalProject_eq hcanon] at hfound
  refine ⟨map, hmap, ?_⟩
  intro pkg hpkg
  obtain ⟨result, hresult, hmem⟩ := classifyPackages_spec hfound pkg hpkg
  exact ⟨result, hresult, fun dep hdep =>
    (StableSort.sortBy_perm _ found).mem_iff.mpr (hmem dep hdep)⟩

/-- The dependencies are complete exactly when every package outside of the
project is declared under its own name where the code looks. -/
theorem resolveDependencies_complete_iff (located : Toml → Path → Prop)
    {lockfileBytes : Bytes} {deps : List ResolvedDependency} {lock : Toml}
    (hok : resolveDependencies host files project lockfileBytes = .ok deps)
    (hlock : parseLock host lockfileBytes = .ok lock) :
    Complete host files project located lock deps ↔
      DeclaredByName host files project located lock := by
  obtain ⟨map, hmap, hpackages⟩ := resolveDependencies_spec hok hlock
  constructor
  · intro hcomplete pkg hpkg hsource dir hdir houtside
    obtain ⟨dep, -, hclass, hname, commit, hcommit, hdigest⟩ :=
      hcomplete pkg hpkg hsource dir hdir houtside
    unfold classification at hclass
    rw [hmap, ok_bind] at hclass
    obtain ⟨name, hpkgName, declaredDir, hdeclared, hdepName, found, hfound,
      hfoundDigest⟩ := classifyPackage_no_source hsource hclass
    have hsame : found = commit := by
      rw [hfoundDigest] at hdigest
      exact Digest.gitCommit.inj hdigest
    subst hsame
    exact ⟨name, declaredDir, hpkgName,
      (collectExternalPathDeps_get?_iff hmap name declaredDir).mp hdeclared,
      found, hcommit, hfound⟩
  · intro hdeclared pkg hpkg hsource dir hdir houtside
    obtain ⟨name, declaredDir, hpkgName, hdeclaration, commit, hcommit,
      hdeclaredCommit⟩ := hdeclared pkg hpkg hsource dir hdir houtside
    have hget := (collectExternalPathDeps_get?_iff hmap name declaredDir).mpr
      hdeclaration
    obtain ⟨result, hresult, hmem⟩ := hpackages pkg hpkg
    obtain ⟨found, hfound, hcase⟩ := classifyPackage_no_source hsource hresult
    rw [hpkgName] at hfound
    cases hfound
    cases result with
    | none =>
        rw [hget] at hcase
        cases hcase
    | some dep =>
        obtain ⟨foundDir, hfoundDir, hdepName, head, hhead, hdigest⟩ := hcase
        rw [hget] at hfoundDir
        cases hfoundDir
        rw [hdeclaredCommit] at hhead
        cases hhead
        refine ⟨dep, hmem dep rfl, ?_, hdepName ▸ hpkgName, commit, hcommit,
          hdigest⟩
        unfold classification
        rw [hmap, ok_bind]
        exact hresult

/-- A project that depends on a package next to it under the given key. -/
def siblingRoot (key : String) : Toml :=
  .table [
    ("dependencies", .table [(key, .table [
      ("package", .string "foo"), ("path", .string "../foo")])]),
    ("package", .table [
      ("name", .string "app"), ("version", .string "0.1.0")])]

def siblingManifest : Toml :=
  .table [("package", .table [
    ("name", .string "foo"), ("version", .string "0.2.0")])]

def siblingPackage : Toml :=
  .table [("name", .string "foo"), ("version", .string "0.2.0")]

def siblingLock : Toml :=
  .table [("package", .array [
    .table [("name", .string "app"), ("version", .string "0.1.0")],
    siblingPackage])]

/-- The texts of the three documents are `a`, `b` and `c`. -/
noncomputable def siblingHost (key : String) : Host :=
  .plain
    (fun _ _ args =>
      if args = ["status", "--porcelain"] then .ok ""
      else .ok "9fceb02d0ae598e95dc970b74767f19372d61af8")
    (fun text =>
      if text = "a" then .ok (siblingRoot key)
      else if text = "b" then .ok siblingManifest
      else .ok siblingLock)

def siblingFiles : FileSystem where
  nodes := ⟨[
    (["app"], .dir),
    (["app", "Cargo.toml"], .file ⟨false, [0x61]⟩),
    (["foo"], .dir),
    (["foo", "Cargo.toml"], .file ⟨false, [0x62]⟩)], by decide⟩
  closed := by decide

theorem siblingFiles_reached (key : String) :
    CargoReaches (siblingHost key) siblingFiles ["app"] false ["foo"] := by
  have hroot : readManifest (siblingHost key) siblingFiles
      (rootManifest ["app"]) = .ok (siblingRoot key) := rfl
  have hlisted : discoverManifests (siblingHost key) siblingFiles ["app"] =
      .ok [rootManifest ["app"]] := rfl
  have happ := CargoReaches.listed hlisted List.mem_cons_self
  exact .declared happ hroot List.mem_cons_self List.mem_cons_self
    (.own rfl rfl) hroot

theorem siblingFiles_located (key : String) :
    CargoLocated (siblingHost key) siblingFiles ["app"] siblingPackage
      ["foo"] :=
  ⟨false, ⟨["foo"], ""⟩, siblingManifest, "foo", "0.2.0",
    siblingFiles_reached key, rfl, rfl, rfl, .own rfl rfl, rfl, rfl⟩

def siblingDependency : ResolvedDependency where
  annotations := none
  digest := .gitCommit "9fceb02d0ae598e95dc970b74767f19372d61af8"
  name := "foo"
  uri := "pkg:cargo/foo@0.2.0?vcs_url=git+file:../foo@9fceb02d0ae598e95dc970b74767f19372d61af8"

theorem resolveDependencies_complete_sibling :
    resolveDependencies (siblingHost "foo") siblingFiles ["app"] [0x63] =
        .ok [siblingDependency] ∧
      (Complete (siblingHost "foo") siblingFiles ["app"]
          (CargoLocated (siblingHost "foo") siblingFiles ["app"])
          siblingLock [siblingDependency] ↔
        DeclaredByName (siblingHost "foo") siblingFiles ["app"]
          (CargoLocated (siblingHost "foo") siblingFiles ["app"])
          siblingLock) := by
  have hok : resolveDependencies (siblingHost "foo") siblingFiles ["app"]
      [0x63] = .ok [siblingDependency] := by decide +kernel
  exact ⟨hok, resolveDependencies_complete_iff _ hok rfl⟩

/-- Declared under another key, the package is taken for a workspace
member. -/
theorem resolveDependencies_renamed_not_complete :
    resolveDependencies (siblingHost "alias") siblingFiles ["app"] [0x63] =
        .ok [] ∧
      ¬ Complete (siblingHost "alias") siblingFiles ["app"]
        (CargoLocated (siblingHost "alias") siblingFiles ["app"])
        siblingLock [] := by
  refine ⟨by decide +kernel, ?_⟩
  intro hcomplete
  obtain ⟨dep, hdep, -⟩ := hcomplete siblingPackage
    (List.mem_cons_of_mem _ List.mem_cons_self) rfl ["foo"]
    (siblingFiles_located "alias") (by decide)
  cases hdep

end Toolchain

end Kettle
