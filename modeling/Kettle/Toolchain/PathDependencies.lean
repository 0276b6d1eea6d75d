/-
Which packages of a lock file are recorded.  Cargo finds path packages through
many kinds of declaration; only those declared under their own name in a listed
manifest are in the map that decides between dependency and member.
-/
import Kettle.Toolchain.CargoLock

namespace Kettle

namespace Toolchain

variable {host : Host} {files : FileSystem}

/-- The entry declares the directory, seen from the manifest. -/
def DeclaresPath (files : FileSystem) (manifestDir project : Path)
    (entry : String × Toml) (dir : Path) : Prop :=
  ∃ relPath, entry.2.getStr? "path" = some relPath ∧
    files.canonicalize manifestDir relPath = some dir ∧
    ¬ Path.Within project dir

theorem declaresPath_iff {declaring project canon dir : Path}
    {entry : String × Toml} {relPath : String}
    (hpath : entry.2.getStr? "path" = some relPath)
    (hcanon : files.canonicalize declaring relPath = some canon) :
    DeclaresPath files declaring project entry dir ↔
      canon = dir ∧ ¬ Path.Within project dir := by
  constructor
  · rintro ⟨rel, hrel, hdir, houtside⟩
    rw [hpath] at hrel
    cases hrel
    rw [hcanon] at hdir
    exact ⟨Option.some.inj hdir, houtside⟩
  · rintro ⟨rfl, houtside⟩
    exact ⟨relPath, hpath, hcanon, houtside⟩

theorem DeclaresPath.unique {declaring project left right : Path}
    {entry : String × Toml}
    (hleft : DeclaresPath files declaring project entry left)
    (hright : DeclaresPath files declaring project entry right) :
    left = right := by
  obtain ⟨relPath, hpath, hcanon, -⟩ := hleft
  exact ((declaresPath_iff hpath hcanon).mp hright).1

/-- An accepted entry declares nothing outside the project, or a directory
that the map has under its name, or one that is new to the map. -/
theorem visitEntry_cases {manifest : Manifest} {project : Path}
    {map result : PathMap} {entry : String × Toml}
    (hok : visitEntry files manifest project map entry = .ok result) :
    ((∀ dir, ¬ DeclaresPath files manifest.dir project entry dir) ∧
        result = map) ∨
      ∃ canon, DeclaresPath files manifest.dir project entry canon ∧
        (map.get? entry.1 = some canon ∧ result = map ∨
          map.get? entry.1 = none ∧
            result = map.insert entry.1 canon) := by
  unfold visitEntry at hok
  split at hok
  · rename_i hpath
    cases hok
    left
    refine ⟨?_, rfl⟩
    rintro dir ⟨relPath, hsome, -⟩
    rw [hpath] at hsome
    cases hsome
  · rename_i relPath hpath
    split at hok
    · cases hok
    · rename_i canon hcanon
      split at hok
      · rename_i hwithin
        cases hok
        left
        refine ⟨?_, rfl⟩
        intro dir hdeclares
        obtain ⟨rfl, houtside⟩ := (declaresPath_iff hpath hcanon).mp hdeclares
        exact houtside hwithin
      · rename_i hwithin
        right
        refine ⟨canon, ⟨relPath, hpath, hcanon, hwithin⟩, ?_⟩
        split at hok
        · rename_i existing hexisting
          split at hok
          · cases hok
          · rename_i hsame
            rw [not_not] at hsame
            cases hok
            exact .inl ⟨hsame ▸ hexisting, rfl⟩
        · rename_i hnew
          cases hok
          exact .inr ⟨hnew, rfl⟩

/-- A visited entry adds the directory it declares, and nothing else. -/
theorem visitEntry_get?_iff {manifest : Manifest} {project : Path}
    {map result : PathMap} {entry : String × Toml}
    (hok : visitEntry files manifest project map entry = .ok result)
    (name : String) (dir : Path) :
    result.get? name = some dir ↔
      map.get? name = some dir ∨
        (entry.1 = name ∧
          DeclaresPath files manifest.dir project entry dir) := by
  rcases visitEntry_cases hok with
    ⟨hnone, rfl⟩ | ⟨canon, hdeclares, ⟨hmap, rfl⟩ | ⟨hmap, rfl⟩⟩
  · simp [hnone]
  · constructor
    · exact Or.inl
    · rintro (hold | ⟨rfl, hdir⟩)
      · exact hold
      · rw [hdir.unique hdeclares]
        exact hmap
  · rw [AssocMap.get?_insert]
    by_cases hkey : entry.1 = name
    · rw [if_pos hkey, ← hkey, hmap, Option.some.injEq]
      constructor
      · rintro rfl
        exact .inr ⟨rfl, hdeclares⟩
      · rintro (hold | ⟨-, hdir⟩)
        · cases hold
        · exact hdeclares.unique hdir
    · simp [hkey]

theorem visitEntries_get?_iff {manifest : Manifest} {project : Path}
    {entries : List (String × Toml)} {map result : PathMap}
    (hok : visitEntries files manifest project entries map = .ok result)
    (name : String) (dir : Path) :
    result.get? name = some dir ↔
      map.get? name = some dir ∨ ∃ entry ∈ entries, entry.1 = name ∧
        DeclaresPath files manifest.dir project entry dir := by
  induction entries generalizing map with
  | nil =>
      cases hok
      simp
  | cons entry rest ih =>
      obtain ⟨next, hentry, hrest⟩ := bind_eq_ok_iff.mp hok
      rw [ih hrest, visitEntry_get?_iff hentry, or_assoc]
      simp

/-- A listed manifest declares the directory under the name, in a table that
is looked into. -/
def DeclaredIn (host : Host) (files : FileSystem) (project : Path)
    (manifests : List Manifest) (name : String) (dir : Path) : Prop :=
  ∃ manifest ∈ manifests, ∃ doc, readManifest host files manifest = .ok doc ∧
    ∃ entry ∈ visitedEntries doc, entry.1 = name ∧
      DeclaresPath files manifest.dir project entry dir

theorem extractPaths_get?_iff {project : Path} {manifests : List Manifest}
    {map result : PathMap}
    (hok : extractPaths host files project manifests map = .ok result)
    (name : String) (dir : Path) :
    result.get? name = some dir ↔
      map.get? name = some dir ∨
        DeclaredIn host files project manifests name dir := by
  induction manifests generalizing map with
  | nil =>
      cases hok
      simp [DeclaredIn]
  | cons manifest rest ih =>
      obtain ⟨next, hmanifest, hrest⟩ := bind_eq_ok_iff.mp hok
      obtain ⟨doc, hdoc, hentries⟩ := bind_eq_ok_iff.mp hmanifest
      rw [ih hrest, visitEntries_get?_iff hentries, or_assoc]
      have hcons : DeclaredIn host files project (manifest :: rest) name dir ↔
          (∃ entry ∈ visitedEntries doc, entry.1 = name ∧
            DeclaresPath files manifest.dir project entry dir) ∨
          DeclaredIn host files project rest name dir := by
        simp [DeclaredIn, hdoc]
      rw [hcons]

/-- The path of an entry, if it has one, leads somewhere. -/
def Resolvable (files : FileSystem) (manifestDir : Path)
    (entry : String × Toml) : Prop :=
  ∀ relPath, entry.2.getStr? "path" = some relPath →
    ∃ dir, files.canonicalize manifestDir relPath = some dir

/-- No name stands for two directories. -/
def Unambiguous (declares : String → Path → Prop) : Prop :=
  ∀ name dir dir', declares name dir → declares name dir' → dir = dir'

theorem Unambiguous.congr {declares declares' : String → Path → Prop}
    (hiff : ∀ name dir, declares name dir ↔ declares' name dir) :
    Unambiguous declares ↔ Unambiguous declares' := by
  simp only [Unambiguous, hiff]

/-- An entry is refused when its path leads nowhere, or elsewhere than the
path that was there under its name. -/
theorem visitEntry_ok_iff {manifest : Manifest} {project : Path}
    {map : PathMap} {entry : String × Toml} :
    (∃ result, visitEntry files manifest project map entry = .ok result) ↔
      Resolvable files manifest.dir entry ∧
        ∀ existing dir, map.get? entry.1 = some existing →
          DeclaresPath files manifest.dir project entry dir →
          existing = dir := by
  unfold visitEntry
  cases hpath : entry.2.getStr? "path" with
  | none => simp [Resolvable, DeclaresPath, hpath]
  | some relPath =>
      have hresolvable : Resolvable files manifest.dir entry ↔
          ∃ dir, files.canonicalize manifest.dir relPath = some dir := by
        simp [Resolvable, hpath]
      rw [hresolvable]
      cases hcanon : files.canonicalize manifest.dir relPath with
      | none => simp [hcanon]
      | some canon =>
          simp only [declaresPath_iff hpath hcanon, hcanon]
          by_cases hwithin : Path.Within project canon
          · simp [hwithin]
          · cases hmap : map.get? entry.1 with
            | none => simp [hwithin]
            | some existing =>
                by_cases hsame : existing = canon <;>
                  simp [hwithin, hsame]

theorem visitEntries_ok_iff {manifest : Manifest} {project : Path}
    {entries : List (String × Toml)} {map : PathMap} :
    (∃ result, visitEntries files manifest project entries map =
        .ok result) ↔
      (∀ entry ∈ entries, Resolvable files manifest.dir entry) ∧
        Unambiguous fun name dir => map.get? name = some dir ∨
          ∃ entry ∈ entries, entry.1 = name ∧
            DeclaresPath files manifest.dir project entry dir := by
  induction entries generalizing map with
  | nil =>
      refine iff_of_true ⟨map, rfl⟩ ⟨by simp, ?_⟩
      intro name dir dir' hdir hdir'
      simp only [List.not_mem_nil, false_and, exists_false, or_false]
        at hdir hdir'
      exact Option.some.inj (hdir.symm.trans hdir')
  | cons entry rest ih =>
      have hsplit : ∀ {next}, visitEntry files manifest project map entry =
          .ok next → ∀ name dir,
          (next.get? name = some dir ∨ ∃ entry ∈ rest, entry.1 = name ∧
            DeclaresPath files manifest.dir project entry dir) ↔
          (map.get? name = some dir ∨ ∃ other ∈ entry :: rest,
            other.1 = name ∧
            DeclaresPath files manifest.dir project other dir) := by
        intro next hnext name dir
        rw [visitEntry_get?_iff hnext, or_assoc]
        simp
      constructor
      · rintro ⟨result, hresult⟩
        obtain ⟨next, hnext, hrest⟩ := bind_eq_ok_iff.mp hresult
        obtain ⟨hresolvable, hone⟩ := ih.mp ⟨result, hrest⟩
        have hhead := (visitEntry_ok_iff.mp ⟨next, hnext⟩).1
        exact ⟨List.forall_mem_cons.mpr ⟨hhead, hresolvable⟩,
          (Unambiguous.congr (hsplit hnext)).mp hone⟩
      · rintro ⟨hresolvable, hone⟩
        obtain ⟨hhead, hrest⟩ := List.forall_mem_cons.mp hresolvable
        obtain ⟨next, hnext⟩ := visitEntry_ok_iff.mpr ⟨hhead, by
          intro existing dir hmap hdeclares
          exact hone entry.1 existing dir (Or.inl hmap)
            (Or.inr ⟨entry, List.mem_cons_self, rfl, hdeclares⟩)⟩
        obtain ⟨result, hresult⟩ := ih.mpr
          ⟨hrest, (Unambiguous.congr (hsplit hnext)).mpr hone⟩
        exact ⟨result, bind_eq_ok_iff.mpr ⟨next, hnext, hresult⟩⟩

/-- What is read and resolved of a listed manifest. -/
def Readable (host : Host) (files : FileSystem) (manifest : Manifest) :
    Prop :=
  ∃ doc, readManifest host files manifest = .ok doc ∧
    ∀ entry ∈ visitedEntries doc, Resolvable files manifest.dir entry

/-- The paths are extracted when every manifest can be read and no name is
declared twice with different directories, in whatever order. -/
theorem extractPaths_ok_iff {project : Path} {manifests : List Manifest}
    {map : PathMap} :
    (∃ result, extractPaths host files project manifests map =
        .ok result) ↔
      (∀ manifest ∈ manifests, Readable host files manifest) ∧
        Unambiguous fun name dir => map.get? name = some dir ∨
          DeclaredIn host files project manifests name dir := by
  induction manifests generalizing map with
  | nil =>
      refine iff_of_true ⟨map, rfl⟩ ⟨by simp, ?_⟩
      intro name dir dir' hdir hdir'
      simp only [DeclaredIn, List.not_mem_nil, false_and, exists_false,
        or_false] at hdir hdir'
      exact Option.some.inj (hdir.symm.trans hdir')
  | cons manifest rest ih =>
      have hsplit : ∀ {doc next}, readManifest host files manifest =
          .ok doc → visitEntries files manifest project
            (visitedEntries doc) map = .ok next → ∀ name dir,
          (next.get? name = some dir ∨
            DeclaredIn host files project rest name dir) ↔
          (map.get? name = some dir ∨
            DeclaredIn host files project (manifest :: rest) name dir) := by
        intro doc next hdoc hnext name dir
        rw [visitEntries_get?_iff hnext, or_assoc]
        simp [DeclaredIn, hdoc]
      constructor
      · rintro ⟨result, hresult⟩
        obtain ⟨next, hmanifest, hrest⟩ := bind_eq_ok_iff.mp hresult
        obtain ⟨doc, hdoc, hentries⟩ := bind_eq_ok_iff.mp hmanifest
        obtain ⟨hreadable, hone⟩ := ih.mp ⟨result, hrest⟩
        have hhead : Readable host files manifest :=
          ⟨doc, hdoc, (visitEntries_ok_iff.mp ⟨next, hentries⟩).1⟩
        exact ⟨List.forall_mem_cons.mpr ⟨hhead, hreadable⟩,
          (Unambiguous.congr (hsplit hdoc hentries)).mp hone⟩
      · rintro ⟨hreadable, hone⟩
        obtain ⟨⟨doc, hdoc, hresolvable⟩, hrest⟩ :=
          List.forall_mem_cons.mp hreadable
        have hdeclared : ∀ name dir, (∃ entry ∈ visitedEntries doc,
            entry.1 = name ∧
            DeclaresPath files manifest.dir project entry dir) →
            DeclaredIn host files project (manifest :: rest) name dir := by
          intro name dir hentry
          exact ⟨manifest, List.mem_cons_self, doc, hdoc, hentry⟩
        obtain ⟨next, hentries⟩ := visitEntries_ok_iff.mpr ⟨hresolvable, by
          intro name dir dir' hdir hdir'
          exact hone name dir dir' (hdir.imp_right (hdeclared name dir))
            (hdir'.imp_right (hdeclared name dir'))⟩
        obtain ⟨result, hresult⟩ := ih.mpr
          ⟨hrest, (Unambiguous.congr (hsplit hdoc hentries)).mpr hone⟩
        have hmanifest : extractPathsFromManifest host files manifest
            project map = .ok next :=
          bind_eq_ok_iff.mpr ⟨doc, hdoc, hentries⟩
        exact ⟨result, bind_eq_ok_iff.mpr ⟨next, hmanifest, hresult⟩⟩

/-- The root manifest or a listed member declares the directory under the
name. -/
def Declared (host : Host) (files : FileSystem) (project : Path)
    (name : String) (dir : Path) : Prop :=
  ∃ manifests, discoverManifests host files project = .ok manifests ∧
    DeclaredIn host files project manifests name dir

theorem canonicalProject_eq {project canon : Path}
    (hok : canonicalProject files project = .ok canon) : canon = project := by
  unfold canonicalProject at hok
  split at hok
  · cases hok
    rfl
  · cases hok

/-- The map holds what is declared. -/
theorem collectExternalPathDeps_get?_iff {project : Path} {map : PathMap}
    (hok : collectExternalPathDeps host files project = .ok map)
    (name : String) (dir : Path) :
    map.get? name = some dir ↔ Declared host files project name dir := by
  obtain ⟨canon, hcanon, hrest⟩ := bind_eq_ok_iff.mp hok
  obtain ⟨manifests, hmanifests, hextract⟩ := bind_eq_ok_iff.mp hrest
  cases canonicalProject_eq hcanon
  rw [extractPaths_get?_iff hextract, AssocMap.get?_empty]
  simp [Declared, hmanifests]

end Toolchain

end Kettle
