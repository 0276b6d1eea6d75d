/-
The dependencies of a Cargo build do not depend on the order in which anything
is listed: the packages of the lock file, the keys of the manifests, the
directories under a glob.
-/
import Kettle.Host.TomlOrder
import Kettle.Lib.Agree
import Kettle.Toolchain.CargoUri
import Kettle.Toolchain.MemberPatterns

namespace Kettle

/-- The bytes are the text of a document. -/
def Parses (host : Host) (bytes : Bytes) (doc : Toml) : Prop :=
  ∃ text, fromUtf8 bytes = some text ∧ host.parseToml text = .ok doc

/-- The same bytes, or the texts of two related documents. -/
inductive SameUpTo (host : Host) (relation : Toml → Toml → Prop) :
    Bytes → Bytes → Prop
  | same (bytes : Bytes) : SameUpTo host relation bytes bytes
  | related {left right : Bytes} {doc doc' : Toml} :
      Parses host left doc → Parses host right doc' → relation doc doc' →
      SameUpTo host relation left right

/-- Two listings of one tree: the order of the entries of a directory is left
open, and so is the order of the keys in the documents. -/
structure SameTree (host : Host) (left right : FileSystem) : Prop where
  isDir : ∀ path, left.isDir path = right.isDir path
  linkTarget? : ∀ path, left.linkTarget? path = right.linkTarget? path
  isDenied : ∀ path, left.isDenied path = right.isDenied path
  fileAt : ∀ path, Option.Rel (fun file file' =>
    SameUpTo host Toml.Reordered file.contents file'.contents)
    (left.fileAt path) (right.fileAt path)

section Trees

variable {host : Host} {left right : FileSystem}

theorem SameUpTo.symm {relation : Toml → Toml → Prop} {bytes bytes' : Bytes}
    (hrel : ∀ doc doc', relation doc doc' → relation doc' doc)
    (hsame : SameUpTo host relation bytes bytes') :
    SameUpTo host relation bytes' bytes := by
  cases hsame with
  | same => exact .same _
  | related hparse hparse' hdocs => exact .related hparse' hparse (hrel _ _ hdocs)

theorem SameTree.symm (htree : SameTree host left right) :
    SameTree host right left where
  isDir path := (htree.isDir path).symm
  linkTarget? path := (htree.linkTarget? path).symm
  isDenied path := (htree.isDenied path).symm
  fileAt path := by
    rcases Toml.optionRel_cases (htree.fileAt path) with
      ⟨hleft, hright⟩ | ⟨file, file', hleft, hright, hsame⟩
    · rw [hleft, hright]
      exact .none
    · rw [hleft, hright]
      exact .some (hsame.symm fun _ _ => Toml.Reordered.symm)

theorem SameTree.isFile (htree : SameTree host left right) (path : Path) :
    left.isFile path = right.isFile path := by
  unfold FileSystem.isFile
  rcases Toml.optionRel_cases (htree.fileAt path) with
    ⟨hleft, hright⟩ | ⟨file, file', hleft, hright, -⟩ <;>
    rw [hleft, hright]
  rfl

theorem SameTree.exists? (htree : SameTree host left right) (path : Path) :
    left.exists? path = right.exists? path := by
  unfold FileSystem.exists?
  rw [htree.isDir, htree.isFile]

theorem SameTree.isLink (htree : SameTree host left right) (path : Path) :
    left.isLink path = right.isLink path := by
  rw [FileSystem.isLink, FileSystem.isLink, htree.linkTarget?]

theorem SameTree.isOwnDir (htree : SameTree host left right) (path : Path) :
    left.isOwnDir path = right.isOwnDir path :=
  FileSystem.isOwnDir_congr htree.isDir htree.linkTarget? path

theorem SameTree.resolve (htree : SameTree host left right)
    (here names : Path) : left.resolve here names = right.resolve here names := by
  induction names generalizing here with
  | nil =>
      unfold FileSystem.resolve
      rw [htree.exists?, htree.isLink]
  | cons name rest ih =>
      unfold FileSystem.resolve
      rw [htree.isOwnDir,
        FileSystem.followStep_congr htree.isDir htree.linkTarget?, funext ih]

theorem SameTree.canonicalize (htree : SameTree host left right) (base : Path)
    (text : String) :
    left.canonicalize base text = right.canonicalize base text := by
  unfold FileSystem.canonicalize
  rw [htree.resolve, htree.resolve]

/-- What a file says is the same up to the order of keys, for each of the ways
in which it is parsed. -/
theorem SameUpTo.agree {relation : Toml → Toml → Prop}
    (hrefl : ∀ doc, relation doc doc) {bytes bytes' : Bytes}
    (hsame : SameUpTo host relation bytes bytes') (notUtf8 notToml : String) :
    Agree relation
      (do
        let text ← okOr notUtf8 (fromUtf8 bytes)
        Toolchain.withContext notToml (host.parseToml text))
      (do
        let text ← okOr notUtf8 (fromUtf8 bytes')
        Toolchain.withContext notToml (host.parseToml text)) := by
  cases hsame with
  | same => exact .refl hrefl _
  | related hparse hparse' hdocs =>
      obtain ⟨text, htext, hdoc⟩ := hparse
      obtain ⟨text', htext', hdoc'⟩ := hparse'
      rw [htext, htext', okOr_some, okOr_some, ok_bind, ok_bind, hdoc, hdoc']
      exact .ok hdocs

end Trees

namespace Toolchain

variable {host : Host} {left right : FileSystem} {project : Path}

theorem globDirs_agree (htree : SameTree host left right) (base : Path) :
    Agree List.Perm (globDirs left base) (globDirs right base) := by
  refine .of_ok ?_ ?_
  · rw [exists_globDirs_iff, exists_globDirs_iff, htree.isDir,
      htree.isDenied]
  · intro dirs dirs' hdirs hdirs'
    refine (List.perm_ext_iff_of_nodup (nodup_globDirs hdirs)
      (nodup_globDirs hdirs')).mpr fun dir => ?_
    rw [mem_globDirs_iff hdirs, mem_globDirs_iff hdirs', htree.isOwnDir]

theorem withContext_agree {α β : Type} {R : α → β → Prop}
    {run : Except String α} {run' : Except String β} (hagree : Agree R run run')
    (message message' : String) :
    Agree R (withContext message run) (withContext message' run') := by
  cases hagree with
  | ok hrel => exact .ok hrel
  | error => exact .error _ _

theorem expandMemberPattern_agree (htree : SameTree host left right)
    (pattern : String) :
    Agree List.Perm (expandMemberPattern left project pattern)
      (expandMemberPattern right project pattern) := by
  unfold expandMemberPattern
  simp only [htree.canonicalize]
  split
  · exact .refl List.Perm.refl _
  · split
    · exact .error _ _
    · split
      · exact .error _ _
      · rename_i dir _
        refine (withContext_agree (globDirs_agree htree dir) _ _).map ?_
        intro dirs dirs' hperm
        exact hperm.map _

/-- The manifest in one directory of an entry. -/
def manifestIn (files : FileSystem) (pattern : String)
    (member : Option Path × String) : Except String (List Manifest) :=
  match member.1.filter (fun dir => files.exists? (cargoToml dir)) with
  | some dir => .ok [⟨dir, member.2 ++ "/Cargo.toml"⟩]
  | none =>
      if '*' ∈ pattern.toList then .ok []
      else
        .error s!"workspace member `{pattern}` resolved to {member.2} but no Cargo.toml is present"

theorem manifestsIn_eq_mapM (files : FileSystem) (pattern : String)
    (members : List (Option Path × String)) :
    manifestsIn files pattern members =
      (do
        let found ← members.mapM (manifestIn files pattern)
        .ok found.flatten) := by
  induction members with
  | nil => rfl
  | cons member rest ih =>
      rw [manifestsIn, List.mapM_cons, ih, manifestIn]
      generalize rest.mapM (manifestIn files pattern) = later
      cases member.1.filter fun dir => files.exists? (cargoToml dir) with
      | some dir => cases later <;> rfl
      | none =>
          by_cases hglob : '*' ∈ pattern.toList
          · simp only [if_pos hglob]
            cases later <;> rfl
          · simp only [if_neg hglob]
            rfl

theorem manifestsIn_agree (htree : SameTree host left right)
    (pattern : String) {members members' : List (Option Path × String)}
    (hperm : members.Perm members') :
    Agree List.Perm (manifestsIn left pattern members)
      (manifestsIn right pattern members') := by
  have hsame : manifestIn left pattern = manifestIn right pattern := by
    funext member
    unfold manifestIn
    simp only [htree.exists?]
  rw [manifestsIn_eq_mapM, manifestsIn_eq_mapM, hsame]
  refine (Agree.mapM_perm _ hperm).bind fun found found' hfound => ?_
  exact .ok hfound.flatten

theorem memberManifests_agree (htree : SameTree host left right)
    {members members' : List Toml}
    (hmembers : List.Forall₂ Toml.Reordered members members') :
    Agree List.Perm (memberManifests left project members)
      (memberManifests right project members') := by
  induction hmembers with
  | nil => exact .ok (.refl _)
  | @cons member member' _ _ hmember _ ih =>
      unfold memberManifests
      rw [← hmember.asStr]
      cases member.asStr with
      | none => exact ih
      | some pattern =>
          refine (expandMemberPattern_agree htree pattern).bind ?_
          intro dirs dirs' hdirs
          refine (manifestsIn_agree htree pattern hdirs).bind ?_
          intro found found' hfound
          refine ih.bind fun later later' hlater => ?_
          exact .ok (hfound.append hlater)

theorem readManifest_agree (htree : SameTree host left right)
    (manifest : Manifest) :
    Agree Toml.Reordered (readManifest host left manifest)
      (readManifest host right manifest) := by
  unfold readManifest FileSystem.read
  rcases Toml.optionRel_cases (htree.fileAt (cargoToml manifest.dir)) with
    ⟨hleft, hright⟩ | ⟨file, file', hleft, hright, hsame⟩
  · rw [hleft, hright]
    exact .error _ _
  · rw [hleft, hright, ← htree.isDenied]
    cases left.isDenied (cargoToml manifest.dir) with
    | true => exact .error _ _
    | false => exact hsame.agree (fun _ => .refl) _ _

theorem workspaceMembers_reordered {doc doc' : Toml}
    (hdocs : Toml.Reordered doc doc') :
    List.Forall₂ Toml.Reordered (workspaceMembers doc)
      (workspaceMembers doc') := by
  have hget : ∀ doc : Toml, workspaceMembers doc =
      (((doc.get? "workspace").bind fun value => value.get? "members").bind
        Toml.asArray).getD [] := by
    intro doc
    unfold workspaceMembers Toml.getTable?
    cases doc.get? "workspace" <;> rfl
  rw [hget, hget]
  rcases Toml.optionRel_cases (hdocs.get? "workspace") with
    ⟨hleft, hright⟩ | ⟨value, value', hleft, hright, hvalue⟩
  · rw [hleft, hright]
    exact .nil
  rw [hleft, hright, Option.bind_some, Option.bind_some]
  rcases Toml.optionRel_cases (hvalue.get? "members") with
    ⟨hleft, hright⟩ | ⟨list, list', hleft, hright, hlist⟩
  · rw [hleft, hright]
    exact .nil
  rw [hleft, hright, Option.bind_some, Option.bind_some]
  rcases Toml.optionRel_cases hlist.asArray with
    ⟨hleft, hright⟩ | ⟨members, members', hleft, hright, hmembers⟩
  · rw [hleft, hright]
    exact .nil
  · rw [hleft, hright]
    exact hmembers

theorem discoverManifests_agree (htree : SameTree host left right) :
    Agree List.Perm (discoverManifests host left project)
      (discoverManifests host right project) := by
  refine (readManifest_agree htree _).bind fun doc doc' hdocs => ?_
  refine (memberManifests_agree htree
    (workspaceMembers_reordered hdocs)).bind fun found found' hfound => ?_
  exact .ok (hfound.cons _)

theorem keyTables_covered {doc doc' : Toml} (hdocs : Toml.Reordered doc doc')
    {keys : List String} {table : List (String × Toml)}
    (htable : table ∈ keys.filterMap doc.getTable?) :
    ∃ table' ∈ keys.filterMap doc'.getTable?, Toml.Covers table table' := by
  obtain ⟨key, hkey, hget⟩ := List.mem_filterMap.mp htable
  obtain ⟨table', hget', hcovers⟩ := hdocs.getTable?_some hget
  exact ⟨table', List.mem_filterMap.mpr ⟨key, hkey, hget'⟩, hcovers⟩

theorem mem_getTable?_getD_iff {doc : Toml} {key : String}
    {entry : String × Toml} :
    entry ∈ (doc.getTable? key).getD [] ↔
      ∃ entries, doc.getTable? key = some entries ∧ entry ∈ entries := by
  cases doc.getTable? key <;> simp

/-- An entry of a table in a document has a counterpart. -/
theorem entry_covered {doc doc' : Toml} (hdocs : Toml.Reordered doc doc')
    {key : String} {entry : String × Toml}
    (hentry : entry ∈ (doc.getTable? key).getD []) :
    ∃ entry' ∈ (doc'.getTable? key).getD [],
      Toml.Reordered entry.2 entry'.2 := by
  obtain ⟨entries, hentries, hmem⟩ := mem_getTable?_getD_iff.mp hentry
  obtain ⟨entries', hentries', hcovers⟩ := hdocs.getTable?_some hentries
  obtain ⟨entry', hmem', -, hvalue⟩ := hcovers entry hmem
  exact ⟨entry', mem_getTable?_getD_iff.mpr ⟨entries', hentries', hmem'⟩,
    hvalue⟩

theorem dependencyTables_covered {doc doc' : Toml}
    (hdocs : Toml.Reordered doc doc') {keys : List String}
    {table : List (String × Toml)}
    (htable : table ∈ dependencyTables keys doc) :
    ∃ table' ∈ dependencyTables keys doc', Toml.Covers table table' := by
  unfold dependencyTables at htable ⊢
  rcases List.mem_append.mp htable with hdirect | htarget
  · obtain ⟨table', htable', hcovers⟩ := keyTables_covered hdocs hdirect
    exact ⟨table', List.mem_append_left _ htable', hcovers⟩
  · obtain ⟨target, hmem, hnested⟩ := List.mem_flatMap.mp htarget
    obtain ⟨target', hmem', hvalue⟩ := entry_covered hdocs hmem
    obtain ⟨table', htable', hcovers⟩ := keyTables_covered hvalue hnested
    exact ⟨table', List.mem_append_right _
      (List.mem_flatMap.mpr ⟨target', hmem', htable'⟩), hcovers⟩

theorem patchTables_covered {doc doc' : Toml}
    (hdocs : Toml.Reordered doc doc') {table : List (String × Toml)}
    (htable : table ∈ patchTables doc) :
    ∃ table' ∈ patchTables doc', Toml.Covers table table' := by
  obtain ⟨registry, hmem, hentries⟩ := List.mem_filterMap.mp htable
  obtain ⟨registry', hmem', hvalue⟩ := entry_covered hdocs hmem
  obtain ⟨table', hentries', hcovers⟩ :=
    Toml.exists_of_optionRel hvalue.asTable hentries
  exact ⟨table', List.mem_filterMap.mpr ⟨registry', hmem', hentries'⟩,
    hcovers⟩

theorem visitedEntries_covers {doc doc' : Toml}
    (hdocs : Toml.Reordered doc doc') :
    Toml.Covers (visitedEntries doc) (visitedEntries doc') := by
  intro entry hentry
  obtain ⟨table, htable, hmem⟩ := List.mem_flatten.mp hentry
  have htable' : ∃ table' ∈ dependencyTables dependencyKeys doc' ++
      patchTables doc', Toml.Covers table table' := by
    rcases List.mem_append.mp htable with hdependency | hpatch
    · obtain ⟨table', htable', hcovers⟩ :=
        dependencyTables_covered hdocs hdependency
      exact ⟨table', List.mem_append_left _ htable', hcovers⟩
    · obtain ⟨table', htable', hcovers⟩ := patchTables_covered hdocs hpatch
      exact ⟨table', List.mem_append_right _ htable', hcovers⟩
  obtain ⟨table', htable', hcovers⟩ := htable'
  obtain ⟨entry', hmem', hsame⟩ := hcovers entry hmem
  exact ⟨entry', List.mem_flatten.mpr ⟨table', htable', hmem'⟩, hsame⟩

theorem Readable.of_sameTree (htree : SameTree host left right)
    {manifest : Manifest} (hreadable : Readable host left manifest) :
    Readable host right manifest := by
  obtain ⟨doc, hdoc, hentries⟩ := hreadable
  obtain ⟨doc', hdoc', hdocs⟩ := (readManifest_agree htree manifest).exists_ok
    hdoc
  refine ⟨doc', hdoc', ?_⟩
  intro entry' hentry' relPath hpath
  obtain ⟨entry, hentry, -, hvalue⟩ :=
    visitedEntries_covers hdocs.symm entry' hentry'
  rw [hvalue.getStr?] at hpath
  rw [← htree.canonicalize]
  exact hentries entry hentry relPath hpath

theorem DeclaredIn.of_sameTree (htree : SameTree host left right)
    {manifests manifests' : List Manifest}
    (hperm : manifests.Perm manifests') {name : String} {dir : Path}
    (hdeclared : DeclaredIn host left project manifests name dir) :
    DeclaredIn host right project manifests' name dir := by
  obtain ⟨manifest, hmanifest, doc, hdoc, entry, hentry, hname, relPath, hpath,
    hcanon, houtside⟩ := hdeclared
  obtain ⟨doc', hdoc', hdocs⟩ := (readManifest_agree htree manifest).exists_ok
    hdoc
  obtain ⟨entry', hentry', hkey, hvalue⟩ :=
    visitedEntries_covers hdocs entry hentry
  refine ⟨manifest, hperm.mem_iff.mp hmanifest, doc', hdoc', entry', hentry',
    hkey ▸ hname, relPath, ?_, ?_, houtside⟩
  · rw [← hvalue.getStr?, hpath]
  · rw [← htree.canonicalize, hcanon]

theorem extractPaths_agree (htree : SameTree host left right)
    {manifests manifests' : List Manifest}
    (hperm : manifests.Perm manifests') :
    Agree (fun map map' => ∀ name, map.get? name = map'.get? name)
      (extractPaths host left project manifests .empty)
      (extractPaths host right project manifests' .empty) := by
  have hdeclared : ∀ name dir,
      DeclaredIn host left project manifests name dir ↔
        DeclaredIn host right project manifests' name dir := fun name dir =>
    ⟨.of_sameTree htree hperm, .of_sameTree htree.symm hperm.symm⟩
  refine .of_ok ?_ ?_
  · rw [extractPaths_ok_iff, extractPaths_ok_iff]
    refine and_congr ?_ (Unambiguous.congr fun name dir => ?_)
    · constructor
      · intro hall manifest hmanifest
        exact (hall manifest (hperm.mem_iff.mpr hmanifest)).of_sameTree htree
      · intro hall manifest hmanifest
        exact (hall manifest (hperm.mem_iff.mp hmanifest)).of_sameTree
          htree.symm
    · rw [hdeclared]
  · intro map map' hmap hmap' name
    apply Option.ext
    intro dir
    rw [extractPaths_get?_iff hmap, extractPaths_get?_iff hmap', hdeclared]

theorem canonicalProject_agree (htree : SameTree host left right) :
    canonicalProject left project = canonicalProject right project := by
  unfold canonicalProject
  rw [htree.exists?]

theorem collectExternalPathDeps_agree (htree : SameTree host left right) :
    Agree (fun map map' => ∀ name, map.get? name = map'.get? name)
      (collectExternalPathDeps host left project)
      (collectExternalPathDeps host right project) := by
  unfold collectExternalPathDeps
  rw [canonicalProject_agree htree]
  refine (Agree.refl (R := Eq) (fun _ => rfl) _).bind ?_
  rintro canon - rfl
  refine (discoverManifests_agree htree).bind fun manifests manifests' h => ?_
  exact extractPaths_agree htree h

/-- Only directories outside of the project are in the map. -/
theorem not_within_of_collected {files : FileSystem} {map : PathMap}
    (hok : collectExternalPathDeps host files project = .ok map)
    {name : String} {dir : Path} (hdir : map.get? name = some dir) :
    ¬ Path.Within project dir := by
  obtain ⟨_, _, _, _, _, _, _, _, _, _, _, _, houtside⟩ :=
    (collectExternalPathDeps_get?_iff hok name dir).mp hdir
  exact houtside

/-- A package is classified by what is read of it, what is declared under its
name and what git says there. -/
theorem classifyPackage_congr {map map' : PathMap} {pkg pkg' : Toml}
    (hpkg : ∀ key, pkg.getStr? key = pkg'.getStr? key)
    (hmap : ∀ name, map.get? name = map'.get? name)
    (hgit : ∀ name dir args, map.get? name = some dir →
      host.git left dir args = host.git right dir args) :
    classifyPackage host left pkg map project =
      classifyPackage host right pkg' map' project := by
  unfold classifyPackage
  simp only [hpkg]
  cases pkg'.getStr? "name" with
  | none => rfl
  | some name =>
      rw [okOr_some, ok_bind, ok_bind]
      cases pkg'.getStr? "version" with
      | none => rfl
      | some version =>
          rw [okOr_some, ok_bind, ok_bind, ← hmap name]
          cases pkg'.getStr? "source" with
          | some src =>
              have hregistry : registryDependency name version pkg =
                  registryDependency name version pkg' := by
                unfold registryDependency
                rw [hpkg]
              simp only [hregistry]
          | none =>
              cases hdir : map.get? name with
              | none => rfl
              | some dir =>
                  have hsame := fun args => hgit name dir args hdir
                  simp only [pathDependency, assertClean, gitShaAt, hsame]

theorem classifyPackages_eq_mapM {files : FileSystem} {map : PathMap}
    (packages : List Toml) :
    classifyPackages host files map project packages =
      (do
        let found ← packages.mapM fun pkg =>
          classifyPackage host files pkg map project
        .ok (found.flatMap Option.toList)) := by
  induction packages with
  | nil => rfl
  | cons pkg rest ih =>
      rw [classifyPackages, List.mapM_cons, ih]
      generalize (rest.mapM fun pkg =>
        classifyPackage host files pkg map project) = later
      cases classifyPackage host files pkg map project with
      | error message => rfl
      | ok dep => cases later <;> rfl

/-- The packages of a lock file in another order, and their keys as well. -/
def PackagesPermuted (lock lock' : Toml) : Prop :=
  ∃ packages, (lockPackages lock).Perm packages ∧
    List.Forall₂ Toml.Reordered packages (lockPackages lock')

theorem PackagesPermuted.refl (lock : Toml) : PackagesPermuted lock lock :=
  ⟨_, .refl _, List.forall₂_same.mpr fun _ _ => .refl⟩

theorem classifyPackages_agree {map map' : PathMap} {lock lock' : Toml}
    (hlock : PackagesPermuted lock lock')
    (hmap : ∀ name, map.get? name = map'.get? name)
    (hgit : ∀ name dir args, map.get? name = some dir →
      host.git left dir args = host.git right dir args) :
    Agree List.Perm
      (classifyPackages host left map project (lockPackages lock))
      (classifyPackages host right map' project (lockPackages lock')) := by
  obtain ⟨packages, hperm, hsame⟩ := hlock
  rw [classifyPackages_eq_mapM, classifyPackages_eq_mapM]
  have hfirst := Agree.mapM_perm
    (fun pkg => classifyPackage host left pkg map project) hperm
  have hsecond : Agree (List.Forall₂ Eq)
      (packages.mapM fun pkg => classifyPackage host left pkg map project)
      ((lockPackages lock').mapM fun pkg =>
        classifyPackage host right pkg map' project) := by
    refine Agree.mapM ?_ hsame
    intro pkg pkg' hpkg
    rw [classifyPackage_congr hpkg.getStr? hmap hgit]
    exact .refl (fun _ => rfl) _
  refine (hfirst.trans hsecond).bind ?_
  rintro found found' ⟨middle, hfound, hmiddle⟩
  rw [List.forall₂_eq_eq_eq] at hmiddle
  subst hmiddle
  exact .ok (hfound.flatMap_right _)

/-- Every dependency is what a package was classified as. -/
theorem exists_of_mem_classified {files : FileSystem} {map : PathMap}
    {packages : List Toml} {deps : List ResolvedDependency}
    (hok : classifyPackages host files map project packages = .ok deps)
    {dep : ResolvedDependency} (hdep : dep ∈ deps) :
    ∃ pkg ∈ packages,
      classifyPackage host files pkg map project = .ok (some dep) := by
  rw [classifyPackages_eq_mapM] at hok
  obtain ⟨found, hfound, hdeps⟩ := bind_eq_ok_iff.mp hok
  cases hdeps
  obtain ⟨result, hresult, hmem⟩ := List.mem_flatMap.mp hdep
  obtain ⟨pkg, hpkg, hclassified⟩ := exists_mem_of_forall₂
    (mapM_eq_ok_iff.mp hfound) hresult
  rw [Option.mem_toList.mp hmem] at hclassified
  exact ⟨pkg, hpkg, hclassified⟩

/-- Whatever the order of the packages, of the keys and of the directories,
the outcome is the same: the same sorted list, or an error. -/
theorem resolveDependencies_order_independent
    {lockfileBytes lockfileBytes' : Bytes}
    (htree : SameTree host left right)
    (hlock : SameUpTo host PackagesPermuted lockfileBytes lockfileBytes')
    (hgit : ∀ dir args, ¬ Path.Within project dir →
      host.git left dir args = host.git right dir args)
    (hheads : HexadecimalHeads host left)
    (hgrammar : ∀ lock, parseLock host lockfileBytes = .ok lock →
      ∀ pkg ∈ lockPackages lock, CargoGrammar pkg) :
    Agree Eq (resolveDependencies host left project lockfileBytes)
        (resolveDependencies host right project lockfileBytes') ∧
      ∀ deps, resolveDependencies host left project lockfileBytes =
          .ok deps →
        deps.Pairwise fun dep dep' => dep.uri ≤ dep'.uri := by
  constructor
  · unfold resolveDependencies
    rw [canonicalProject_agree htree]
    refine (Agree.refl (R := Eq) (fun _ => rfl) _).withRuns.bind ?_
    rintro canon canon' ⟨hcanon, -, hsame⟩
    rw [← hsame, canonicalProject_eq hcanon]
    refine (collectExternalPathDeps_agree htree).withRuns.bind ?_
    rintro map map' ⟨hcollected, -, hmap⟩
    refine (hlock.agree PackagesPermuted.refl _ _).withRuns.bind ?_
    rintro lock lock' ⟨hparsed, -, hpermuted⟩
    have hanswers : ∀ name dir args, map.get? name = some dir →
        host.git left dir args = host.git right dir args := by
      intro name dir args hdir
      exact hgit dir args (not_within_of_collected hcollected hdir)
    refine (classifyPackages_agree hpermuted hmap hanswers).withRuns.bind ?_
    rintro deps deps' ⟨hdeps, -, hperm⟩
    refine .ok (StableSort.sortBy_eq_of_perm_of_injOn _ hperm ?_)
    intro dep hdep dep' hdep' huri
    obtain ⟨pkg, hpkg, hok⟩ := exists_of_mem_classified hdeps hdep
    obtain ⟨pkg', hpkg', hok'⟩ := exists_of_mem_classified hdeps hdep'
    exact eq_of_uri_eq hheads (hgrammar lock hparsed pkg hpkg)
      (hgrammar lock hparsed pkg' hpkg') hok hok' huri
  · intro deps hdeps
    obtain ⟨_, -, hrest⟩ := bind_eq_ok_iff.mp hdeps
    obtain ⟨_, -, hrest⟩ := bind_eq_ok_iff.mp hrest
    obtain ⟨_, -, hrest⟩ := bind_eq_ok_iff.mp hrest
    obtain ⟨found, -, hsorted⟩ := bind_eq_ok_iff.mp hrest
    cases hsorted
    exact StableSort.pairwise_sortBy _ found

/-- A workspace of the directories below it, with a dependency beside them
all. -/
def globRoot : List (String × Toml) := [
  ("dependencies", .table [("foo", .table [("path", .string "../foo")])]),
  ("workspace", .table [("members", .array [.string "*"])])]

def globMember : Toml :=
  .table [("dependencies",
    .table [("foo", .table [("path", .string "../../foo")])])]

def lockedFoo : Toml :=
  .table [("name", .string "foo"), ("version", .string "0.2.0")]

def lockedBar : Toml :=
  .table [
    ("name", .string "bar"), ("version", .string "1.0.0"),
    ("source", .string "git+https://example.com/bar#9fceb02d")]

/-- The texts of the documents are `a` to `e`. -/
noncomputable def globHost : Host :=
  .plain
    (fun _ _ args =>
      if args = ["status", "--porcelain"] then .ok "" else .ok "0badcafe")
    (fun text =>
      if text = "a" then .ok (.table globRoot)
      else if text = "b" then .ok (.table globRoot.reverse)
      else if text = "c" then
        .ok (.table [("package", .array [lockedFoo, lockedBar])])
      else if text = "e" then .ok globMember
      else .ok (.table [("package", .array [lockedBar, lockedFoo])]))

def globFiles : FileSystem where
  nodes := ⟨[
    (["app"], .dir),
    (["app", "Cargo.toml"], .file ⟨false, [0x61]⟩),
    (["app", "x"], .dir), (["app", "y"], .dir),
    (["app", "x", "Cargo.toml"], .file ⟨false, [0x65]⟩),
    (["app", "y", "Cargo.toml"], .file ⟨false, [0x65]⟩),
    (["foo"], .dir)], by decide⟩
  closed := by decide

def relistedFiles : FileSystem where
  nodes := ⟨[
    (["app"], .dir), (["app", "y"], .dir), (["app", "x"], .dir),
    (["app", "Cargo.toml"], .file ⟨false, [0x62]⟩),
    (["app", "y", "Cargo.toml"], .file ⟨false, [0x65]⟩),
    (["app", "x", "Cargo.toml"], .file ⟨false, [0x65]⟩),
    (["foo"], .dir)], by decide⟩
  closed := by decide

theorem globRoot_reordered :
    Toml.Reordered (.table globRoot) (.table globRoot.reverse) :=
  (Toml.Permuted.table (by decide) (List.reverse_perm _).symm).reordered

theorem globFiles_get?_eq_none {path : Path}
    (hpath : path ∉ globFiles.nodes.entries.map Prod.fst) :
    globFiles.get? path = none ∧ relistedFiles.get? path = none := by
  have hkeys : (globFiles.nodes.entries.map Prod.fst).Perm
      (relistedFiles.nodes.entries.map Prod.fst) := by decide
  exact ⟨AssocMap.get?_eq_none hpath,
    AssocMap.get?_eq_none fun hmem => hpath (hkeys.mem_iff.mpr hmem)⟩

theorem globFiles_sameTree : SameTree globHost globFiles relistedFiles where
  isDir path := by
    by_cases hpath : path ∈ globFiles.nodes.entries.map Prod.fst
    · revert path
      decide
    · obtain ⟨hnone, hnone'⟩ := globFiles_get?_eq_none hpath
      unfold FileSystem.get? at hnone hnone'
      simp only [FileSystem.isDir, dirIn, hnone, hnone']
  linkTarget? _ := rfl
  isDenied _ := rfl
  fileAt path := by
    by_cases hpath : path ∈ globFiles.nodes.entries.map Prod.fst
    · have hcases : ∀ path ∈ globFiles.nodes.entries.map Prod.fst,
          path = ["app", "Cargo.toml"] ∨
            globFiles.fileAt path = relistedFiles.fileAt path := by decide
      rcases hcases path hpath with rfl | hsame
      · exact .some (.related ⟨"a", by decide +kernel, rfl⟩
          ⟨"b", by decide +kernel, rfl⟩ globRoot_reordered)
      · rw [hsame]
        cases relistedFiles.fileAt path with
        | none => exact .none
        | some file => exact .some (.same _)
    · obtain ⟨hnone, hnone'⟩ := globFiles_get?_eq_none hpath
      unfold FileSystem.fileAt
      rw [hnone, hnone']
      exact .none

theorem globLock_grammar (lock : Toml)
    (hlock : parseLock globHost [0x63] = .ok lock) :
    ∀ pkg ∈ lockPackages lock, CargoGrammar pkg := by
  have hparsed : parseLock globHost [0x63] =
      .ok (.table [("package", .array [lockedFoo, lockedBar])]) := rfl
  rw [hparsed] at hlock
  cases hlock
  intro pkg hpkg
  have hcases : pkg = lockedFoo ∨ pkg = lockedBar := by
    simpa using (show pkg ∈ [lockedFoo, lockedBar] from hpkg)
  rcases hcases with rfl | rfl
  · refine ⟨?_, ?_, ?_⟩
    · rintro name hname
      cases hname
      decide
    · rintro version hversion
      cases hversion
      decide
    · rintro src rest url commit hsource
      cases hsource
  · refine ⟨?_, ?_, ?_⟩
    · rintro name hname
      cases hname
      decide
    · rintro version hversion
      cases hversion
      decide
    · rintro src rest url commit hsource hstripped hsplit
      cases hsource
      have hrest : stripPrefix "git+" "git+https://example.com/bar#9fceb02d" =
          some "https://example.com/bar#9fceb02d" := by decide +kernel
      rw [hrest] at hstripped
      cases hstripped
      have hparts : rsplitOnce '#' "https://example.com/bar#9fceb02d" =
          some ("https://example.com/bar", "9fceb02d") := by decide +kernel
      rw [hparts] at hsplit
      cases hsplit
      decide

/-- Both members and both packages are listed the other way round. -/
theorem resolveDependencies_order_independent_glob :
    ∃ deps : List ResolvedDependency, deps.length = 2 ∧
      resolveDependencies globHost globFiles ["app"] [0x63] = .ok deps ∧
      resolveDependencies globHost relistedFiles ["app"] [0x64] =
        .ok deps := by
  have hlock : SameUpTo globHost PackagesPermuted [0x63] [0x64] :=
    .related ⟨"c", by decide +kernel, rfl⟩ ⟨"d", by decide +kernel, rfl⟩
      ⟨_, .swap _ _ _, List.forall₂_same.mpr fun _ _ => .refl⟩
  have hheads : HexadecimalHeads globHost globFiles := by
    intro dir commit hcommit
    cases hcommit
    decide
  obtain ⟨deps, hdeps, hlength⟩ : ∃ deps, resolveDependencies globHost
      globFiles ["app"] [0x63] = .ok deps ∧ deps.length = 2 :=
    ⟨_, rfl, (StableSort.sortBy_perm _ _).length_eq⟩
  obtain ⟨deps', hdeps', hsame⟩ := (resolveDependencies_order_independent
    globFiles_sameTree hlock (fun _ _ _ => rfl) hheads
    globLock_grammar).1.exists_ok hdeps
  exact ⟨deps, hlength, hdeps, hsame ▸ hdeps'⟩

end Toolchain

end Kettle
