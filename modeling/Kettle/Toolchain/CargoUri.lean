/-
What a Cargo dependency is recorded as: its name, its version and where it
comes from, put together in a URI around separators.
-/
import Kettle.Lib.Separated
import Kettle.Toolchain.PathDependencies

namespace Kettle

namespace Toolchain

/-- Where a recorded package comes from. -/
inductive Origin where
  | registry (checksum : String)
  | git (url commit : String)
  | path (relPath : Path) (commit : String)
deriving DecidableEq

/-- A relative path as it is recorded. -/
def relText (relPath : Path) : String :=
  String.intercalate "/" (relPath.map OsStr.toStringLossy)

namespace Origin

/-- What stands for the origin behind the `?` of the URI. -/
def qualifier : Origin → String
  | registry checksum => "checksum=sha256:" ++ checksum
  | git url commit => "vcs_url=git+" ++ pctEncode url ++ "@" ++ commit
  | path relPath commit =>
      "vcs_url=git+file:" ++ pctEncode (relText relPath) ++ "@" ++ commit

def digest : Origin → Digest
  | registry checksum => .sha256 checksum
  | git _ commit | path _ commit => .gitCommit commit

def uri (origin : Origin) (name version : String) : String :=
  "pkg:cargo/" ++ name ++ "@" ++ version ++ "?" ++ origin.qualifier

def record (origin : Origin) (name version : String) :
    ResolvedDependency where
  annotations := none
  digest := origin.digest
  name := name
  uri := origin.uri name version

end Origin

/-- The origin of a package of the lock file, given the paths that the
manifests declare. -/
inductive OriginOf (host : Host) (files : FileSystem) (map : PathMap)
    (project : Path) (pkg : Toml) (name : String) : Origin → Prop
  | registry {src rest checksum : String} :
      pkg.getStr? "source" = some src →
      stripPrefix "registry+" src = some rest →
      pkg.getStr? "checksum" = some checksum →
      OriginOf host files map project pkg name (.registry checksum)
  | git {src rest url commit : String} :
      pkg.getStr? "source" = some src →
      stripPrefix "git+" src = some rest →
      rsplitOnce '#' rest = some (url, commit) →
      OriginOf host files map project pkg name (.git url commit)
  | path {dir : Path} {commit : String} :
      pkg.getStr? "source" = none → map.get? name = some dir →
      gitShaAt host files dir = .ok commit →
      OriginOf host files map project pkg name
        (.path (relativePath project dir) commit)

/-- The URI in the three forms in which the code writes it. -/
theorem Origin.registry_uri (name version checksum : String) :
    (registry checksum).uri name version =
      s!"pkg:cargo/{name}@{version}?checksum=sha256:{checksum}" := by
  have hsep : "?checksum=sha256:" = "?" ++ "checksum=sha256:" := by rfl
  rw [hsep]
  unfold uri qualifier
  simp only [toString, String.append_assoc]

theorem Origin.git_uri (name version url commit : String) :
    (git url commit).uri name version =
      s!"pkg:cargo/{name}@{version}?vcs_url=git+{pctEncode url}@{commit}" := by
  have hsep : "?vcs_url=git+" = "?" ++ "vcs_url=git+" := by rfl
  rw [hsep]
  unfold uri qualifier
  simp only [toString, String.append_assoc]

theorem Origin.path_uri (name version : String) (relPath : Path)
    (commit : String) :
    (path relPath commit).uri name version =
      s!"pkg:cargo/{name}@{version}?vcs_url=git+file:{pctEncode (relText relPath)}@{commit}" := by
  have hsep : "?vcs_url=git+file:" = "?" ++ "vcs_url=git+file:" := by rfl
  rw [hsep]
  unfold uri qualifier
  simp only [toString, String.append_assoc]

variable {host : Host} {files : FileSystem} {map : PathMap} {project : Path}
  {pkg : Toml} {dep : ResolvedDependency}

/-- A recorded package is the record of its origin. -/
theorem classifyPackage_eq_some
    (hok : classifyPackage host files pkg map project = .ok (some dep)) :
    ∃ name version origin, pkg.getStr? "name" = some name ∧
      pkg.getStr? "version" = some version ∧
      OriginOf host files map project pkg name origin ∧
      dep = origin.record name version := by
  obtain ⟨name, hname, hrest⟩ := bind_eq_ok_iff.mp hok
  obtain ⟨version, hversion, hrest⟩ := bind_eq_ok_iff.mp hrest
  rw [okOr_eq_ok_iff] at hname hversion
  refine ⟨name, version, ?_⟩
  cases hsource : pkg.getStr? "source" with
  | some src =>
      simp only [hsource] at hrest
      split at hrest
      · rename_i rest hregistry
        obtain ⟨found, hfound, hdep⟩ := map_eq_ok_iff.mp hrest
        cases hdep
        obtain ⟨checksum, hchecksum, hrecord⟩ := bind_eq_ok_iff.mp hfound
        cases hrecord
        refine ⟨.registry checksum, hname, hversion,
          .registry hsource hregistry (okOr_eq_ok_iff.mp hchecksum), ?_⟩
        rw [Origin.record, Origin.registry_uri]
        rfl
      · rename_i rest _ hgit
        obtain ⟨found, hfound, hdep⟩ := map_eq_ok_iff.mp hrest
        cases hdep
        obtain ⟨⟨url, commit⟩, hsplit, hrecord⟩ := bind_eq_ok_iff.mp hfound
        cases hrecord
        refine ⟨.git url commit, hname, hversion,
          .git hsource hgit (okOr_eq_ok_iff.mp hsplit), ?_⟩
        rw [Origin.record, Origin.git_uri]
        rfl
      · cases hrest
  | none =>
      simp only [hsource] at hrest
      cases hdir : map.get? name with
      | none =>
          simp only [hdir] at hrest
          cases hrest
      | some dir =>
          simp only [hdir] at hrest
          obtain ⟨found, hfound, hdep⟩ := map_eq_ok_iff.mp hrest
          cases hdep
          obtain ⟨clean, -, hfound⟩ := bind_eq_ok_iff.mp hfound
          obtain ⟨commit, hcommit, hrecord⟩ := bind_eq_ok_iff.mp hfound
          cases hrecord
          refine ⟨.path (relativePath project dir) commit, hname, hversion,
            .path hsource hdir (mapError_eq_ok_iff.mp hcommit), ?_⟩
          rw [Origin.record, Origin.path_uri]
          rfl

def Hexadecimal (text : String) : Prop :=
  ∀ c ∈ text.toList, c ∈ "0123456789abcdefABCDEF".toList

instance (text : String) : Decidable (Hexadecimal text) :=
  List.decidableBAll _ text.toList

theorem Hexadecimal.no_at {text : String} (hhex : Hexadecimal text) :
    '@' ∉ text.toList :=
  fun hat => absurd (hhex _ hat) (by decide)

/-- Cargo's own grammar of a package: the separators of the URI are not in
its name and version, and the commits of its source are hexadecimal. -/
structure CargoGrammar (pkg : Toml) : Prop where
  name : ∀ name, pkg.getStr? "name" = some name →
    '@' ∉ name.toList ∧ '?' ∉ name.toList
  version : ∀ version, pkg.getStr? "version" = some version →
    '@' ∉ version.toList ∧ '?' ∉ version.toList
  commit : ∀ src rest url commit, pkg.getStr? "source" = some src →
    stripPrefix "git+" src = some rest →
    rsplitOnce '#' rest = some (url, commit) → Hexadecimal commit

/-- What git prints of a commit is hexadecimal. -/
def HexadecimalHeads (host : Host) (files : FileSystem) : Prop :=
  ∀ dir commit, gitShaAt host files dir = .ok commit → Hexadecimal commit

namespace Origin

/-- The location and the commit of what is under version control. -/
def vcs? : Origin → Option (String × String)
  | registry _ => none
  | git url commit => some (url, commit)
  | path relPath commit => some ("file:" ++ relText relPath, commit)

theorem pctEncode_append (front back : String) :
    pctEncode (front ++ back) = pctEncode front ++ pctEncode back := by
  apply String.toList_inj.mp
  simp [pctEncode]

theorem qualifier_of_vcs {origin : Origin} {location commit : String}
    (hvcs : origin.vcs? = some (location, commit)) :
    origin.qualifier =
      "vcs_url=git+" ++ pctEncode location ++ "@" ++ commit := by
  cases origin with
  | registry checksum => cases hvcs
  | git url commit =>
      cases hvcs
      rfl
  | path relPath commit =>
      simp only [vcs?, Option.some.injEq, Prod.mk.injEq] at hvcs
      obtain ⟨rfl, rfl⟩ := hvcs
      have hscheme : pctEncode "file:" = "file:" := by decide +kernel
      have hsep : "vcs_url=git+file:" = "vcs_url=git+" ++ "file:" := by rfl
      rw [pctEncode_append "file:" (relText relPath), hscheme]
      unfold qualifier
      rw [hsep]
      simp only [String.append_assoc]

theorem digest_of_vcs {origin : Origin} {location commit : String}
    (hvcs : origin.vcs? = some (location, commit)) :
    origin.digest = .gitCommit commit := by
  cases origin <;> cases hvcs <;> rfl

/-- The commit is free of the separator in front of it. -/
def HexCommit (origin : Origin) : Prop :=
  ∀ location commit, origin.vcs? = some (location, commit) →
    Hexadecimal commit

/-- What a qualifier says: the checksum, or the commit and the encoded
location. -/
theorem qualifier_eq_iff {left right : Origin} (hleft : left.HexCommit)
    (hright : right.HexCommit) :
    left.qualifier = right.qualifier ↔
      (∃ checksum, left = registry checksum ∧ right = registry checksum) ∨
      ∃ location location' commit, left.vcs? = some (location, commit) ∧
        right.vcs? = some (location', commit) ∧
        pctEncode location = pctEncode location' := by
  have hkinds : ∀ checksum location commit : String,
      "checksum=sha256:" ++ checksum ≠
        "vcs_url=git+" ++ pctEncode location ++ "@" ++ commit := by
    intro checksum location commit heq
    have hchars := congrArg String.toList heq
    simp at hchars
  have hvcs : ∀ origin : Origin, (∃ checksum, origin = registry checksum) ∨
      ∃ location commit, origin.vcs? = some (location, commit) := by
    intro origin
    cases origin with
    | registry checksum => exact Or.inl ⟨checksum, rfl⟩
    | git url commit => exact Or.inr ⟨_, _, rfl⟩
    | path relPath commit => exact Or.inr ⟨_, _, rfl⟩
  constructor
  · intro heq
    rcases hvcs left with ⟨checksum, rfl⟩ | ⟨location, commit, hloc⟩
    · rcases hvcs right with ⟨checksum', rfl⟩ | ⟨location', commit', hloc'⟩
      · have hsame : checksum = checksum' :=
          (String.append_right_inj "checksum=sha256:").mp heq
        exact Or.inl ⟨checksum', congrArg registry hsame, rfl⟩
      · rw [qualifier_of_vcs hloc'] at heq
        exact absurd heq (hkinds _ _ _)
    · rcases hvcs right with ⟨checksum', rfl⟩ | ⟨location', commit', hloc'⟩
      · rw [qualifier_of_vcs hloc] at heq
        exact absurd heq.symm (hkinds _ _ _)
      · rw [qualifier_of_vcs hloc, qualifier_of_vcs hloc'] at heq
        have hchars : (pctEncode location).toList ++ '@' :: commit.toList =
            (pctEncode location').toList ++ '@' :: commit'.toList := by
          simpa using congrArg String.toList heq
        obtain ⟨hlocations, hcommits⟩ := Separated.last_inj
          (hleft _ _ hloc).no_at (hright _ _ hloc').no_at hchars
        rw [← String.toList_inj.mp hcommits] at hloc'
        exact Or.inr ⟨location, location', commit, hloc, hloc',
          String.toList_inj.mp hlocations⟩
  · rintro (⟨checksum, rfl, rfl⟩ | ⟨location, location', commit, hloc, hloc',
      hsame⟩)
    · rfl
    · rw [qualifier_of_vcs hloc, qualifier_of_vcs hloc', hsame]

/-- The parts of a URI are found again, up to the encoding of the origin. -/
theorem uri_eq_iff {left right : Origin} {name name' version version' : String}
    (hname : '@' ∉ name.toList) (hname' : '@' ∉ name'.toList)
    (hversion : '?' ∉ version.toList) (hversion' : '?' ∉ version'.toList) :
    left.uri name version = right.uri name' version' ↔
      name = name' ∧ version = version' ∧
        left.qualifier = right.qualifier := by
  constructor
  · intro huri
    have hchars : name.toList ++ '@' ::
          (version.toList ++ '?' :: left.qualifier.toList) =
        name'.toList ++ '@' ::
          (version'.toList ++ '?' :: right.qualifier.toList) := by
      simpa [uri] using congrArg String.toList huri
    obtain ⟨hnames, hrest⟩ := Separated.first_inj hname hname' hchars
    obtain ⟨hversions, hqualifiers⟩ :=
      Separated.first_inj hversion hversion' hrest
    exact ⟨String.toList_inj.mp hnames, String.toList_inj.mp hversions,
      String.toList_inj.mp hqualifiers⟩
  · rintro ⟨rfl, rfl, hqualifier⟩
    rw [uri, uri, hqualifier]

end Origin

theorem OriginOf.hexCommit {name : String} {origin : Origin}
    (horigin : OriginOf host files map project pkg name origin)
    (hgrammar : CargoGrammar pkg) (hheads : HexadecimalHeads host files) :
    origin.HexCommit := by
  intro location commit hvcs
  cases horigin with
  | registry hsource hstripped hchecksum => cases hvcs
  | git hsource hstripped hsplit =>
      cases hvcs
      exact hgrammar.commit _ _ _ _ hsource hstripped hsplit
  | path hsource hdir hcommit =>
      cases hvcs
      exact hheads _ _ hcommit

/-- Records with the same URI are the same. -/
theorem eq_of_uri_eq {pkg pkg' : Toml} {dep dep' : ResolvedDependency}
    (hheads : HexadecimalHeads host files) (hgrammar : CargoGrammar pkg)
    (hgrammar' : CargoGrammar pkg')
    (hok : classifyPackage host files pkg map project = .ok (some dep))
    (hok' : classifyPackage host files pkg' map project = .ok (some dep'))
    (huri : dep.uri = dep'.uri) : dep = dep' := by
  obtain ⟨name, version, origin, hname, hversion, horigin, rfl⟩ :=
    classifyPackage_eq_some hok
  obtain ⟨name', version', origin', hname', hversion', horigin', rfl⟩ :=
    classifyPackage_eq_some hok'
  obtain ⟨rfl, rfl, hqualifier⟩ := (Origin.uri_eq_iff
    (hgrammar.name _ hname).1 (hgrammar'.name _ hname').1
    (hgrammar.version _ hversion).2 (hgrammar'.version _ hversion').2).mp huri
  have hdigest : origin.digest = origin'.digest := by
    rcases (Origin.qualifier_eq_iff (horigin.hexCommit hgrammar hheads)
        (horigin'.hexCommit hgrammar' hheads)).mp hqualifier with
      ⟨checksum, rfl, rfl⟩ | ⟨_, _, commit, hvcs, hvcs', -⟩
    · rfl
    · rw [Origin.digest_of_vcs hvcs, Origin.digest_of_vcs hvcs']
  change origin.uri name version = origin'.uri name version at huri
  unfold Origin.record
  rw [hdigest, huri]

end Toolchain

end Kettle
