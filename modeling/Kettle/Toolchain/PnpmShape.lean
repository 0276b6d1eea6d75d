/-
The shape of the dependencies of a pnpm lock file: one for every package,
with the URI of an integrity or the tarball of a commit.  Tarballs are
recognised by a piece of their URL, wherever it stands, and the commit is
what follows the last slash.
-/
import Kettle.Lib.Url
import Kettle.Toolchain.DigestLabels
import Mathlib.Data.Bool.AllAny

namespace Kettle

namespace Toolchain

section Tarball

/-- An archive that GitHub serves over HTTPS. -/
def ServedByGithub (uri : String) : Prop :=
  Url.schemeAndHost uri = some ("https", "codeload.github.com")

instance (uri : String) : Decidable (ServedByGithub uri) :=
  inferInstanceAs (Decidable (_ = _))

theorem servedByGithub_of_starts {uri : String}
    (hstarts : "https://codeload.github.com/".toList <+: uri.toList) :
    ServedByGithub uri := by
  obtain ⟨path, hpath⟩ := hstarts
  have huri : uri = String.ofList ("https".toList ++ ':' :: '/' :: '/' ::
      ("codeload.github.com".toList ++ '/' :: path)) := by
    rw [← String.toList_inj, String.toList_ofList, ← hpath]
    rfl
  rw [ServedByGithub, huri, Url.schemeAndHost_append (by decide) (by decide)
    (by decide) (List.all_iff_forall_prop.mp (by decide))]
  decide +kernel

def EndsWithSlash (uri : String) : Prop :=
  uri.toList.getLast? = some '/'

instance (uri : String) : Decidable (EndsWithSlash uri) :=
  inferInstanceAs (Decidable (_ = _))

theorem lastSegment_eq_empty_iff {uri : String} (hne : uri ≠ "") :
    lastSegment uri = "" ↔ EndsWithSlash uri := by
  have hlist : uri.toList ≠ [] := fun hnil =>
    hne (String.toList_eq_nil_iff.mp hnil)
  rw [lastSegment, EndsWithSlash, String.ofList_eq_empty_iff,
    List.rtakeWhile_eq_nil_iff, List.getLast?_eq_some_getLast hlist]
  simp [hlist]

end Tarball

section Shape

variable (host : Host)

/-- The URI of a package with an integrity, or the package's own tarball. -/
def RecordedUri (entry : Yaml × Yaml) (uri : String) : Prop :=
  (∃ key name version checksum, entry.1.asStr = some key ∧
    parseKey host key = .ok (name, version) ∧
    resolutionStr? entry.2 "integrity" = some checksum ∧
    uri = s!"pkg:npm/{name}@{version}?checksum={checksum}") ∨
  (resolutionStr? entry.2 "tarball" = some uri ∧ ServedByGithub uri)

/-- Dependencies in order, one for each package, and each with a digest. -/
structure LockShape (entries : List (Yaml × Yaml))
    (deps : List ResolvedDependency) : Prop where
  sorted : deps.Pairwise fun a b => a.uri ≤ b.uri
  accounted : ∃ found, deps.Perm found ∧
    List.Forall₂ (fun entry dep => RecordedUri host entry dep.uri) entries
      found
  digests : ∀ dep ∈ deps, dep.digest.value ≠ ""

/-- A package without an integrity names a commit at GitHub. -/
def NamesCommit (entry : Yaml × Yaml) : Prop :=
  resolutionStr? entry.2 "integrity" = none →
    ∀ uri, resolutionStr? entry.2 "tarball" = some uri →
      ServedByGithub uri ∧ ¬ EndsWithSlash uri

variable {host}

theorem resolutionStr?_ne_empty {value : Yaml} {key text : String}
    (htext : resolutionStr? value key = some text) : text ≠ "" :=
  of_decide_eq_true (Option.filter_eq_some_iff.mp htext).2

/-- A package is recorded as it should be where it names a commit. -/
theorem pnpmPackage_recorded {entry : Yaml × Yaml} {dep : ResolvedDependency}
    (hok : pnpmPackage host entry = .ok dep) (hnames : NamesCommit entry) :
    RecordedUri host entry dep.uri ∧ dep.digest.value ≠ "" := by
  obtain ⟨key, name, version, hkey, hparse, hcases⟩ :=
    pnpmPackage_ok_cases hok
  rcases hcases with
    ⟨checksum, hintegrity, hdigest, huri⟩ | ⟨hnone, htarball, hdigest⟩
  · rw [hdigest]
    exact ⟨.inl ⟨key, name, version, checksum, hkey, hparse, hintegrity,
      huri⟩, resolutionStr?_ne_empty hintegrity⟩
  · obtain ⟨hserved, hslash⟩ := hnames hnone dep.uri htarball
    have hne := resolutionStr?_ne_empty htarball
    rw [hdigest]
    exact ⟨.inr ⟨htarball, hserved⟩,
      fun hempty => hslash ((lastSegment_eq_empty_iff hne).mp hempty)⟩

theorem servedByGithub_of_recordedUri {entry : Yaml × Yaml}
    {uri tarball : String} (hrecorded : RecordedUri host entry uri)
    (hnone : resolutionStr? entry.2 "integrity" = none)
    (htarball : resolutionStr? entry.2 "tarball" = some tarball) :
    ServedByGithub tarball := by
  rcases hrecorded with ⟨_, _, _, _, -, -, hintegrity, -⟩ | ⟨huri, hserved⟩
  · rw [hnone] at hintegrity
    cases hintegrity
  · rw [htarball] at huri
    cases huri
    exact hserved

theorem not_endsWithSlash_of_digest {entry : Yaml × Yaml}
    {dep : ResolvedDependency} {tarball : String}
    (hok : pnpmPackage host entry = .ok dep) (hdigest : dep.digest.value ≠ "")
    (hnone : resolutionStr? entry.2 "integrity" = none)
    (htarball : resolutionStr? entry.2 "tarball" = some tarball) :
    ¬ EndsWithSlash tarball := by
  obtain ⟨_, _, _, -, -, hcases⟩ := pnpmPackage_ok_cases hok
  rcases hcases with ⟨_, hintegrity, -⟩ | ⟨-, huri, hsegment⟩
  · rw [hnone] at hintegrity
    cases hintegrity
  · rw [htarball] at huri
    cases huri
    rw [hsegment] at hdigest
    intro hslash
    exact hdigest ((lastSegment_eq_empty_iff
      (resolutionStr?_ne_empty htarball)).mpr hslash)

section Accepted

variable {bytes : Bytes} {data : Yaml} {deps : List ResolvedDependency}

theorem namesCommit_of_lockShape (hdata : host.parseYaml bytes = .ok data)
    (hok : parsePnpmLock host bytes = .ok deps)
    (hshape : LockShape host (lockEntries data) deps) :
    ∀ entry ∈ lockEntries data, NamesCommit entry := by
  intro entry hentry hnone tarball htarball
  obtain ⟨found, -, haccounted⟩ := hshape.accounted
  obtain ⟨recorded, -, hrecorded⟩ :=
    exists_mem_of_forall₂ (List.Forall₂.flip haccounted) hentry
  obtain ⟨dep, hdep, hpackage⟩ := parsePnpmLock_spec hdata hok entry hentry
  exact ⟨servedByGithub_of_recordedUri hrecorded hnone htarball,
    not_endsWithSlash_of_digest hpackage (hshape.digests dep hdep) hnone
      htarball⟩

theorem lockShape_of_namesCommit (hdata : host.parseYaml bytes = .ok data)
    (hok : parsePnpmLock host bytes = .ok deps)
    (hnames : ∀ entry ∈ lockEntries data, NamesCommit entry) :
    LockShape host (lockEntries data) deps := by
  obtain ⟨found, rfl, hfound⟩ := parsePnpmLock_eq_ok hdata hok
  have hperm : (sortByUri found).Perm found :=
    StableSort.sortBy_perm _ found
  refine ⟨StableSort.pairwise_sortBy _ found, ⟨found, hperm, ?_⟩, ?_⟩
  · have hall := (List.forall₂_and_left _ _).mpr ⟨hnames, hfound⟩
    apply hall.imp
    rintro entry dep ⟨hcommit, hpackage⟩
    exact (pnpmPackage_recorded hpackage hcommit).1
  · intro dep hdep
    obtain ⟨entry, hentry, hpackage⟩ :=
      exists_mem_of_forall₂ hfound (hperm.mem_iff.mp hdep)
    exact (pnpmPackage_recorded hpackage (hnames entry hentry)).2

/-- The dependencies of an accepted lock file have the shape exactly where
every tarball is one of a commit. -/
theorem lockShape_iff (hdata : host.parseYaml bytes = .ok data)
    (hok : parsePnpmLock host bytes = .ok deps) :
    LockShape host (lockEntries data) deps ↔
      ∀ entry ∈ lockEntries data, NamesCommit entry :=
  ⟨namesCommit_of_lockShape hdata hok, lockShape_of_namesCommit hdata hok⟩

end Accepted

end Shape

section Demo

/-- A package that comes from a registry. -/
def registryEntry : Yaml × Yaml :=
  (.string "@types/node@20.11.5", .mapping [(.string "resolution", .mapping [
    (.string "integrity", .string "sha512-9VR2")])])

/-- A package that comes from a tarball. -/
def tarballFrom (uri : String) : Yaml × Yaml :=
  (.string "left-pad@1.3.0", .mapping [(.string "resolution", .mapping [
    (.string "tarball", .string uri)])])

/-- A lock file with a package of each kind. -/
def lockOfBoth (uri : String) : Yaml :=
  .mapping [(.string "packages", .mapping [registryEntry, tarballFrom uri])]

noncomputable def lockHost (uri : String) : Host :=
  { tableHost with parseYaml := fun _ => .ok (lockOfBoth uri) }

def commitTarball : String :=
  "https://codeload.github.com/stevemao/left-pad/tar.gz/42"

/-- A mirror that keeps the server it copies in its paths. -/
def mirrorTarball : String :=
  "http://mirror.example/codeload.github.com/left-pad/tar.gz/42"

/-- Nothing follows the last slash. -/
def directoryTarball : String :=
  "https://codeload.github.com/stevemao/left-pad/tar.gz/"

theorem tarballFrom_resolution {uri : String} (hne : uri ≠ "") :
    resolutionStr? (tarballFrom uri).2 "tarball" = some uri := by
  have hfilter : (some uri).filter (· ≠ "") = some uri :=
    Option.filter_eq_some_iff.mpr ⟨rfl, decide_eq_true hne⟩
  exact hfilter

theorem pnpmPackage_tarballFrom (host : Host) {uri : String}
    (hne : uri ≠ "") (hgithub : isGithubTarball uri = true) :
    pnpmPackage host (tarballFrom uri) =
      .ok ⟨none, .sha512 (lastSegment uri), "left-pad", uri⟩ := by
  have hparse : parseKey host "left-pad@1.3.0" =
      .ok ("left-pad", "1.3.0") := rfl
  have hintegrity :
      resolutionStr? (tarballFrom uri).2 "integrity" = none := rfl
  have hfilter : ((resolutionStr? (tarballFrom uri).2 "tarball").filter
      isGithubTarball) = some uri := by
    rw [tarballFrom_resolution hne]
    exact Option.filter_eq_some_iff.mpr ⟨rfl, hgithub⟩
  rw [pnpmPackage, hintegrity, hfilter]
  rfl

theorem lockHost_parsePnpmLock {uri : String} (hne : uri ≠ "")
    (hgithub : isGithubTarball uri = true) :
    ∃ deps, parsePnpmLock (lockHost uri) [] = .ok deps := by
  have hregistry : ∃ dep,
      pnpmPackage (lockHost uri) registryEntry = .ok dep := ⟨_, rfl⟩
  obtain ⟨dep, hdep⟩ := hregistry
  have hparse : parsePnpmLock (lockHost uri) [] =
      (pnpmPackages (lockHost uri) [registryEntry, tarballFrom uri]).map
        sortByUri := rfl
  rw [hparse, pnpmPackages, hdep, pnpmPackages,
    pnpmPackage_tarballFrom _ hne hgithub]
  exact ⟨_, rfl⟩

theorem namesCommit_lockOfBoth {uri : String} (hne : uri ≠ "") :
    (∀ entry ∈ lockEntries (lockOfBoth uri), NamesCommit entry) ↔
      ServedByGithub uri ∧ ¬ EndsWithSlash uri := by
  have hentries : lockEntries (lockOfBoth uri) =
      [registryEntry, tarballFrom uri] := rfl
  have hregistry : NamesCommit registryEntry := by
    intro hnone
    cases hnone
  rw [hentries, List.forall_mem_cons, List.forall_mem_singleton,
    and_iff_right hregistry, NamesCommit, tarballFrom_resolution hne]
  constructor
  · intro hnames
    exact hnames rfl uri rfl
  · rintro hcommit - _ ⟨⟩
    exact hcommit

theorem lockShape_commitTarball :
    ∃ deps, parsePnpmLock (lockHost commitTarball) [] = .ok deps ∧
      LockShape (lockHost commitTarball)
        (lockEntries (lockOfBoth commitTarball)) deps := by
  have hne : commitTarball ≠ "" := by decide
  obtain ⟨deps, hdeps⟩ := lockHost_parsePnpmLock hne (by decide +kernel)
  refine ⟨deps, hdeps, (lockShape_iff rfl hdeps).mpr ?_⟩
  rw [namesCommit_lockOfBoth hne]
  exact ⟨servedByGithub_of_starts ⟨_, rfl⟩, by decide +kernel⟩

theorem lockShape_fails_of_near_miss :
    (∃ deps, parsePnpmLock (lockHost mirrorTarball) [] = .ok deps ∧
      ¬ LockShape (lockHost mirrorTarball)
        (lockEntries (lockOfBoth mirrorTarball)) deps) ∧
    ∃ deps, parsePnpmLock (lockHost directoryTarball) [] = .ok deps ∧
      ¬ LockShape (lockHost directoryTarball)
        (lockEntries (lockOfBoth directoryTarball)) deps := by
  have hmirror : mirrorTarball ≠ "" := by decide
  have hdirectory : directoryTarball ≠ "" := by decide
  constructor
  · obtain ⟨deps, hdeps⟩ := lockHost_parsePnpmLock hmirror (by decide +kernel)
    refine ⟨deps, hdeps, fun hshape => ?_⟩
    have hnames := namesCommit_of_lockShape rfl hdeps hshape
    rw [namesCommit_lockOfBoth hmirror] at hnames
    exact absurd hnames.1 (by decide +kernel)
  · obtain ⟨deps, hdeps⟩ :=
      lockHost_parsePnpmLock hdirectory (by decide +kernel)
    refine ⟨deps, hdeps, fun hshape => ?_⟩
    have hnames := namesCommit_of_lockShape rfl hdeps hshape
    rw [namesCommit_lockOfBoth hdirectory] at hnames
    exact hnames.2 (by decide +kernel)

end Demo

end Toolchain

end Kettle
