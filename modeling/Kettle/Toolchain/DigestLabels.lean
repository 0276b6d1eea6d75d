/-
The algorithms that digests are labelled with.  A lock file or a derivation
says what made a value; the label is the same for every package and fetch.
-/
import Kettle.ProvenanceJson
import Kettle.Toolchain.FetchOrder

namespace Kettle

/-- The key under which the value is written. -/
def Digest.WrittenAs (digest : Digest) (algorithm : String) : Prop :=
  digest.toJson = .object [(algorithm, .string digest.value)]

theorem Digest.sha256_writtenAs_iff {text algorithm : String} :
    (Digest.sha256 text).WrittenAs algorithm ↔ algorithm = "sha256" := by
  simp [WrittenAs, toJson, value, eq_comm]

theorem Digest.sha512_writtenAs_iff {text algorithm : String} :
    (Digest.sha512 text).WrittenAs algorithm ↔ algorithm = "sha512" := by
  simp [WrittenAs, toJson, value, eq_comm]

namespace Toolchain

section Pnpm

/-- The packages of a lock file. -/
def lockEntries (data : Yaml) : List (Yaml × Yaml) :=
  ((data.get? "packages").bind Yaml.asMapping).getD []

/-- What stands before the dash of an integrity value. -/
def integrityAlgorithm (checksum : String) : String :=
  ((splitOnce '-' checksum).map (·.1)).getD ""

/-- The algorithm behind the value of a package; without an integrity it is
the commit of a tarball. -/
def packageAlgorithm (entry : Yaml × Yaml) : String :=
  match resolutionStr? entry.2 "integrity" with
  | some checksum => integrityAlgorithm checksum
  | none => "gitCommit"

variable {host : Host}

/-- An accepted package has an integrity or else the tarball of a commit. -/
theorem pnpmPackage_ok_cases {entry : Yaml × Yaml} {dep : ResolvedDependency}
    (hok : pnpmPackage host entry = .ok dep) :
    ∃ key name version, entry.1.asStr = some key ∧
      parseKey host key = .ok (name, version) ∧
      ((∃ checksum, resolutionStr? entry.2 "integrity" = some checksum ∧
          dep.digest = .sha512 checksum ∧
          dep.uri = s!"pkg:npm/{name}@{version}?checksum={checksum}") ∨
        (resolutionStr? entry.2 "integrity" = none ∧
          resolutionStr? entry.2 "tarball" = some dep.uri ∧
          dep.digest = .sha512 (lastSegment dep.uri))) := by
  obtain ⟨key, hkey, hrest⟩ := bind_eq_ok_iff.mp hok
  obtain ⟨⟨name, version⟩, hparse, hrest⟩ := bind_eq_ok_iff.mp hrest
  refine ⟨key, name, version, okOr_eq_ok_iff.mp hkey, hparse, ?_⟩
  cases hintegrity : resolutionStr? entry.2 "integrity" with
  | some checksum =>
      simp only [hintegrity] at hrest
      cases hrest
      exact .inl ⟨checksum, rfl, rfl, rfl⟩
  | none =>
      simp only [hintegrity] at hrest
      obtain ⟨uri, huri, hdep⟩ := bind_eq_ok_iff.mp hrest
      cases hdep
      have hfilter := okOr_eq_ok_iff.mp huri
      exact .inr ⟨rfl, (Option.filter_eq_some_iff.mp hfilter).1, rfl⟩

theorem pnpmPackage_digest {entry : Yaml × Yaml} {dep : ResolvedDependency}
    (hok : pnpmPackage host entry = .ok dep) :
    ∃ text, dep.digest = .sha512 text := by
  obtain ⟨_, _, _, -, -, hcases⟩ := pnpmPackage_ok_cases hok
  rcases hcases with ⟨checksum, -, hdigest, -⟩ | ⟨-, -, hdigest⟩
  · exact ⟨checksum, hdigest⟩
  · exact ⟨lastSegment dep.uri, hdigest⟩

theorem pnpmPackages_eq_mapM (entries : List (Yaml × Yaml)) :
    pnpmPackages host entries = entries.mapM (pnpmPackage host) := by
  induction entries with
  | nil => rfl
  | cons entry rest ih =>
      rw [pnpmPackages, ih, List.mapM_cons]
      rfl

/-- The dependencies are those of the packages, one for each, and sorted. -/
theorem parsePnpmLock_eq_ok {bytes : Bytes} {data : Yaml}
    {deps : List ResolvedDependency} (hdata : host.parseYaml bytes = .ok data)
    (hok : parsePnpmLock host bytes = .ok deps) :
    ∃ found, deps = sortByUri found ∧
      List.Forall₂ (fun entry dep => pnpmPackage host entry = .ok dep)
        (lockEntries data) found := by
  unfold parsePnpmLock at hok
  rw [hdata] at hok
  obtain ⟨parsed, hparsed, hrest⟩ := bind_eq_ok_iff.mp hok
  cases hparsed
  obtain ⟨found, hfound, hsorted⟩ := bind_eq_ok_iff.mp hrest
  cases hsorted
  rw [pnpmPackages_eq_mapM] at hfound
  exact ⟨found, rfl, mapM_eq_ok_iff.mp hfound⟩

/-- Every package of a lock file that is accepted is among the
dependencies. -/
theorem parsePnpmLock_spec {bytes : Bytes} {data : Yaml}
    {deps : List ResolvedDependency} (hdata : host.parseYaml bytes = .ok data)
    (hok : parsePnpmLock host bytes = .ok deps) :
    ∀ entry ∈ lockEntries data,
      ∃ dep ∈ deps, pnpmPackage host entry = .ok dep := by
  obtain ⟨found, rfl, hfound⟩ := parsePnpmLock_eq_ok hdata hok
  intro entry hentry
  obtain ⟨dep, hdep, hpackage⟩ :=
    exists_mem_of_forall₂ (List.Forall₂.flip hfound) hentry
  exact ⟨dep, (StableSort.sortBy_perm _ _).mem_iff.mpr hdep, hpackage⟩

variable (host)

/-- The dependency of each package is labelled with what made its value. -/
def PnpmLabelsTrue (bytes : Bytes) : Prop :=
  ∀ data deps, host.parseYaml bytes = .ok data →
    parsePnpmLock host bytes = .ok deps →
      ∀ entry ∈ lockEntries data, ∀ dep ∈ deps,
        pnpmPackage host entry = .ok dep →
          dep.digest.WrittenAs (packageAlgorithm entry)

/-- An accepted lock file has nothing but SHA-512 integrities. -/
def OnlySha512 (bytes : Bytes) : Prop :=
  ∀ data deps, host.parseYaml bytes = .ok data →
    parsePnpmLock host bytes = .ok deps →
      ∀ entry ∈ lockEntries data, packageAlgorithm entry = "sha512"

theorem pnpmLabelsTrue_iff (bytes : Bytes) :
    PnpmLabelsTrue host bytes ↔ OnlySha512 host bytes := by
  constructor
  · intro htrue data deps hdata hok entry hentry
    obtain ⟨dep, hdep, hpackage⟩ :=
      parsePnpmLock_spec hdata hok entry hentry
    have hwritten := htrue data deps hdata hok entry hentry dep hdep hpackage
    obtain ⟨text, hdigest⟩ := pnpmPackage_digest hpackage
    rw [hdigest] at hwritten
    exact Digest.sha512_writtenAs_iff.mp hwritten
  · intro honly data deps hdata hok entry hentry dep _ hpackage
    obtain ⟨text, hdigest⟩ := pnpmPackage_digest hpackage
    rw [hdigest]
    exact Digest.sha512_writtenAs_iff.mpr (honly data deps hdata hok entry
      hentry)

end Pnpm

section Nix

/-- The output of a derivation that has a hash. -/
def hashedOutput (derivation : Json) : Option Json :=
  (derivation.getObject? "outputs").bind fun outputs =>
    (outputs.entries.find? fun spec => (spec.2.getStr? "hash").isSome).map
      (·.2)

/-- Older versions put the mode before the algorithm, as in `r:sha256`. -/
def hashAlgoName (text : String) : String :=
  ((splitOnce ':' text).map (·.2)).getD text

/-- The algorithm of an output, in its hash or in a field of its own. -/
def declaredAlgorithm (spec : Json) : String :=
  (((spec.getStr? "hash").bind (splitOnce '-')).map (·.1) <|>
    (spec.getStr? "hashAlgo").map hashAlgoName).getD "sha256"

theorem outputHashOf_isSome (spec : Json) :
    (outputHashOf spec).isSome = (spec.getStr? "hash").isSome := by
  unfold outputHashOf
  cases spec.getStr? "hash" <;> rfl

theorem findSome?_outputHashOf (entries : List (String × Json)) :
    (entries.findSome? fun spec => outputHashOf spec.2) =
      ((entries.find? fun spec => (spec.2.getStr? "hash").isSome).map
        (·.2)).bind outputHashOf := by
  induction entries with
  | nil => rfl
  | cons entry rest ih =>
      have hsome := outputHashOf_isSome entry.2
      cases hhash : entry.2.getStr? "hash" with
      | none =>
          rw [hhash] at hsome
          have hnone : outputHashOf entry.2 = none := by
            simpa using hsome
          simp [hnone, hhash, ih]
      | some text =>
          rw [hhash] at hsome
          obtain ⟨output, houtput⟩ := Option.isSome_iff_exists.mp hsome
          simp [houtput, hhash]

/-- A derivation is recorded with the hash of its hashed output. -/
theorem fetchEntry_of_hashedOutput {derivation : String × Json} {spec : Json}
    (hspec : hashedOutput derivation.2 = some spec) :
    ∃ fetch output, fetchEntry derivation = some fetch ∧
      outputHashOf spec = some output ∧
      fetch.outputHashAlgo = output.algo ∧
      fetch.outputHash = output.hash := by
  unfold hashedOutput Json.getObject? Json.get? at hspec
  obtain ⟨outputs, houtputs, hfind⟩ := Option.bind_eq_some_iff.mp hspec
  obtain ⟨value, hget, hobject⟩ := Option.bind_eq_some_iff.mp houtputs
  obtain ⟨drv, hdrv, hvalue⟩ := Option.bind_eq_some_iff.mp hget
  have hhash : (spec.getStr? "hash").isSome := by
    obtain ⟨entry, hentry, rfl⟩ := Option.map_eq_some_iff.mp hfind
    exact List.find?_some (p := fun spec : String × Json =>
      (spec.2.getStr? "hash").isSome) hentry
  rw [← outputHashOf_isSome] at hhash
  obtain ⟨output, houtput⟩ := Option.isSome_iff_exists.mp hhash
  have hsome : (outputs.entries.findSome? fun spec =>
      outputHashOf spec.2) = some output := by
    rw [findSome?_outputHashOf, hfind]
    exact houtput
  unfold fetchEntry
  simp only [hdrv, hvalue, hobject, hsome, Option.bind_eq_bind,
    Option.bind_some]
  exact ⟨_, output, rfl, houtput, rfl, rfl⟩

theorem outputHashOf_algo {spec : Json} {output : OutputHash}
    (houtput : outputHashOf spec = some output)
    (hdeclared : declaredAlgorithm spec = "sha256") :
    output.algo = "sha256" := by
  unfold outputHashOf at houtput
  unfold declaredAlgorithm at hdeclared
  cases hhash : spec.getStr? "hash" with
  | none => simp [hhash] at houtput
  | some text =>
      cases hsplit : splitOnce '-' text with
      | none =>
          simp [hhash, hsplit] at houtput
          rw [← houtput]
      | some parts =>
          simp [hhash, hsplit] at houtput hdeclared
          rw [← houtput]
          exact hdeclared

/-- Each fixed output is recorded and hashed under the algorithm that it
declares. -/
def NixLabelsTrue (graph : Json) : Prop :=
  ∀ (inputs : NixInputs) (git : GitContext)
    (lockfileHash merkleRoot : String),
    ∀ derivation ∈ derivationEntries graph, ∀ spec,
      hashedOutput derivation.2 = some spec →
        ∃ fetch, fetchEntry derivation = some fetch ∧
          fetch.dependency ∈
            graphDependencies inputs git merkleRoot graph ∧
          NixInputs.fetchLine fetch ∈
            graphLeaves inputs git lockfileHash graph ∧
          fetch.dependency.digest.WrittenAs (declaredAlgorithm spec) ∧
          fetch.dependency.uri =
            s!"pkg:nix-fetch/{fetch.name}?hash={declaredAlgorithm spec}:{fetch.outputHash}" ∧
          NixInputs.fetchLine fetch =
            s!"fetch:{fetch.name}:{declaredAlgorithm spec}:{fetch.outputHash}"

/-- Every fixed output declares SHA-256. -/
def OnlySha256 (graph : Json) : Prop :=
  ∀ derivation ∈ derivationEntries graph, ∀ spec,
    hashedOutput derivation.2 = some spec → declaredAlgorithm spec = "sha256"

theorem mem_extractFixedOutputHashes {graph : Json}
    {derivation : String × Json} {fetch : FetchEntry}
    (hmem : derivation ∈ derivationEntries graph)
    (hfetch : fetchEntry derivation = some fetch) :
    fetch ∈ extractFixedOutputHashes graph := by
  rw [extractFixedOutputHashes_eq,
    (StableSort.sortBy_perm _ _).mem_iff]
  exact List.mem_filterMap.mpr ⟨derivation, hmem, hfetch⟩

theorem nixLabelsTrue_iff (graph : Json) :
    NixLabelsTrue graph ↔ OnlySha256 graph := by
  constructor
  · intro htrue derivation hmem spec hspec
    obtain ⟨fetch, -, -, -, hwritten, -⟩ := htrue
      ⟨"", "", "", "", "", [], [], 0⟩ ⟨"", "", ""⟩ "" "" derivation hmem spec
      hspec
    exact Digest.sha256_writtenAs_iff.mp hwritten
  · intro honly inputs git lockfileHash merkleRoot derivation hmem spec hspec
    obtain ⟨fetch, output, hfetch, houtput, halgo, -⟩ :=
      fetchEntry_of_hashedOutput hspec
    have hdeclared := honly derivation hmem spec hspec
    have hextracted := mem_extractFixedOutputHashes hmem hfetch
    have hsha256 : fetch.outputHashAlgo = declaredAlgorithm spec := by
      rw [halgo, outputHashOf_algo houtput hdeclared, hdeclared]
    refine ⟨fetch, hfetch, List.mem_map_of_mem hextracted, ?_,
      Digest.sha256_writtenAs_iff.mpr hdeclared, ?_, ?_⟩
    · have hline := List.mem_map_of_mem (f := NixInputs.fetchLine) hextracted
      exact List.mem_append_left _ (List.mem_append_right _ hline)
    · rw [← hsha256]
      rfl
    · rw [← hsha256]
      rfl

end Nix

/-- Labels are true exactly where the algorithm is the fixed one. -/
theorem labelsTrue_iff (host : Host) (bytes : Bytes) (graph : Json) :
    (PnpmLabelsTrue host bytes ↔ OnlySha512 host bytes) ∧
      (NixLabelsTrue graph ↔ OnlySha256 graph) :=
  ⟨pnpmLabelsTrue_iff host bytes, nixLabelsTrue_iff graph⟩

section Demo

/-- A SHA-512 hash, and a SHA-1 hash as older versions print it. -/
def fetchersGraph : Json := .object [
  fixedDerivation "/nix/store/1.drv" "zlib" "sha512-11",
  ("/nix/store/2.drv", .object [
    ("name", .string "hello"),
    ("outputs", .object [("out", .object [
      ("hash", .string "22"), ("hashAlgo", .string "sha1")])])])]

/-- A package that comes from a commit. -/
def tarballEntry : Yaml × Yaml :=
  (.string "left-pad@1.3.0", .mapping [(.string "resolution", .mapping [
    (.string "tarball",
      .string "https://codeload.github.com/stevemao/left-pad/tar.gz/42")])])

noncomputable def tarballHost : Host :=
  { tableHost with
    parseYaml := fun _ =>
      .ok (.mapping [(.string "packages", .mapping [tarballEntry])]) }

theorem tarball_parsePnpmLock :
    ∃ dep, parsePnpmLock tarballHost [] = .ok [dep] := by
  have hpackage : ∃ dep, pnpmPackage tarballHost tarballEntry = .ok dep :=
    ⟨_, rfl⟩
  obtain ⟨dep, hdep⟩ := hpackage
  have hparse : parsePnpmLock tarballHost [] =
      (pnpmPackages tarballHost [tarballEntry]).map sortByUri := rfl
  refine ⟨dep, ?_⟩
  rw [hparse, pnpmPackages, hdep]
  exact congrArg Except.ok (List.mergeSort_singleton dep)

theorem labels_untrue :
    ¬ PnpmLabelsTrue tarballHost [] ∧ ¬ NixLabelsTrue fetchersGraph := by
  constructor
  · rw [pnpmLabelsTrue_iff]
    intro honly
    obtain ⟨dep, hdep⟩ := tarball_parsePnpmLock
    have hlabel : packageAlgorithm tarballEntry = "sha512" :=
      honly _ _ rfl hdep tarballEntry List.mem_cons_self
    exact absurd hlabel (by decide +kernel)
  · rw [nixLabelsTrue_iff]
    intro honly
    have hlabel := honly _ List.mem_cons_self
      (.object [("hash", .string "sha512-11")]) rfl
    exact absurd hlabel (by decide +kernel)

end Demo

end Toolchain

end Kettle
