/-
What the recorded Merkle root says about the inputs of a build.  The entries
are hashed as they are, so the root commits to them as long as none of them is
two digests side by side, which is what is hashed for an inner node.
-/
import Kettle.Lib.Merkle
import Kettle.Toolchain.Cargo
import Kettle.Toolchain.Pnpm

namespace Kettle

/-- The tools that are recorded, without kettle itself. -/
def Toolchain.buildTools : Toolchain → List ToolchainVersion
  | .nix tool _ => [tool]
  | .rust tool compiler _ => [tool, compiler]
  | .pnpm tool interpreter _ => [tool, interpreter]

namespace Provenance

def byproducts (provenance : Provenance) : List Byproduct :=
  provenance.predicate.runDetails.byproducts

def internalParameters (provenance : Provenance) : InternalParameters :=
  provenance.predicate.buildDefinition.internalParameters

def dependencyUris (provenance : Provenance) : List String :=
  provenance.predicate.buildDefinition.resolvedDependencies.map (·.uri)

end Provenance

namespace Toolchain

/-- What the hash is given for an inner node. -/
def digestPair (left right : ByteVec 32) : Bytes :=
  left.toList ++ right.toList

/-- `rs_merkle`: neighbours are paired, and an unpaired node is promoted. -/
structure UsesMerkle (sha256 : Bytes → ByteVec 32) (hex : Hex) (host : Host) :
    Prop where
  hash_eq : host.sha256 = sha256
  hex_eq : host.hex = hex
  merkleRoot_eq : host.merkleRoot =
    Merkle.reduce fun left right => sha256 (digestPair left right)

def entryBytes (entry : String) : Bytes := entry.toUTF8.data.toList

theorem entryBytes_injective : Function.Injective entryBytes := by
  intro left right heq
  unfold entryBytes at heq
  rw [String.toUTF8_eq_toByteArray, String.toUTF8_eq_toByteArray] at heq
  exact String.toByteArray_inj.mp (ByteArray.ext (Array.toList_inj.mp heq))

/-- The inputs of a run, and the provenance that it writes. -/
structure RecordedRun (Inputs : Type) where
  started : Started Inputs
  provenance : Provenance

variable {Inputs : Type}

def Records (driver : ToolchainDriver Inputs) (host : Host)
    (recorded : RecordedRun Inputs) : Prop :=
  ∃ metadata files path staged,
    startBuild driver host files path = .ok recorded.started ∧
    finishBuild driver host metadata path recorded.started =
      .ok (recorded.provenance, staged)

/-- What is hashed for the leaves. -/
def RecordedRun.entries (driver : ToolchainDriver Inputs)
    (recorded : RecordedRun Inputs) : List Bytes :=
  (driver.merkleEntries recorded.started.inputs recorded.started.git
    recorded.started.lockfileHash).map entryBytes

/-- Git commit and tree, lock file and tools. -/
structure SameBuildInputs (left right : Provenance) : Prop where
  gitCommit : left.gitCommit = right.gitCommit
  gitTree : left.gitTree = right.gitTree
  lockfileHash : left.internalParameters.lockfileHash =
    right.internalParameters.lockfileHash
  buildTools : left.internalParameters.toolchain.buildTools =
    right.internalParameters.toolchain.buildTools

/-- Two runs on machines with one hash, which has no collision on what is
hashed over the entries of the two, that record one root. -/
structure SameRoot (driver : Host → ToolchainDriver Inputs)
    (sha256 : Bytes → ByteVec 32) (hex : Hex) (leftHost rightHost : Host)
    (left right : RecordedRun Inputs) : Prop where
  leftUses : UsesMerkle sha256 hex leftHost
  rightUses : UsesMerkle sha256 hex rightHost
  leftRecords : Records (driver leftHost) leftHost left
  rightRecords : Records (driver rightHost) rightHost right
  collisionFree : Set.InjOn sha256 {message | message ∈
    Merkle.hashInputs sha256 digestPair (left.entries (driver leftHost)) ++
      Merkle.hashInputs sha256 digestPair (right.entries (driver rightHost))}
  root_eq : left.provenance.byproducts = right.provenance.byproducts

/-- Two runs that record one root have the same inputs, if they have as many
entries as each other, or no entry is hashed as an inner node as well. -/
def RootCommits (driver : Host → ToolchainDriver Inputs)
    (sameDependencies : RecordedRun Inputs → RecordedRun Inputs → Prop) :
    Prop :=
  ∀ sha256 hex leftHost rightHost left right,
    SameRoot driver sha256 hex leftHost rightHost left right →
    Merkle.Separate sha256 digestPair (left.entries (driver leftHost))
      (right.entries (driver rightHost)) →
      SameBuildInputs left.provenance right.provenance ∧
        sameDependencies left right

/-- The recorded URIs, in order. -/
def SameUris (left right : RecordedRun Inputs) : Prop :=
  left.provenance.dependencyUris = right.provenance.dependencyUris

def FetchEntry.triple (fetch : FetchEntry) : String × String × String :=
  (fetch.name, fetch.outputHashAlgo, fetch.outputHash)

/-- Neither the name nor the algorithm has a colon. -/
def FetchEntry.NoColon (fetch : FetchEntry) : Prop :=
  ':' ∉ fetch.name.toList ∧ ':' ∉ fetch.outputHashAlgo.toList

/-- The lines of the fetches, in order, and the fetches themselves as long as
a line can be taken apart. -/
structure SameFetches (left right : RecordedRun NixInputs) : Prop where
  lines : left.started.inputs.fetches.map NixInputs.fetchLine =
    right.started.inputs.fetches.map NixInputs.fetchLine
  triples : (∀ fetch ∈ left.started.inputs.fetches, fetch.NoColon) →
    (∀ fetch ∈ right.started.inputs.fetches, fetch.NoColon) →
      left.started.inputs.fetches.map FetchEntry.triple =
        right.started.inputs.fetches.map FetchEntry.triple

variable {sha256 : Bytes → ByteVec 32} {hex : Hex} {host : Host}

theorem digestPair_inj (a b c d : ByteVec 32)
    (heq : digestPair a b = digestPair c d) : a = c ∧ b = d := by
  obtain ⟨hfirst, hsecond⟩ := List.append_inj heq (by simp)
  exact ⟨List.Vector.toList_injective hfirst,
    List.Vector.toList_injective hsecond⟩

theorem merkleRoot_entries (huses : UsesMerkle sha256 hex host)
    (entries : List String) :
    host.merkleRoot (entries.map fun entry =>
        host.sha256 entry.toUTF8.data.toList) =
      Merkle.root sha256 digestPair (entries.map entryBytes) := by
  rw [huses.merkleRoot_eq, huses.hash_eq]
  unfold Merkle.root
  rw [List.map_map]
  rfl

theorem computeMerkleRoot_spec {entries : List String} {text : String}
    (huses : UsesMerkle sha256 hex host)
    (hok : computeMerkleRoot host entries = .ok text) :
    ∃ top, Merkle.root sha256 digestPair (entries.map entryBytes) =
      some top ∧ text = hex.encode top.toList := by
  obtain ⟨top, htop, hresult⟩ := bind_eq_ok_iff.mp hok
  cases hresult
  refine ⟨top, ?_, by rw [huses.hex_eq]⟩
  rw [← merkleRoot_entries huses]
  exact okOr_eq_ok_iff.mp htop

/-- Some entries have a root. -/
theorem computeMerkleRoot_isOk {entries : List String}
    (huses : UsesMerkle sha256 hex host) (hne : entries ≠ []) :
    ∃ text, computeMerkleRoot host entries = .ok text := by
  obtain ⟨top, htop⟩ := @Merkle.root_isSome Bytes (ByteVec 32) sha256
    digestPair (entries.map entryBytes) (by simpa using hne)
  rw [← merkleRoot_entries huses] at htop
  exact ⟨_, bind_eq_ok_iff.mpr ⟨top, okOr_eq_ok_iff.mpr htop, rfl⟩⟩

/-- What a run records. -/
theorem records_spec {driver : ToolchainDriver Inputs}
    {recorded : RecordedRun Inputs} (hrecords : Records driver host recorded) :
    ∃ metadata artifacts merkleRoot files path lockfile,
      driver.collectInputs files path recorded.started.git
        recorded.started.lockfileHash lockfile =
          .ok recorded.started.inputs ∧
      computeMerkleRoot host (driver.merkleEntries recorded.started.inputs
        recorded.started.git recorded.started.lockfileHash) =
          .ok merkleRoot ∧
      recorded.provenance = assembleProvenance recorded.started.git metadata
        artifacts merkleRoot (driver.provenanceFields recorded.started.inputs
          recorded.started.git merkleRoot) := by
  obtain ⟨metadata, files, path, staged, hstarted, hfinished⟩ := hrecords
  obtain ⟨cleaned, -, hrest⟩ := bind_eq_ok_iff.mp hstarted
  obtain ⟨git, -, hrest⟩ := bind_eq_ok_iff.mp hrest
  obtain ⟨lockfile, -, hrest⟩ := bind_eq_ok_iff.mp hrest
  obtain ⟨inputs, hinputs, hresult⟩ := bind_eq_ok_iff.mp hrest
  obtain ⟨built, -, hrest⟩ := bind_eq_ok_iff.mp hfinished
  obtain ⟨ready, -, hrest⟩ := bind_eq_ok_iff.mp hrest
  obtain ⟨collected, -, hrest⟩ := bind_eq_ok_iff.mp hrest
  obtain ⟨merkleRoot, hroot, hwritten⟩ := bind_eq_ok_iff.mp hrest
  have hresult := Except.ok.inj hresult
  have hprovenance := (Prod.mk.inj (Except.ok.inj hwritten)).1
  rw [← hresult] at hroot hprovenance ⊢
  exact ⟨metadata, collected.1, merkleRoot, cleaned, path, lockfile, hinputs,
    hroot, hprovenance.symm⟩

/-- The byproduct is the root over the entries. -/
theorem records_byproducts {driver : ToolchainDriver Inputs}
    {recorded : RecordedRun Inputs} (huses : UsesMerkle sha256 hex host)
    (hrecords : Records driver host recorded) :
    ∃ top, Merkle.root sha256 digestPair (recorded.entries driver) =
        some top ∧
      recorded.provenance.byproducts =
        [⟨.sha256 (hex.encode top.toList), "input_merkle_root"⟩] := by
  obtain ⟨_, _, merkleRoot, _, _, _, -, hroot, hprovenance⟩ :=
    records_spec hrecords
  obtain ⟨top, htop, rfl⟩ := computeMerkleRoot_spec huses hroot
  refine ⟨top, htop, ?_⟩
  rw [hprovenance]
  rfl

/-- A run that gets as far as its artifacts records its inputs. -/
theorem records_of_steps {driver : ToolchainDriver Inputs}
    {files cleaned built ready staged : FileSystem} {path : Path}
    {git : GitContext} {lockfile : Bytes} {inputs : Inputs}
    {output : BuildOutput} {artifacts : List Artifact} (metadata : Metadata)
    (huses : UsesMerkle sha256 hex host)
    (hne : driver.merkleEntries inputs git (host.sha256Hex lockfile) ≠ [])
    (hcleaned : cleanOutputDir files path = .ok cleaned)
    (hgit : GitContext.fromDir host cleaned path = .ok git)
    (hlockfile : cleaned.read (path ++ [.text driver.lockfileFilename]) =
      .ok lockfile)
    (hinputs : driver.collectInputs cleaned path git (host.sha256Hex lockfile)
      lockfile = .ok inputs)
    (hbuilt : driver.runBuild cleaned path = .ok (output, built))
    (hready : built.createDirAll (artifactsDir path) = .ok ready)
    (hstaged : driver.collectArtifacts output ready path (artifactsDir path) =
      .ok (artifacts, staged)) :
    ∃ provenance, Records driver host
      ⟨⟨cleaned, git, host.sha256Hex lockfile, inputs⟩, provenance⟩ := by
  obtain ⟨merkleRoot, hroot⟩ := computeMerkleRoot_isOk huses hne
  refine ⟨assembleProvenance git metadata artifacts merkleRoot
    (driver.provenanceFields inputs git merkleRoot), metadata, files, path,
    staged, ?_, ?_⟩
  · exact bind_eq_ok_iff.mpr ⟨cleaned, hcleaned,
      bind_eq_ok_iff.mpr ⟨git, hgit,
        bind_eq_ok_iff.mpr ⟨lockfile, hlockfile,
          bind_eq_ok_iff.mpr ⟨inputs, hinputs, rfl⟩⟩⟩⟩
  · exact bind_eq_ok_iff.mpr ⟨(output, built), hbuilt,
      bind_eq_ok_iff.mpr ⟨ready, hready,
        bind_eq_ok_iff.mpr ⟨(artifacts, staged), hstaged,
          bind_eq_ok_iff.mpr ⟨merkleRoot, hroot, rfl⟩⟩⟩⟩

/-- Two runs with one root have one list of entries. -/
theorem SameRoot.merkleEntries_eq {driver : Host → ToolchainDriver Inputs}
    {leftHost rightHost : Host} {left right : RecordedRun Inputs}
    (hsame : SameRoot driver sha256 hex leftHost rightHost left right)
    (hseparate : Merkle.Separate sha256 digestPair
      (left.entries (driver leftHost)) (right.entries (driver rightHost))) :
    (driver leftHost).merkleEntries left.started.inputs left.started.git
        left.started.lockfileHash =
      (driver rightHost).merkleEntries right.started.inputs
        right.started.git right.started.lockfileHash := by
  obtain ⟨leftTop, hleftTop, hleft⟩ :=
    records_byproducts hsame.leftUses hsame.leftRecords
  obtain ⟨rightTop, hrightTop, hright⟩ :=
    records_byproducts hsame.rightUses hsame.rightRecords
  have hroot := hsame.root_eq
  rw [hleft, hright] at hroot
  have htop : leftTop = rightTop := by
    apply List.Vector.toList_injective
    apply hex.encode_inj
    simpa using hroot
  subst htop
  exact List.map_injective_iff.mpr entryBytes_injective
    (Merkle.root_injective hsame.collisionFree hseparate digestPair_inj
      hleftTop hrightTop)

theorem sameRoot_of_root_eq {driver : Host → ToolchainDriver Inputs}
    {leftHost rightHost : Host} {left right : RecordedRun Inputs}
    (hleftUses : UsesMerkle sha256 hex leftHost)
    (hrightUses : UsesMerkle sha256 hex rightHost)
    (hleft : Records (driver leftHost) leftHost left)
    (hright : Records (driver rightHost) rightHost right)
    (hfree : Set.InjOn sha256 {message | message ∈
      Merkle.hashInputs sha256 digestPair (left.entries (driver leftHost)) ++
        Merkle.hashInputs sha256 digestPair
          (right.entries (driver rightHost))})
    (hroot : Merkle.root sha256 digestPair (left.entries (driver leftHost)) =
      Merkle.root sha256 digestPair (right.entries (driver rightHost))) :
    SameRoot driver sha256 hex leftHost rightHost left right := by
  obtain ⟨leftTop, hleftTop, hleftText⟩ := records_byproducts hleftUses hleft
  obtain ⟨rightTop, hrightTop, hrightText⟩ :=
    records_byproducts hrightUses hright
  rw [hleftTop, hrightTop] at hroot
  refine ⟨hleftUses, hrightUses, hleft, hright, hfree, ?_⟩
  rw [hleftText, hrightText, Option.some.inj hroot]

section Drivers

/-- What the provenance of a run says about its inputs. -/
structure Shows (recorded : RecordedRun Inputs)
    (tools : List ToolchainVersion) (uris : List String) : Prop where
  gitCommit : recorded.provenance.gitCommit = recorded.started.git.commit
  gitTree : recorded.provenance.gitTree = recorded.started.git.tree
  lockfileHash : recorded.provenance.internalParameters.lockfileHash =
    .sha256 recorded.started.lockfileHash
  buildTools : recorded.provenance.internalParameters.toolchain.buildTools =
    tools
  dependencyUris : recorded.provenance.dependencyUris = uris

theorem Shows.same {left right : RecordedRun Inputs}
    {leftTools rightTools : List ToolchainVersion}
    {leftUris rightUris : List String} (hleft : Shows left leftTools leftUris)
    (hright : Shows right rightTools rightUris)
    (hcommit : left.started.git.commit = right.started.git.commit)
    (htree : left.started.git.tree = right.started.git.tree)
    (hlockfile : left.started.lockfileHash = right.started.lockfileHash)
    (htools : leftTools = rightTools) :
    SameBuildInputs left.provenance right.provenance where
  gitCommit := by rw [hleft.gitCommit, hright.gitCommit, hcommit]
  gitTree := by rw [hleft.gitTree, hright.gitTree, htree]
  lockfileHash := by rw [hleft.lockfileHash, hright.lockfileHash, hlockfile]
  buildTools := by rw [hleft.buildTools, hright.buildTools, htools]

theorem cargo_shows {recorded : RecordedRun CargoInputs}
    (hrecords : Records (CargoInputs.driver host) host recorded) :
    Shows recorded
      [⟨.sha256 recorded.started.inputs.cargoHash,
        recorded.started.inputs.cargoVersion⟩,
       ⟨.sha256 recorded.started.inputs.rustcHash,
        recorded.started.inputs.rustcVersion⟩]
      (recorded.started.inputs.resolvedDeps.map (·.uri)) := by
  obtain ⟨_, _, _, _, _, _, hinputs, -, hprovenance⟩ := records_spec hrecords
  obtain ⟨rustc, -, hrest⟩ := bind_eq_ok_iff.mp hinputs
  obtain ⟨cargo, -, hrest⟩ := bind_eq_ok_iff.mp hrest
  obtain ⟨kettle, -, hrest⟩ := bind_eq_ok_iff.mp hrest
  obtain ⟨deps, -, hresult⟩ := bind_eq_ok_iff.mp hrest
  rw [← Except.ok.inj hresult] at hprovenance ⊢
  constructor <;> rw [hprovenance] <;> rfl

theorem nix_shows {recorded : RecordedRun NixInputs}
    (hrecords : Records (NixInputs.driver host) host recorded) :
    Shows recorded
      [⟨.sha256 recorded.started.inputs.nixHash,
        recorded.started.inputs.nixVersion⟩]
      (recorded.started.inputs.fetches.map fun fetch =>
        fetch.dependency.uri) := by
  obtain ⟨_, _, _, _, _, _, hinputs, -, hprovenance⟩ := records_spec hrecords
  obtain ⟨tool, -, hrest⟩ := bind_eq_ok_iff.mp hinputs
  obtain ⟨kettle, -, hrest⟩ := bind_eq_ok_iff.mp hrest
  obtain ⟨flakeDeps, -, hrest⟩ := bind_eq_ok_iff.mp hrest
  obtain ⟨graph, -, hresult⟩ := bind_eq_ok_iff.mp hrest
  rw [← Except.ok.inj hresult] at hprovenance ⊢
  constructor <;> rw [hprovenance] <;> try rfl
  exact List.map_map

theorem pnpm_shows {recorded : RecordedRun PnpmInputs}
    (hrecords : Records (PnpmInputs.driver host) host recorded) :
    Shows recorded
      [⟨.sha256 recorded.started.inputs.pnpmHash,
        recorded.started.inputs.pnpmVersion⟩,
       ⟨.sha256 recorded.started.inputs.nodeHash,
        recorded.started.inputs.nodeVersion⟩]
      (recorded.started.inputs.deps.map (·.uri)) := by
  obtain ⟨_, _, _, _, _, _, hinputs, -, hprovenance⟩ := records_spec hrecords
  obtain ⟨node, -, hrest⟩ := bind_eq_ok_iff.mp hinputs
  obtain ⟨pnpm, -, hrest⟩ := bind_eq_ok_iff.mp hrest
  obtain ⟨kettle, -, hrest⟩ := bind_eq_ok_iff.mp hrest
  obtain ⟨deps, -, hresult⟩ := bind_eq_ok_iff.mp hrest
  rw [← Except.ok.inj hresult] at hprovenance ⊢
  constructor <;> rw [hprovenance] <;> rfl

theorem cargo_rootCommits : RootCommits CargoInputs.driver SameUris := by
  intro sha256 hex leftHost rightHost left right hsame hseparate
  have hentries := hsame.merkleEntries_eq hseparate
  have hleft := cargo_shows hsame.leftRecords
  have hright := cargo_shows hsame.rightRecords
  simp only [CargoInputs.driver, CargoInputs.merkleEntries, List.cons_append,
    List.nil_append, List.cons.injEq] at hentries
  obtain ⟨hcommit, htree, hrustcHash, hrustcVersion, hcargoHash,
    hcargoVersion, hlockfile, huris⟩ := hentries
  refine ⟨hleft.same hright hcommit htree hlockfile ?_, ?_⟩
  · rw [hrustcHash, hrustcVersion, hcargoHash, hcargoVersion]
  · exact hleft.dependencyUris.trans (huris.trans hright.dependencyUris.symm)

theorem pnpm_rootCommits : RootCommits PnpmInputs.driver SameUris := by
  intro sha256 hex leftHost rightHost left right hsame hseparate
  have hentries := hsame.merkleEntries_eq hseparate
  have hleft := pnpm_shows hsame.leftRecords
  have hright := pnpm_shows hsame.rightRecords
  simp only [PnpmInputs.driver, PnpmInputs.merkleEntries, List.cons_append,
    List.nil_append, List.cons.injEq] at hentries
  obtain ⟨hcommit, htree, hnodeHash, hnodeVersion, hpnpmHash, hpnpmVersion,
    hlockfile, huris⟩ := hentries
  refine ⟨hleft.same hright hcommit htree hlockfile ?_, ?_⟩
  · rw [hnodeHash, hnodeVersion, hpnpmHash, hpnpmVersion]
  · exact hleft.dependencyUris.trans (huris.trans hright.dependencyUris.symm)

/-- Without colons, a line is the line of one fetch only. -/
theorem fetchLine_inj {left right : FetchEntry} (hleft : left.NoColon)
    (hright : right.NoColon)
    (heq : NixInputs.fetchLine left = NixInputs.fetchLine right) :
    left.triple = right.triple := by
  have hchars : left.name.toList ++ ':' ::
        (left.outputHashAlgo.toList ++ ':' :: left.outputHash.toList) =
      right.name.toList ++ ':' ::
        (right.outputHashAlgo.toList ++ ':' :: right.outputHash.toList) := by
    simpa [NixInputs.fetchLine, toString] using congrArg String.toList heq
  obtain ⟨hname, hrest⟩ := Separated.first_inj hleft.1 hright.1 hchars
  obtain ⟨halgo, hhash⟩ := Separated.first_inj hleft.2 hright.2 hrest
  unfold FetchEntry.triple
  rw [String.toList_inj.mp hname, String.toList_inj.mp halgo,
    String.toList_inj.mp hhash]

theorem map_triple_of_map_fetchLine {left right : List FetchEntry}
    (hleft : ∀ fetch ∈ left, fetch.NoColon)
    (hright : ∀ fetch ∈ right, fetch.NoColon)
    (heq : left.map NixInputs.fetchLine = right.map NixInputs.fetchLine) :
    left.map FetchEntry.triple = right.map FetchEntry.triple := by
  induction left generalizing right with
  | nil => rw [List.map_eq_nil_iff.mp heq.symm]
  | cons fetch rest ih =>
      cases right with
      | nil => cases heq
      | cons other others =>
          rw [List.map_cons, List.map_cons, List.cons.injEq] at heq
          rw [List.forall_mem_cons] at hleft hright
          rw [List.map_cons, List.map_cons,
            fetchLine_inj hleft.1 hright.1 heq.1,
            ih hleft.2 hright.2 heq.2]

theorem nix_rootCommits : RootCommits NixInputs.driver SameFetches := by
  intro sha256 hex leftHost rightHost left right hsame hseparate
  have hentries := hsame.merkleEntries_eq hseparate
  have hleft := nix_shows hsame.leftRecords
  have hright := nix_shows hsame.rightRecords
  simp only [NixInputs.driver, NixInputs.merkleEntries, List.cons_append,
    List.nil_append, List.cons.injEq] at hentries
  obtain ⟨hcommit, htree, hlockfile, hrest⟩ := hentries
  -- the tool is the last two entries
  obtain ⟨hlines, htool⟩ := List.append_inj' hrest rfl
  simp only [List.cons.injEq, and_true] at htool
  refine ⟨hleft.same hright hcommit htree hlockfile ?_, hlines, ?_⟩
  · rw [htool.1, htool.2]
  · intro hleftColons hrightColons
    exact map_triple_of_map_fetchLine hleftColons hrightColons hlines

/-- The recorded root commits to the inputs of a build. -/
theorem inputMerkleRoot_commits :
    RootCommits CargoInputs.driver SameUris ∧
      RootCommits NixInputs.driver SameFetches ∧
      RootCommits PnpmInputs.driver SameUris :=
  ⟨cargo_rootCommits, nix_rootCommits, pnpm_rootCommits⟩

end Drivers

section OneRoot

/-- A hash that is given by a table. -/
def tableHash (table : AssocMap Bytes (ByteVec 32)) (message : Bytes) :
    ByteVec 32 :=
  (table.get? message).getD (Bytes.zeroPadVec 32 [])

theorem tableHash_injOn {table : AssocMap Bytes (ByteVec 32)}
    (hnodup : (table.entries.map Prod.snd).Nodup) {messages : List Bytes}
    (hsub : ∀ message ∈ messages, message ∈ table.entries.map Prod.fst) :
    Set.InjOn (tableHash table) {message | message ∈ messages} := by
  intro first hfirst second hsecond heq
  obtain ⟨firstEntry, hfirstMem, rfl⟩ := List.mem_map.mp (hsub _ hfirst)
  obtain ⟨secondEntry, hsecondMem, rfl⟩ := List.mem_map.mp (hsub _ hsecond)
  have hdigest : firstEntry.2 = secondEntry.2 := by
    unfold tableHash at heq
    rw [AssocMap.mem_entries_iff.mp hfirstMem,
      AssocMap.mem_entries_iff.mp hsecondMem] at heq
    exact heq
  rw [List.inj_on_of_nodup_map hnodup hfirstMem hsecondMem hdigest]

/-- 31 zeros and a digit, as text. -/
def digitDigest (digit : UInt8) : ByteVec 32 :=
  ⟨List.replicate 31 0x30 ++ [digit], rfl⟩

/-- Hexadecimal digits that are the texts of two digests. -/
def pairedDigest : ByteVec 32 :=
  ⟨List.replicate 15 0 ++ [0x05] ++ List.replicate 15 0 ++ [0x06], rfl⟩

def longLockHash : String := lowerHex.encode (digitDigest 0x61).toList

def shortLockHash : String := lowerHex.encode (digitDigest 0x6d).toList

def flakeLockHash : String :=
  lowerHex.encode (Bytes.zeroPadVec 32 []).toList

def registryChecksum : String :=
  "11d9a1e5ab6b1a1a2ae5e8e1c2f6e0c0a9a0b8e7d6c5b4a3928170605f4e3d2c"

def registryUri : String :=
  s!"pkg:cargo/dep@1.0.0?checksum=sha256:{registryChecksum}"

/-- The entries and the nodes of the runs below, and the three lock files of
the Cargo project. -/
def demoTable : AssocMap Bytes (ByteVec 32) where
  entries := [
    (entryBytes "9fceb02d0ae598e95dc970b74767f19372d61af8", digitDigest 0x30),
    (entryBytes "eac1c8ad3ba8d6ebf9e5b2b1f3a5f6a5c2f8a1d0", digitDigest 0x31),
    (entryBytes "00", digitDigest 0x32),
    (entryBytes "rustc 1.90.0", digitDigest 0x33),
    (entryBytes "cargo 1.90.0", digitDigest 0x34),
    (entryBytes longLockHash, digitDigest 0x35),
    (entryBytes registryUri, digitDigest 0x36),
    (digestPair (digitDigest 0x30) (digitDigest 0x31), digitDigest 0x37),
    (digestPair (digitDigest 0x32) (digitDigest 0x33), digitDigest 0x38),
    (digestPair (digitDigest 0x32) (digitDigest 0x34), digitDigest 0x39),
    (digestPair (digitDigest 0x35) (digitDigest 0x36), digitDigest 0x62),
    (digestPair (digitDigest 0x37) (digitDigest 0x38), digitDigest 0x63),
    (digestPair (digitDigest 0x39) (digitDigest 0x62), digitDigest 0x64),
    (digestPair (digitDigest 0x63) (digitDigest 0x64), digitDigest 0x65),
    (entryBytes flakeLockHash, digitDigest 0x66),
    (entryBytes "fetch:a:b:c:d", digitDigest 0x67),
    (entryBytes "nix 2.31.0", digitDigest 0x68),
    (digestPair (digitDigest 0x66) (digitDigest 0x67), digitDigest 0x69),
    (digestPair (digitDigest 0x32) (digitDigest 0x68), digitDigest 0x6a),
    (digestPair (digitDigest 0x37) (digitDigest 0x69), digitDigest 0x6b),
    (digestPair (digitDigest 0x6b) (digitDigest 0x6a), digitDigest 0x6c),
    (entryBytes shortLockHash, digitDigest 0x6e),
    (digestPair (digitDigest 0x39) (digitDigest 0x6e), digitDigest 0x6f),
    (digestPair (digitDigest 0x63) (digitDigest 0x6f), digitDigest 0x70),
    (entryBytes "fetch:dep:c:d", digitDigest 0x71),
    (digestPair (digitDigest 0x66) (digitDigest 0x71), digitDigest 0x72),
    (digestPair (digitDigest 0x37) (digitDigest 0x72), digitDigest 0x73),
    (digestPair (digitDigest 0x73) (digitDigest 0x6a), digitDigest 0x74),
    ([0x62], pairedDigest),
    ([0x63], digitDigest 0x61),
    ([0x64], digitDigest 0x6d)]
  nodup := by decide +kernel

def registryPackage : Toml :=
  .table [("name", .string "dep"), ("version", .string "1.0.0"),
    ("source", .string "registry+https://github.com/rust-lang/crates.io-index"),
    ("checksum", .string registryChecksum)]

/-- The lock file `c` has a dependency, `b` and `d` have none. -/
noncomputable def tableHost : Host :=
  { demoHost with
    parseToml := fun text =>
      if text = "a" then .ok (.table [("package", demoPackage)])
      else if text = "c" then
        .ok (.table [("package", .array [demoPackage, registryPackage])])
      else .ok (.table [("package", .array [demoPackage])])
    sha256 := tableHash demoTable
    merkleRoot := Merkle.reduce fun left right =>
      tableHash demoTable (digestPair left right) }

/-- The demo project with a dependency. -/
def registryFiles : FileSystem :=
  FileEffect.applyAll demoFiles
    [.write ["app", "Cargo.lock"] ⟨false, [0x63]⟩]

def firstEntries : List String :=
  ["9fceb02d0ae598e95dc970b74767f19372d61af8",
    "eac1c8ad3ba8d6ebf9e5b2b1f3a5f6a5c2f8a1d0", "00", "rustc 1.90.0", "00",
    "cargo 1.90.0"]

theorem tableHost_uses :
    UsesMerkle (tableHash demoTable) lowerHex tableHost := ⟨rfl, rfl, rfl⟩

theorem tableHost_collectInputs {files : FileSystem} {path : Path}
    {lockfile : Bytes} {deps : List ResolvedDependency}
    (hdeps : resolveDependencies tableHost files path lockfile = .ok deps)
    (git : GitContext) (lockfileHash : String) :
    (CargoInputs.driver tableHost).collectInputs files path git lockfileHash
        lockfile =
      .ok ⟨"0.1.0", "00", "rustc 1.90.0", "00", "cargo 1.90.0", "00",
        lockfileHash, deps⟩ := by
  simp only [CargoInputs.driver, CargoInputs.collectInputs, hdeps]
  rfl

/-- The demo project with another lock file. -/
def relockedFiles : FileSystem :=
  FileEffect.applyAll demoFiles
    [.write ["app", "Cargo.lock"] ⟨false, [0x64]⟩]

/-- The run without dependencies. -/
theorem demo_records :
    ∃ recorded, Records (CargoInputs.driver tableHost) tableHost recorded ∧
      recorded.entries (CargoInputs.driver tableHost) =
        (firstEntries ++ [lowerHex.encode pairedDigest.toList]).map
          entryBytes ∧
      recorded.provenance.dependencyUris = [] := by
  have hdeps : ∀ files, cleanOutputDir demoFiles ["app"] = .ok files →
      resolveDependencies tableHost files ["app"] [0x62] = .ok [] := by
    rintro files ⟨⟩
    exact congrArg Except.ok List.mergeSort_nil
  obtain ⟨provenance, hrecords⟩ := @records_of_steps _ _ _ _
    (CargoInputs.driver tableHost) demoFiles _ _ _ _ ["app"] _ [0x62] _ _ _
    demoMetadata tableHost_uses (List.cons_ne_nil _ _) rfl rfl rfl
    (tableHost_collectInputs (hdeps _ rfl) _ _) rfl rfl rfl
  have hdigest : tableHash demoTable [0x62] = pairedDigest := by
    decide +kernel
  refine ⟨_, hrecords, ?_, (cargo_shows hrecords).dependencyUris⟩
  rw [← hdigest]
  rfl

/-- The run without dependencies, over the other lock file. -/
theorem relocked_records :
    ∃ recorded, Records (CargoInputs.driver tableHost) tableHost recorded ∧
      recorded.entries (CargoInputs.driver tableHost) =
        (firstEntries ++ [shortLockHash]).map entryBytes ∧
      recorded.provenance.dependencyUris = [] := by
  have hdeps : ∀ files, cleanOutputDir relockedFiles ["app"] = .ok files →
      resolveDependencies tableHost files ["app"] [0x64] = .ok [] := by
    rintro files ⟨⟩
    exact congrArg Except.ok List.mergeSort_nil
  obtain ⟨provenance, hrecords⟩ := @records_of_steps _ _ _ _
    (CargoInputs.driver tableHost) relockedFiles _ _ _ _ ["app"] _ [0x64] _ _
    _ demoMetadata tableHost_uses (List.cons_ne_nil _ _) rfl rfl rfl
    (tableHost_collectInputs (hdeps _ rfl) _ _) rfl rfl rfl
  have hdigest : tableHash demoTable [0x64] = digitDigest 0x6d := by
    decide +kernel
  refine ⟨_, hrecords, ?_, (cargo_shows hrecords).dependencyUris⟩
  unfold shortLockHash
  rw [← hdigest]
  rfl

/-- The run with one dependency. -/
theorem registry_records :
    ∃ recorded, Records (CargoInputs.driver tableHost) tableHost recorded ∧
      recorded.entries (CargoInputs.driver tableHost) =
        (firstEntries ++ [longLockHash, registryUri]).map entryBytes ∧
      recorded.provenance.dependencyUris = [registryUri] := by
  have hdeps : ∀ files, cleanOutputDir registryFiles ["app"] = .ok files →
      resolveDependencies tableHost files ["app"] [0x63] =
        .ok [⟨none, .sha256 registryChecksum, "dep", registryUri⟩] := by
    rintro files ⟨⟩
    exact congrArg Except.ok (List.mergeSort_singleton _)
  obtain ⟨provenance, hrecords⟩ := @records_of_steps _ _ _ _
    (CargoInputs.driver tableHost) registryFiles _ _ _ _ ["app"] _ [0x63] _ _
    _ demoMetadata tableHost_uses (List.cons_ne_nil _ _) rfl rfl rfl
    (tableHost_collectInputs (hdeps _ rfl) _ _) rfl rfl rfl
  have hdigest : tableHash demoTable [0x63] = digitDigest 0x61 := by
    decide +kernel
  refine ⟨_, hrecords, ?_, (cargo_shows hrecords).dependencyUris⟩
  unfold longLockHash
  rw [← hdigest]
  rfl

/-- No two of the messages have one hash. -/
theorem demoTable_injOn {messages : List Bytes}
    (hsub : ∀ message ∈ messages, message ∈ demoTable.entries.map Prod.fst) :
    Set.InjOn (tableHash demoTable) {message | message ∈ messages} :=
  tableHash_injOn (by decide +kernel) hsub

/-- The hash of one lock file is, as text, the digests of the other one and
of the dependency. -/
theorem cargo_sameRoot :
    ∃ left right, SameRoot CargoInputs.driver (tableHash demoTable) lowerHex
        tableHost tableHost left right ∧
      left.provenance.dependencyUris = [] ∧
      right.provenance.dependencyUris = [registryUri] := by
  obtain ⟨left, hleft, hleftEntries, hleftUris⟩ := demo_records
  obtain ⟨right, hright, hrightEntries, hrightUris⟩ := registry_records
  refine ⟨left, right, sameRoot_of_root_eq tableHost_uses tableHost_uses hleft
    hright ?_ ?_, hleftUris, hrightUris⟩
  · rw [hleftEntries, hrightEntries]
    exact demoTable_injOn (by decide +kernel)
  · rw [hleftEntries, hrightEntries]
    decide +kernel

/-- What `nix derivation show` prints about one fetch. -/
def fetchDerivation (drvPath name hash : String) : String × Json :=
  (drvPath, .object [
    ("name", .string name),
    ("outputs", .object [("out", .object [("hash", .string hash)])])])

noncomputable def derivationHost (derivation : String × Json) : Host :=
  { tableHost with
    query := fun _ _ _ =>
      some (.ok (JsonPretty.text.render (.object [derivation]))) }

noncomputable abbrev fetchHost (name hash : String) : Host :=
  derivationHost (fetchDerivation "/nix/store/source.drv" name hash)

noncomputable def flakeFiles : FileSystem where
  nodes := ⟨[
    (["app"], .dir),
    (["app", "flake.lock"], .file ⟨false, JsonPretty.text.render .null⟩)],
    by decide⟩
  closed := by decide

def fetched (drvPath name algo hash : String) : FetchEntry where
  name := name
  drvPath := drvPath
  outputHash := hash
  outputHashAlgo := algo
  outputHashMode := none
  url := none
  urls := none

theorem derivationHost_uses (derivation : String × Json) :
    UsesMerkle (tableHash demoTable) lowerHex (derivationHost derivation) :=
  ⟨rfl, rfl, rfl⟩

theorem plain_fetchDerivation (drvPath name hash : String) :
    Json.Plain 127 (.object [fetchDerivation drvPath name hash]) := by
  simp [fetchDerivation]

theorem extractFixedOutputHashes_fetchDerivation {drvPath name hash : String}
    {fetch : FetchEntry} (hpath : drvPath ≠ "derivations")
    (hfetch : fetchEntry (fetchDerivation drvPath name hash) = some fetch) :
    extractFixedOutputHashes
      (.object [fetchDerivation drvPath name hash]) = [fetch] := by
  have hentries : (AssocMap.ofEntries
      [fetchDerivation drvPath name hash]).entries =
        [fetchDerivation drvPath name hash] := rfl
  have hget : (AssocMap.ofEntries [fetchDerivation drvPath name hash]).get?
      "derivations" = none := by
    apply AssocMap.get?_eq_none
    rw [hentries]
    exact fun hmem => hpath (List.mem_singleton.mp hmem).symm
  have hflat : (Json.object
      [fetchDerivation drvPath name hash]).getObject? "derivations" = none :=
    (congrArg (·.bind Json.asObject) hget).trans rfl
  have hsorted : StableSort.sortBy (·.name) [fetch] = [fetch] :=
    List.mergeSort_singleton _
  unfold extractFixedOutputHashes
  rw [hflat]
  change StableSort.sortBy (·.name)
    ([fetchDerivation drvPath name hash].filterMap fetchEntry) = [fetch]
  rw [List.filterMap_cons_some hfetch]
  exact hsorted

theorem derivationHost_parseJson {derivation : String × Json} {json : Json}
    (hplain : Json.Plain 127 json) :
    (derivationHost derivation).parseJson (JsonPretty.text.render json) =
      .ok json := by
  unfold Host.parseJson
  rw [show (derivationHost derivation).json = JsonPretty.text from rfl,
    JsonPretty.text.parse_render _ hplain]
  rfl

theorem derivationHost_collectInputs {derivation : String × Json}
    {fetch : FetchEntry} (hplain : Json.Plain 127 (.object [derivation]))
    (hfetches : extractFixedOutputHashes (.object [derivation]) = [fetch])
    (files : FileSystem) (path : Path) (git : GitContext)
    (lockfileHash : String) :
    (NixInputs.driver (derivationHost derivation)).collectInputs files path
        git lockfileHash (JsonPretty.text.render .null) =
      .ok ⟨"0.1.0", "00", "nix 2.31.0", "00", lockfileHash, [], [fetch],
        1⟩ := by
  have hflake : parseFlakeLock (derivationHost derivation)
      (JsonPretty.text.render .null) = .ok [] := by
    unfold parseFlakeLock
    rw [derivationHost_parseJson .null, ok_bind]
    exact congrArg Except.ok List.mergeSort_nil
  have hgraph : evaluateDerivationGraph (derivationHost derivation) files
      path = .ok (.object [derivation]) :=
    derivationHost_parseJson hplain
  simp only [NixInputs.driver, NixInputs.collectInputs, hflake, hgraph,
    ok_bind, hfetches]
  rfl

/-- A run with one fetch. -/
theorem fetch_records {derivation : String × Json} {fetch : FetchEntry}
    (hplain : Json.Plain 127 (.object [derivation]))
    (hfetches : extractFixedOutputHashes (.object [derivation]) = [fetch]) :
    ∃ recorded, Records (NixInputs.driver (derivationHost derivation))
        (derivationHost derivation) recorded ∧
      recorded.entries (NixInputs.driver (derivationHost derivation)) =
        ["9fceb02d0ae598e95dc970b74767f19372d61af8",
          "eac1c8ad3ba8d6ebf9e5b2b1f3a5f6a5c2f8a1d0", flakeLockHash,
          NixInputs.fetchLine fetch, "00", "nix 2.31.0"].map entryBytes ∧
      recorded.started.inputs.fetches = [fetch] := by
  obtain ⟨provenance, hrecords⟩ := @records_of_steps _ _ _
    (derivationHost derivation) (NixInputs.driver (derivationHost derivation))
    flakeFiles _ _ _ _ ["app"] _ _ _ _ _ demoMetadata
    (derivationHost_uses derivation) (List.cons_ne_nil _ _) rfl rfl rfl
    (derivationHost_collectInputs hplain hfetches _ _ _ _) rfl rfl rfl
  have hdigest : tableHash demoTable (JsonPretty.text.render .null) =
      Bytes.zeroPadVec 32 [] := by
    decide +kernel
  refine ⟨_, hrecords, ?_, rfl⟩
  unfold flakeLockHash
  rw [← hdigest]
  rfl

/-- Runs whose fetches are hashed as one line have one root. -/
theorem sameRoot_of_fetchLine {leftDerivation rightDerivation : String × Json}
    {leftFetch rightFetch : FetchEntry}
    (hleftPlain : Json.Plain 127 (.object [leftDerivation]))
    (hrightPlain : Json.Plain 127 (.object [rightDerivation]))
    (hleftFetches : extractFixedOutputHashes (.object [leftDerivation]) =
      [leftFetch])
    (hrightFetches : extractFixedOutputHashes (.object [rightDerivation]) =
      [rightFetch])
    (hline : NixInputs.fetchLine rightFetch = NixInputs.fetchLine leftFetch)
    (hlisted : ∀ message ∈ Merkle.hashInputs (tableHash demoTable) digestPair
      (["9fceb02d0ae598e95dc970b74767f19372d61af8",
        "eac1c8ad3ba8d6ebf9e5b2b1f3a5f6a5c2f8a1d0", flakeLockHash,
        NixInputs.fetchLine leftFetch, "00", "nix 2.31.0"].map entryBytes),
      message ∈ demoTable.entries.map Prod.fst) :
    ∃ left right, SameRoot NixInputs.driver (tableHash demoTable) lowerHex
        (derivationHost leftDerivation) (derivationHost rightDerivation) left
        right ∧
      Merkle.Separate (tableHash demoTable) digestPair
        (left.entries (NixInputs.driver (derivationHost leftDerivation)))
        (right.entries (NixInputs.driver (derivationHost rightDerivation))) ∧
      left.started.inputs.fetches = [leftFetch] ∧
      right.started.inputs.fetches = [rightFetch] := by
  obtain ⟨left, hleft, hleftEntries, hleftStarted⟩ :=
    fetch_records hleftPlain hleftFetches
  obtain ⟨right, hright, hrightEntries, hrightStarted⟩ :=
    fetch_records hrightPlain hrightFetches
  rw [hline, ← hleftEntries] at hrightEntries
  refine ⟨left, right, sameRoot_of_root_eq (derivationHost_uses _)
    (derivationHost_uses _) hleft hright ?_ ?_, ?_, hleftStarted,
    hrightStarted⟩
  · rw [hrightEntries, hleftEntries]
    refine demoTable_injOn fun message hmessage => hlisted message ?_
    exact (List.mem_append.mp hmessage).elim id id
  · rw [hrightEntries]
  · exact Or.inl (congrArg List.length hrightEntries).symm

/-- Two fetches are hashed as one line. -/
theorem nix_sameRoot :
    ∃ left right, SameRoot NixInputs.driver (tableHash demoTable) lowerHex
        (fetchHost "a:b" "c-d") (fetchHost "a" "b:c-d") left right ∧
      left.started.inputs.fetches =
        [fetched "/nix/store/source.drv" "a:b" "c" "d"] ∧
      right.started.inputs.fetches =
        [fetched "/nix/store/source.drv" "a" "b:c" "d"] := by
  obtain ⟨left, right, hsame, -, hfetches⟩ := sameRoot_of_fetchLine
    (plain_fetchDerivation "/nix/store/source.drv" "a:b" "c-d")
    (plain_fetchDerivation "/nix/store/source.drv" "a" "b:c-d")
    (extractFixedOutputHashes_fetchDerivation (by decide) rfl)
    (extractFixedOutputHashes_fetchDerivation (by decide) rfl)
    (by decide +kernel) (by decide +kernel)
  exact ⟨left, right, hsame, hfetches⟩

/-- One fetch, from two derivations. -/
theorem nix_sameRoot_moved :
    ∃ left right, SameRoot NixInputs.driver (tableHash demoTable) lowerHex
        (derivationHost (fetchDerivation "/nix/store/left.drv" "dep" "c-d"))
        (derivationHost (fetchDerivation "/nix/store/right.drv" "dep" "c-d"))
        left right ∧
      Merkle.Separate (tableHash demoTable) digestPair
        (left.entries (NixInputs.driver (derivationHost
          (fetchDerivation "/nix/store/left.drv" "dep" "c-d"))))
        (right.entries (NixInputs.driver (derivationHost
          (fetchDerivation "/nix/store/right.drv" "dep" "c-d")))) ∧
      left.started.inputs.fetches =
        [fetched "/nix/store/left.drv" "dep" "c" "d"] ∧
      right.started.inputs.fetches =
        [fetched "/nix/store/right.drv" "dep" "c" "d"] :=
  sameRoot_of_fetchLine
    (plain_fetchDerivation "/nix/store/left.drv" "dep" "c-d")
    (plain_fetchDerivation "/nix/store/right.drv" "dep" "c-d")
    (extractFixedOutputHashes_fetchDerivation (by decide) rfl)
    (extractFixedOutputHashes_fetchDerivation (by decide) rfl) rfl
    (by decide +kernel)

/-- Runs with lists of different lengths, of which no entry is hashed as an
inner node: they differ in their roots. -/
theorem cargo_runs_separate :
    ∃ left right,
      Records (CargoInputs.driver tableHost) tableHost left ∧
      Records (CargoInputs.driver tableHost) tableHost right ∧
      left.provenance.dependencyUris = [] ∧
      right.provenance.dependencyUris = [registryUri] ∧
      Merkle.Separate (tableHash demoTable) digestPair
        (left.entries (CargoInputs.driver tableHost))
        (right.entries (CargoInputs.driver tableHost)) ∧
      (left.provenance.byproducts = right.provenance.byproducts →
        SameRoot CargoInputs.driver (tableHash demoTable) lowerHex tableHost
          tableHost left right) := by
  obtain ⟨left, hleft, hleftEntries, hleftUris⟩ := relocked_records
  obtain ⟨right, hright, hrightEntries, hrightUris⟩ := registry_records
  refine ⟨left, right, hleft, hright, hleftUris, hrightUris, Or.inr ?_,
    fun hroot => ⟨tableHost_uses, tableHost_uses, hleft, hright, ?_, hroot⟩⟩
  · rw [hleftEntries, hrightEntries]
    decide +kernel
  · rw [hleftEntries, hrightEntries]
    exact demoTable_injOn (by decide +kernel)

/-- Two runs of nix with one root fetch the same, and two runs of Cargo with
zero and one dependency have different roots. -/
theorem inputMerkleRoot_commits_demo :
    (∃ left right, SameRoot NixInputs.driver (tableHash demoTable) lowerHex
        (derivationHost (fetchDerivation "/nix/store/left.drv" "dep" "c-d"))
        (derivationHost (fetchDerivation "/nix/store/right.drv" "dep" "c-d"))
        left right ∧
      left.started.inputs.fetches ≠ right.started.inputs.fetches ∧
      SameBuildInputs left.provenance right.provenance ∧
      left.started.inputs.fetches.map FetchEntry.triple =
        right.started.inputs.fetches.map FetchEntry.triple) ∧
    ∃ left right,
      Records (CargoInputs.driver tableHost) tableHost left ∧
      Records (CargoInputs.driver tableHost) tableHost right ∧
      left.provenance.dependencyUris = [] ∧
      right.provenance.dependencyUris = [registryUri] ∧
      left.provenance.byproducts ≠ right.provenance.byproducts := by
  constructor
  · obtain ⟨left, right, hsame, hseparate, hleft, hright⟩ :=
      nix_sameRoot_moved
    obtain ⟨hinputs, hfetches⟩ :=
      inputMerkleRoot_commits.2.1 _ _ _ _ _ _ hsame hseparate
    refine ⟨left, right, hsame, ?_, hinputs, hfetches.triples ?_ ?_⟩
    · rw [hleft, hright]
      decide
    · rw [hleft]
      unfold FetchEntry.NoColon
      decide
    · rw [hright]
      unfold FetchEntry.NoColon
      decide
  · obtain ⟨left, right, hleft, hright, hnone, hone, hseparate, hsame⟩ :=
      cargo_runs_separate
    refine ⟨left, right, hleft, hright, hnone, hone, ?_⟩
    intro hroot
    obtain ⟨-, huris⟩ := inputMerkleRoot_commits.1 _ _ _ _ _ _ (hsame hroot)
      hseparate
    rw [SameUris, hnone, hone] at huris
    cases huris

/-- Without a condition on the entries, one root is recorded for different
fetches, and for lists of dependencies of different lengths. -/
theorem sharedRoot_of_differentInputs :
    (∃ left right, SameRoot NixInputs.driver (tableHash demoTable) lowerHex
        (fetchHost "a:b" "c-d") (fetchHost "a" "b:c-d") left right ∧
      left.started.inputs.fetches.map FetchEntry.triple ≠
        right.started.inputs.fetches.map FetchEntry.triple) ∧
    ∃ left right, SameRoot CargoInputs.driver (tableHash demoTable) lowerHex
        tableHost tableHost left right ∧
      left.provenance.dependencyUris.length ≠
        right.provenance.dependencyUris.length := by
  constructor
  · obtain ⟨left, right, hsame, hleft, hright⟩ := nix_sameRoot
    refine ⟨left, right, hsame, ?_⟩
    rw [hleft, hright]
    decide +kernel
  · obtain ⟨left, right, hsame, hleft, hright⟩ := cargo_sameRoot
    refine ⟨left, right, hsame, ?_⟩
    rw [hleft, hright]
    decide

end OneRoot

end Toolchain

end Kettle
