/-
The counts that are recorded of an evaluation.  The fetches are counted where
the derivations are listed, but the derivations are counted at the top of the
graph, where newer versions of nix have other keys.
-/
import Kettle.Toolchain.DigestLabels

namespace Kettle

/-- The number is a count. -/
def JsonNumber.Counts (number : JsonNumber) (n : Nat) : Prop :=
  ∃ range, number = .integer n range

theorem JsonNumber.Counts.unique {number : JsonNumber} {n m : Nat}
    (hn : number.Counts n) (hm : number.Counts m) : n = m := by
  obtain ⟨_, rfl⟩ := hn
  obtain ⟨_, heq⟩ := hm
  exact Int.ofNat.inj (JsonNumber.integer.inj heq)

namespace Toolchain

theorem countNumber_counts_iff {m n : Nat} (hm : m < 2 ^ 64) :
    (countNumber (.ofNat m)).Counts n ↔ m = n := by
  have hvalue : (UInt64.ofNat m).toNat = m := UInt64.toNat_ofNat_of_lt' hm
  constructor
  · rintro ⟨_, heq⟩
    have hcast := JsonNumber.integer.inj heq
    rw [hvalue] at hcast
    exact_mod_cast hcast
  · rintro rfl
    simp only [countNumber, hvalue]
    exact ⟨_, rfl⟩

section Graph

/-- The derivations with a fixed output. -/
def fixedDerivations (graph : Json) : List (String × Json) :=
  (derivationEntries graph).filter fun derivation =>
    (hashedOutput derivation.2).isSome

/-- A graph in memory: its objects have no more entries than a `usize`
counts. -/
structure LoadedGraph where
  json : Json
  keys : ∀ fields, json.asObject = some fields →
    fields.entries.length < 2 ^ 64
  nested : ∀ inner, json.getObject? "derivations" = some inner →
    inner.entries.length < 2 ^ 64

/-- Where newer versions of nix nest the derivations, there are as many of
them as there are keys at the top. -/
def CountedWhereListed (graph : Json) : Prop :=
  ∀ fields inner, graph.asObject = some fields →
    graph.getObject? "derivations" = some inner →
      fields.entries.length = inner.entries.length

/-- A derivation is recorded exactly if it has a hashed output. -/
theorem fetchEntry_isSome (derivation : String × Json) :
    (fetchEntry derivation).isSome = (hashedOutput derivation.2).isSome := by
  cases hspec : hashedOutput derivation.2 with
  | some spec =>
      obtain ⟨fetch, _, hfetch, -⟩ := fetchEntry_of_hashedOutput hspec
      rw [hfetch]
      rfl
  | none =>
      unfold fetchEntry
      unfold hashedOutput Json.getObject? Json.get? at hspec
      cases hdrv : derivation.2.asObject with
      | none => rfl
      | some drv =>
          rw [hdrv, Option.bind_some] at hspec
          simp only [Option.bind_eq_bind, Option.bind_some]
          cases houtputs : (drv.get? "outputs").bind Json.asObject with
          | none => rfl
          | some outputs =>
              rw [houtputs, Option.bind_some] at hspec
              rw [Option.bind_some, findSome?_outputHashOf, hspec]
              rfl

theorem length_fixedOutputs (graph : Json) :
    (fixedOutputs graph).length = (fixedDerivations graph).length := by
  rw [fixedOutputs, fixedDerivations, List.length_filterMap_eq_countP,
    List.countP_eq_length_filter]
  simp only [fetchEntry_isSome]

theorem length_fixedDerivations_le (graph : Json) :
    (fixedDerivations graph).length ≤ (derivationEntries graph).length :=
  List.length_filter_le _ _

theorem LoadedGraph.length_derivationEntries (graph : LoadedGraph) :
    (derivationEntries graph.json).length < 2 ^ 64 := by
  unfold derivationEntries
  cases hinner : graph.json.getObject? "derivations" with
  | some inner => exact graph.nested inner hinner
  | none =>
      cases hfields : graph.json.asObject with
      | some fields => exact graph.keys fields hfields
      | none => exact Nat.two_pow_pos 64

/-- The derivations are counted at the top of the graph. -/
theorem derivationCount_counts_iff (graph : LoadedGraph) :
    (countNumber (derivationCount graph.json)).Counts
        (derivationEntries graph.json).length ↔
      CountedWhereListed graph.json := by
  unfold derivationCount derivationEntries CountedWhereListed
  cases hfields : graph.json.asObject with
  | none =>
      have hnested : graph.json.getObject? "derivations" = none := by
        rw [Json.getObject?, Json.get?, hfields]
        rfl
      rw [hnested]
      refine iff_of_true ?_ fun _ _ hnone => by cases hnone
      exact (countNumber_counts_iff (Nat.two_pow_pos 64)).mpr rfl
  | some fields =>
      simp only [countNumber_counts_iff (graph.keys fields hfields)]
      cases hnested : graph.json.getObject? "derivations" with
      | none => exact iff_of_true rfl fun _ _ _ hnone => by cases hnone
      | some inner => simp

end Graph

section Recorded

/-- The evaluation that is recorded counts the derivations that are searched
for fixed outputs, and those that have one, which are the dependencies. -/
structure Consistent (graph : Json) (fields : ProvenanceFields)
    (evaluation : Evaluation) : Prop where
  recorded : fields.internalParameters.evaluation = some evaluation
  derivations : evaluation.derivationCount.Counts
    (derivationEntries graph).length
  fetches : evaluation.fetchCount.Counts (fixedDerivations graph).length
  dependencies : evaluation.fetchCount.Counts
    fields.resolvedDependencies.length
  bounded : ∀ fetched derived, evaluation.fetchCount.Counts fetched →
    evaluation.derivationCount.Counts derived → fetched ≤ derived

variable {host : Host} {files : FileSystem} {path : Path} {git : GitContext}
  {lockfileHash : String} {lockfileBytes : Bytes} {inputs : NixInputs}

/-- What is collected of the graph. -/
theorem collectInputs_graph (graph : LoadedGraph)
    (hgraph : evaluateDerivationGraph host files path = .ok graph.json)
    (hcollect : NixInputs.collectInputs host files path git lockfileHash
      lockfileBytes = .ok inputs) :
    inputs.fetches = extractFixedOutputHashes graph.json ∧
      inputs.derivationCount = derivationCount graph.json := by
  obtain ⟨nix, -, hrest⟩ := bind_eq_ok_iff.mp hcollect
  obtain ⟨kettle, -, hrest⟩ := bind_eq_ok_iff.mp hrest
  obtain ⟨flakeDeps, -, hrest⟩ := bind_eq_ok_iff.mp hrest
  rw [hgraph, ok_bind] at hrest
  cases hrest
  exact ⟨rfl, rfl⟩

theorem length_fetches (graph : LoadedGraph) :
    (extractFixedOutputHashes graph.json).length =
      (fixedDerivations graph.json).length := by
  rw [extractFixedOutputHashes_eq, (StableSort.sortBy_perm _ _).length_eq,
    length_fixedOutputs]

theorem countedWhereListed_of_consistent (graph : LoadedGraph)
    (hgraph : evaluateDerivationGraph host files path = .ok graph.json)
    (hcollect : NixInputs.collectInputs host files path git lockfileHash
      lockfileBytes = .ok inputs) {merkleRoot : String}
    {evaluation : Evaluation}
    (hconsistent : Consistent graph.json
      (inputs.provenanceFields git merkleRoot) evaluation) :
    CountedWhereListed graph.json := by
  obtain ⟨-, hcount⟩ := collectInputs_graph graph hgraph hcollect
  cases hconsistent.recorded
  rw [← derivationCount_counts_iff, ← hcount]
  exact hconsistent.derivations

theorem exists_consistent (graph : LoadedGraph)
    (hgraph : evaluateDerivationGraph host files path = .ok graph.json)
    (hcollect : NixInputs.collectInputs host files path git lockfileHash
      lockfileBytes = .ok inputs) (merkleRoot : String)
    (hlisted : CountedWhereListed graph.json) :
    ∃ evaluation, Consistent graph.json
      (inputs.provenanceFields git merkleRoot) evaluation := by
  obtain ⟨hfetches, hcount⟩ := collectInputs_graph graph hgraph hcollect
  have hlength := length_fetches graph
  have hle := length_fixedDerivations_le graph.json
  have hfit := graph.length_derivationEntries
  have hderivations := (derivationCount_counts_iff graph).mpr hlisted
  rw [← hcount] at hderivations
  have hfetched : (countNumber (.ofNat inputs.fetches.length)).Counts
      (fixedDerivations graph.json).length := by
    rw [hfetches, hlength, countNumber_counts_iff (by omega)]
  have hdependencies :
      (inputs.provenanceFields git merkleRoot).resolvedDependencies.length =
        (fixedDerivations graph.json).length := by
    rw [← hlength, ← hfetches]
    exact List.length_map _
  refine ⟨⟨countNumber inputs.derivationCount,
    countNumber (.ofNat inputs.fetches.length)⟩, rfl, hderivations, hfetched,
    ?_, ?_⟩
  · rw [hdependencies]
    exact hfetched
  · intro fetched derived hfetchedCount hderived
    rw [hfetchedCount.unique hfetched, hderived.unique hderivations]
    exact hle

/-- The counts are consistent exactly where the derivations are counted
where they are listed. -/
theorem consistent_iff (graph : LoadedGraph)
    (hgraph : evaluateDerivationGraph host files path = .ok graph.json)
    (hcollect : NixInputs.collectInputs host files path git lockfileHash
      lockfileBytes = .ok inputs) (merkleRoot : String) :
    (∃ evaluation, Consistent graph.json
        (inputs.provenanceFields git merkleRoot) evaluation) ↔
      CountedWhereListed graph.json := by
  constructor
  · rintro ⟨evaluation, hconsistent⟩
    exact countedWhereListed_of_consistent graph hgraph hcollect hconsistent
  · exact exists_consistent graph hgraph hcollect merkleRoot

end Recorded

section Demo

/-- A machine on which `nix derivation show` prints the graph. -/
noncomputable def graphHost (graph : Json) : Host :=
  { tableHost with
    query := fun _ _ _ => some (.ok (JsonPretty.text.render graph)) }

theorem graphHost_parseJson {graph json : Json} (hplain : json.Plain 127) :
    (graphHost graph).parseJson (JsonPretty.text.render json) = .ok json := by
  unfold Host.parseJson
  rw [show (graphHost graph).json = JsonPretty.text from rfl,
    JsonPretty.text.parse_render _ hplain]
  rfl

theorem graphHost_collects {graph : Json} (hplain : graph.Plain 127)
    (files : FileSystem) (path : Path) (git : GitContext)
    (lockfileHash : String) :
    evaluateDerivationGraph (graphHost graph) files path = .ok graph ∧
      ∃ inputs, NixInputs.collectInputs (graphHost graph) files path git
        lockfileHash (JsonPretty.text.render .null) = .ok inputs := by
  have hgraph : evaluateDerivationGraph (graphHost graph) files path =
      .ok graph := graphHost_parseJson hplain
  have hflake : ∃ deps, parseFlakeLock (graphHost graph)
      (JsonPretty.text.render .null) = .ok deps := by
    unfold parseFlakeLock
    rw [graphHost_parseJson .null, ok_bind]
    exact ⟨_, rfl⟩
  obtain ⟨deps, hdeps⟩ := hflake
  refine ⟨hgraph, ?_⟩
  unfold NixInputs.collectInputs
  rw [hdeps, hgraph]
  exact ⟨_, rfl⟩

/-- A graph of the older format. -/
def loadedLibraries : LoadedGraph where
  json := librariesGraph
  keys fields hfields := by
    cases hfields
    decide
  nested inner hinner := by
    cases hinner

/-- A graph of the newer format. -/
def loadedSources : LoadedGraph where
  json := sourcesGraph
  keys fields hfields := by
    cases hfields
    decide
  nested inner hinner := by
    cases hinner
    decide

theorem plain_fixedDerivation (depth : Nat) (path name hash : String) :
    Json.Plain (depth + 3) (fixedDerivation path name hash).2 := by
  simp [fixedDerivation]

theorem librariesGraph_plain : librariesGraph.Plain 127 := by
  unfold librariesGraph
  simp [plain_fixedDerivation 123]

theorem sourcesGraph_plain : sourcesGraph.Plain 127 := by
  unfold sourcesGraph
  simp [plain_fixedDerivation 122]

def demoGit : GitContext := ⟨"9fceb02d", "eac1c8ad", "https://example.com"⟩

/-- Of two libraries both are counted. -/
theorem consistent_libraries :
    ∃ inputs, NixInputs.collectInputs (graphHost librariesGraph) demoFiles
        ["app"] demoGit "00" (JsonPretty.text.render .null) = .ok inputs ∧
      ∃ evaluation, Consistent librariesGraph
        (inputs.provenanceFields demoGit "00") evaluation := by
  obtain ⟨hgraph, inputs, hcollect⟩ :=
    graphHost_collects librariesGraph_plain demoFiles ["app"] demoGit "00"
  refine ⟨inputs, hcollect, ?_⟩
  apply (consistent_iff loadedLibraries hgraph hcollect "00").mpr
  rintro _ _ - ⟨⟩

/-- Of two sources in the newer format, one derivation is counted and two
fetches. -/
theorem not_consistent_sources :
    ∃ inputs, NixInputs.collectInputs (graphHost sourcesGraph) demoFiles
        ["app"] demoGit "00" (JsonPretty.text.render .null) = .ok inputs ∧
      inputs.derivationCount = 1 ∧ inputs.fetches.length = 2 ∧
      ¬ ∃ evaluation, Consistent sourcesGraph
        (inputs.provenanceFields demoGit "00") evaluation := by
  obtain ⟨hgraph, inputs, hcollect⟩ :=
    graphHost_collects sourcesGraph_plain demoFiles ["app"] demoGit "00"
  obtain ⟨hfetches, hcount⟩ :=
    collectInputs_graph loadedSources hgraph hcollect
  refine ⟨inputs, hcollect, hcount.trans rfl, ?_, ?_⟩
  · rw [hfetches, length_fetches loadedSources]
    decide +kernel
  · rintro ⟨evaluation, hconsistent⟩
    have hlisted := countedWhereListed_of_consistent loadedSources
      hgraph hcollect hconsistent
    exact absurd (hlisted _ _ rfl rfl) (by decide)

end Demo

end Toolchain

end Kettle
