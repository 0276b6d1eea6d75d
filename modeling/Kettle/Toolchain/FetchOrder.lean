/-
The order of the fetches of a derivation graph.  They are sorted by name, and
fetches of one name keep the order in which nix printed them.
-/
import Kettle.Lib.LexOrder
import Kettle.Toolchain.MerkleRoot

namespace Kettle

namespace Toolchain

section Graphs

/-- The derivations of a graph, in the order of the object that holds them. -/
def derivationEntries (graph : Json) : List (String × Json) :=
  ((graph.getObject? "derivations" <|> graph.asObject).map
    (·.entries)).getD []

/-- The graph with its derivations listed as given, where they were. -/
def withDerivations (graph : Json) (entries : List (String × Json)) : Json :=
  match graph.asObject with
  | none => graph
  | some fields =>
      match graph.getObject? "derivations" with
      | none => .object entries
      | some _ =>
          .object (fields.insert "derivations" (.object entries)).entries

/-- The derivations with a fixed output. -/
def fixedOutputs (graph : Json) : List FetchEntry :=
  (derivationEntries graph).filterMap fetchEntry

theorem extractFixedOutputHashes_eq (graph : Json) :
    extractFixedOutputHashes graph =
      StableSort.sortBy (·.name) (fixedOutputs graph) := by
  unfold extractFixedOutputHashes fixedOutputs derivationEntries
  cases graph.getObject? "derivations" <|> graph.asObject with
  | none => exact List.mergeSort_nil.symm
  | some derivations => rfl

theorem asObject_entries (fields : AssocMap String Json) :
    (Json.object fields.entries).asObject = some fields := by
  obtain ⟨entries, hnodup⟩ := fields
  have hentries := AssocMap.entries_ofEntries hnodup
  cases hmap : AssocMap.ofEntries entries with
  | mk listed hlisted =>
      rw [hmap] at hentries
      subst hentries
      exact congrArg some hmap

theorem nodup_derivationEntries (graph : Json) :
    ((derivationEntries graph).map Prod.fst).Nodup := by
  unfold derivationEntries
  cases graph.getObject? "derivations" <|> graph.asObject with
  | none => exact List.nodup_nil
  | some derivations => exact derivations.nodup

theorem derivationEntries_of_asObject_none {graph : Json}
    (hobject : graph.asObject = none) : derivationEntries graph = [] := by
  simp [derivationEntries, Json.getObject?, Json.get?, hobject]

/-- The derivations of a reordered graph are the ones that were listed. -/
theorem derivationEntries_withDerivations {graph : Json}
    {entries : List (String × Json)}
    (hperm : entries.Perm (derivationEntries graph)) :
    derivationEntries (withDerivations graph entries) = entries := by
  have hnodup : (entries.map Prod.fst).Nodup :=
    (hperm.map Prod.fst).nodup_iff.mpr (nodup_derivationEntries graph)
  have hlisted : (Json.object entries).asObject = some ⟨entries, hnodup⟩ :=
    asObject_entries ⟨entries, hnodup⟩
  unfold withDerivations
  cases hobject : graph.asObject with
  | none =>
      rw [derivationEntries_of_asObject_none hobject] at hperm ⊢
      exact hperm.eq_nil.symm
  | some fields =>
      cases hinner : graph.getObject? "derivations" with
      | none =>
          -- the old format: no entry is an object named derivations
          have hfields : derivationEntries graph = fields.entries := by
            simp [derivationEntries, hinner, hobject]
          rw [hfields] at hperm
          have hget := @AssocMap.get?_eq_of_perm _ _ _ ⟨entries, hnodup⟩
            fields hperm "derivations"
          have hnone : (Json.object entries).getObject? "derivations" =
              none := by
            simp only [Json.getObject?, Json.get?, hlisted, Option.bind_some,
              hget]
            simpa [Json.getObject?, Json.get?, hobject] using hinner
          simp [derivationEntries, hnone, hlisted]
      | some inner =>
          have hget : (Json.object (fields.insert "derivations"
              (.object entries)).entries).getObject? "derivations" =
                some ⟨entries, hnodup⟩ := by
            simp [Json.getObject?, Json.get?, asObject_entries, hlisted]
          simp [derivationEntries, hget]

end Graphs

section Uris

/-- What follows the name in the uri of a fetch. -/
def FetchEntry.hashQuery (fetch : FetchEntry) : String :=
  "?hash=" ++ fetch.outputHashAlgo ++ ":" ++ fetch.outputHash

theorem FetchEntry.dependency_uri (fetch : FetchEntry) :
    fetch.dependency.uri =
      "pkg:nix-fetch/" ++ (fetch.name ++ fetch.hashQuery) := by
  simp [FetchEntry.dependency, FetchEntry.hashQuery, toString,
    String.append_assoc]

theorem FetchEntry.uri_le_iff (left right : FetchEntry) :
    left.dependency.uri ≤ right.dependency.uri ↔
      left.name ++ left.hashQuery ≤ right.name ++ right.hashQuery := by
  rw [left.dependency_uri, right.dependency_uri,
    LexOrder.string_append_le_append_iff]

/-- Where a name continues another one, what it adds does not sort before
the other's query. -/
def NamesAgree (fetches : List FetchEntry) : Prop :=
  ∀ left ∈ fetches, ∀ right ∈ fetches, ∀ rest, rest ≠ "" →
    right.name = left.name ++ rest → left.hashQuery ≤ rest ++ right.hashQuery

/-- Names agree with uris exactly when the order of names is theirs. -/
theorem namesAgree_iff (fetches : List FetchEntry) :
    NamesAgree fetches ↔
      ∀ left ∈ fetches, ∀ right ∈ fetches, left.name < right.name →
        left.dependency.uri ≤ right.dependency.uri := by
  constructor
  · intro hagree left hleft right hright hlt
    rw [FetchEntry.uri_le_iff]
    rcases LexOrder.string_continues_or_append_lt hlt with
      ⟨rest, hrest, hname⟩ | hsettled
    · have hquery := hagree left hleft right hright rest hrest hname
      rw [hname, String.append_assoc]
      exact (LexOrder.string_append_le_append_iff _ _ _).mpr hquery
    · exact le_of_lt (hsettled _ _)
  · intro horder left hleft right hright rest hrest hname
    have hlt : left.name < right.name := by
      rw [hname]
      exact LexOrder.string_lt_append hrest left.name
    have huri := horder left hleft right hright hlt
    rw [FetchEntry.uri_le_iff, hname, String.append_assoc] at huri
    exact (LexOrder.string_append_le_append_iff _ _ _).mp huri

end Uris

section Canonical

/-- No two fixed outputs agree in name, algorithm and hash. -/
def DistinctFetches (graph : Json) : Prop :=
  ((fixedOutputs graph).map FetchEntry.triple).Nodup

instance (graph : Json) : Decidable (DistinctFetches graph) :=
  inferInstanceAs (Decidable (List.Nodup _))

/-- The inputs with the fetches of a graph. -/
def NixInputs.withGraph (inputs : NixInputs) (graph : Json) : NixInputs :=
  { inputs with fetches := extractFixedOutputHashes graph }

def graphDependencies (inputs : NixInputs) (git : GitContext)
    (merkleRoot : String) (graph : Json) : List ResolvedDependency :=
  ((inputs.withGraph graph).provenanceFields git
    merkleRoot).resolvedDependencies

def graphLeaves (inputs : NixInputs) (git : GitContext)
    (lockfileHash : String) (graph : Json) : List String :=
  (inputs.withGraph graph).merkleEntries git lockfileHash

/-- What is recorded and hashed does not depend on the order of the
derivations, and the dependencies are sorted by uri. -/
def CanonicalFetches (graph : Json) : Prop :=
  ∀ (inputs : NixInputs) (git : GitContext)
    (lockfileHash merkleRoot : String),
    (∀ order : List (String × Json), order.Perm (derivationEntries graph) →
      graphDependencies inputs git merkleRoot (withDerivations graph order) =
          graphDependencies inputs git merkleRoot graph ∧
        graphLeaves inputs git lockfileHash (withDerivations graph order) =
          graphLeaves inputs git lockfileHash graph) ∧
      (graphDependencies inputs git merkleRoot graph).Pairwise
        fun left right => left.uri ≤ right.uri

theorem graphDependencies_eq (inputs : NixInputs) (git : GitContext)
    (merkleRoot : String) (graph : Json) :
    graphDependencies inputs git merkleRoot graph =
      (StableSort.sortBy (·.name) (fixedOutputs graph)).map
        FetchEntry.dependency := by
  rw [← extractFixedOutputHashes_eq]
  rfl

theorem fixedOutputs_withDerivations {graph : Json}
    {order : List (String × Json)}
    (hperm : order.Perm (derivationEntries graph)) :
    fixedOutputs (withDerivations graph order) =
      order.filterMap fetchEntry := by
  rw [fixedOutputs, derivationEntries_withDerivations hperm]

/-- With different names the sorted fetches do not depend on the order. -/
theorem extract_withDerivations {graph : Json}
    (hnames : ((fixedOutputs graph).map (·.name)).Nodup)
    {order : List (String × Json)}
    (hperm : order.Perm (derivationEntries graph)) :
    extractFixedOutputHashes (withDerivations graph order) =
      extractFixedOutputHashes graph := by
  rw [extractFixedOutputHashes_eq, extractFixedOutputHashes_eq,
    fixedOutputs_withDerivations hperm]
  exact (StableSort.sortBy_eq_of_perm (·.name)
    (hperm.filterMap fetchEntry).symm hnames).symm

theorem FetchEntry.triple_eq_of_dependency {left right : FetchEntry}
    (hdep : left.dependency = right.dependency) :
    left.triple = right.triple := by
  have hname : left.name = right.name :=
    congrArg ResolvedDependency.name hdep
  have hhash : left.outputHash = right.outputHash :=
    congrArg (·.digest.value) hdep
  have huri := congrArg ResolvedDependency.uri hdep
  rw [left.dependency_uri, right.dependency_uri] at huri
  have halgo : left.outputHashAlgo = right.outputHashAlgo := by
    simp only [FetchEntry.hashQuery, hname, hhash] at huri
    have hlist := congrArg String.toList huri
    simp only [String.toList_append, List.append_cancel_left_eq,
      List.append_cancel_right_eq] at hlist
    exact String.toList_injective hlist
  simp [FetchEntry.triple, hname, halgo, hhash]

theorem map_triple_of_map_dependency {left right : List FetchEntry}
    (heq : left.map FetchEntry.dependency =
      right.map FetchEntry.dependency) :
    left.map FetchEntry.triple = right.map FetchEntry.triple := by
  induction left generalizing right with
  | nil => rw [List.map_eq_nil_iff.mp heq.symm]
  | cons fetch rest ih =>
      cases right with
      | nil => cases heq
      | cons other others =>
          rw [List.map_cons, List.map_cons, List.cons.injEq] at heq
          rw [List.map_cons, List.map_cons,
            FetchEntry.triple_eq_of_dependency heq.1, ih heq.2]

/-- The reversed order already tells fetches of one name apart. -/
theorem names_nodup_of_canonical {graph : Json}
    (hdistinct : DistinctFetches graph) (inputs : NixInputs)
    (git : GitContext) (merkleRoot : String)
    (hreverse : graphDependencies inputs git merkleRoot
        (withDerivations graph (derivationEntries graph).reverse) =
      graphDependencies inputs git merkleRoot graph) :
    ((fixedOutputs graph).map (·.name)).Nodup := by
  apply @StableSort.nodup_of_sortBy_reverse _ _ _ (fun e => e.name) _
    FetchEntry.triple Prod.fst (fun _ => rfl) _ hdistinct
  rw [graphDependencies_eq, graphDependencies_eq,
    fixedOutputs_withDerivations (List.reverse_perm _),
    List.filterMap_reverse] at hreverse
  exact map_triple_of_map_dependency hreverse

theorem pairwise_uri_iff {graph : Json}
    (hnames : ((fixedOutputs graph).map (·.name)).Nodup) :
    ((StableSort.sortBy (·.name) (fixedOutputs graph)).Pairwise
        fun left right => left.dependency.uri ≤ right.dependency.uri) ↔
      NamesAgree (fixedOutputs graph) := by
  have hperm := StableSort.sortBy_perm FetchEntry.name (fixedOutputs graph)
  have hsorted := StableSort.pairwise_sortBy FetchEntry.name
    (fixedOutputs graph)
  have hstrict : (StableSort.sortBy FetchEntry.name
      (fixedOutputs graph)).Pairwise fun a b => a.name < b.name := by
    have hdiffer : (StableSort.sortBy FetchEntry.name
        (fixedOutputs graph)).Pairwise fun a b => a.name ≠ b.name :=
      List.pairwise_map.mp ((hperm.map FetchEntry.name).nodup_iff.mpr hnames)
    exact (hsorted.and hdiffer).imp fun h => lt_of_le_of_ne h.1 h.2
  rw [namesAgree_iff]
  constructor
  · intro huris left hleft right hright hlt
    exact StableSort.of_pairwise_of_lt FetchEntry.name hsorted huris
      (hperm.mem_iff.mpr hleft) (hperm.mem_iff.mpr hright) hlt
  · intro horder
    apply List.Pairwise.imp_of_mem _ hstrict
    intro left right hleft hright hlt
    exact horder left (hperm.mem_iff.mp hleft) right
      (hperm.mem_iff.mp hright) hlt

/-- What a canonical list asks of the names. -/
structure NamesSettle (graph : Json) : Prop where
  nodup : ((fixedOutputs graph).map (·.name)).Nodup
  agree : NamesAgree (fixedOutputs graph)

theorem CanonicalFetches.namesSettle {graph : Json}
    (hcanonical : CanonicalFetches graph)
    (hdistinct : DistinctFetches graph) : NamesSettle graph := by
  obtain ⟨hperm, hsorted⟩ := hcanonical
    ⟨"", "", "", "", "", [], [], 0⟩ ⟨"", "", ""⟩ "" ""
  have hnodup := names_nodup_of_canonical hdistinct _ _ _
    (hperm _ (List.reverse_perm _)).1
  rw [graphDependencies_eq, List.pairwise_map] at hsorted
  exact ⟨hnodup, (pairwise_uri_iff hnodup).mp hsorted⟩

theorem NamesSettle.canonical {graph : Json} (hsettle : NamesSettle graph) :
    CanonicalFetches graph := by
  intro inputs git lockfileHash merkleRoot
  constructor
  · intro order hperm
    have hsame := extract_withDerivations hsettle.nodup hperm
    simp only [graphDependencies, graphLeaves, NixInputs.withGraph, hsame,
      and_self]
  · rw [graphDependencies_eq, List.pairwise_map]
    exact (pairwise_uri_iff hsettle.nodup).mpr hsettle.agree

/-- The list of fetches is canonical exactly when the names settle the
order. -/
theorem canonicalFetches_iff {graph : Json}
    (hdistinct : DistinctFetches graph) :
    CanonicalFetches graph ↔ NamesSettle graph :=
  ⟨fun hcanonical => hcanonical.namesSettle hdistinct, NamesSettle.canonical⟩

end Canonical

section Demo

/-- A derivation with one fixed output. -/
def fixedDerivation (path name hash : String) : String × Json :=
  (path, .object [
    ("name", .string name),
    ("outputs", .object [("out", .object [("hash", .string hash)])])])

def librariesGraph : Json := .object [
  fixedDerivation "/nix/store/2.drv" "zlib" "sha256-22",
  fixedDerivation "/nix/store/1.drv" "glibc" "sha256-11"]

theorem canonicalFetches_libraries : CanonicalFetches librariesGraph := by
  apply (canonicalFetches_iff (by decide +kernel)).mpr
  refine ⟨by decide +kernel, ?_⟩
  intro left hleft right hright rest hrest hname
  have hprefix : ∀ left ∈ fixedOutputs librariesGraph,
      ∀ right ∈ fixedOutputs librariesGraph,
        left.name.toList <+: right.name.toList →
          left.name.length = right.name.length := by
    decide +kernel
  have hlength := hprefix left hleft right hright
    ⟨rest.toList, by rw [hname, String.toList_append]⟩
  rw [hname, String.length_append] at hlength
  exact absurd (String.length_eq_zero_iff.mp (by omega)) hrest

/-- Two sources that nobody named, the newer format. -/
def sourcesGraph : Json := .object [("derivations", .object [
  fixedDerivation "/nix/store/1.drv" "source" "sha256-11",
  fixedDerivation "/nix/store/2.drv" "source" "sha256-22"])]

def versionsGraph : Json := .object [
  fixedDerivation "/nix/store/1.drv" "gcc" "sha256-11",
  fixedDerivation "/nix/store/2.drv" "gcc-13" "sha256-22"]

theorem not_canonical_sources :
    (DistinctFetches sourcesGraph ∧ ¬ CanonicalFetches sourcesGraph) ∧
      DistinctFetches versionsGraph ∧ ¬ CanonicalFetches versionsGraph := by
  have hsources : DistinctFetches sourcesGraph := by decide +kernel
  have hversions : DistinctFetches versionsGraph := by decide +kernel
  refine ⟨⟨hsources, ?_⟩, hversions, ?_⟩
  · intro hcanonical
    exact absurd (hcanonical.namesSettle hsources).nodup (by decide +kernel)
  · intro hcanonical
    have hgcc : ∃ gcc ∈ fixedOutputs versionsGraph,
        ∃ gcc13 ∈ fixedOutputs versionsGraph,
          gcc13.name = gcc.name ++ "-13" ∧
            ¬ gcc.hashQuery ≤ "-13" ++ gcc13.hashQuery := by
      decide +kernel
    obtain ⟨gcc, hleft, gcc13, hright, hname, hbefore⟩ := hgcc
    exact hbefore ((hcanonical.namesSettle hversions).agree gcc hleft gcc13
      hright "-13" (by decide) hname)

end Demo

end Toolchain

end Kettle
