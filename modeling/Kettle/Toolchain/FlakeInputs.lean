/-
The inputs that are recorded of a flake.  A lock file names its root node, and
an input is the key of a node or a path of input names from the root; keys are
read, of the node that is called root.
-/
import Kettle.Toolchain.EvaluationCounts

namespace Kettle

namespace Toolchain

section Nodes

variable (nodes : AssocMap String Json)

/-- What a node refers to by an input's name. -/
def inputRef? (node name : String) : Option Json :=
  ((nodes.get? node).bind (·.getObject? "inputs")).bind (·.get? name)

/-- The narHash, which may be missing, of a node with a `locked`. -/
def lockedHash? (node : String) : Option (Option String) :=
  ((nodes.get? node).bind (·.get? "locked")).map (·.getStr? "narHash")

/-- The node that a reference leads to.  A path is walked from the root, and
on each node its next name is what that node's reference leads to. -/
inductive Resolves (root : String) : Json → String → Prop
  | key (node : String) : Resolves root (.string node) node
  | here : Resolves root (.array []) root
  | step (path : List String) (name : String) {node target : String}
      {ref : Json} :
      Resolves root (.array (path.map .string)) node →
      inputRef? nodes node name = some ref → Resolves root ref target →
      Resolves root (.array ((path ++ [name]).map .string)) target

/-- The entry for an input of the root node that leads to a locked one. -/
def LocksInput (root : String) (dep : FlakeDep) : Prop :=
  ∃ ref node, inputRef? nodes root dep.name = some ref ∧
    Resolves nodes root ref node ∧ lockedHash? nodes node = some dep.narHash

/-- The key that `parse_flake_lock` reads from a reference. -/
def readKey? (ref : Json) : Option String :=
  ref.asStr <|> ref.getStr? "id"

/-- The entry for an input of a node as `parse_flake_lock` reads it. -/
def ReadsInput (node : String) (dep : FlakeDep) : Prop :=
  ∃ ref key, inputRef? nodes node dep.name = some ref ∧
    readKey? ref = some key ∧ lockedHash? nodes key = some dep.narHash

end Nodes

section Resolution

variable {nodes : AssocMap String Json} {root : String}

theorem map_string_inj {left right : List String}
    (heq : left.map Json.string = right.map .string) : left = right :=
  List.map_injective_iff.mpr (fun _ _ => Json.string.inj) heq

/-- A reference leads to one node. -/
theorem Resolves.unique {ref : Json} {left right : String}
    (hleft : Resolves nodes root ref left)
    (hright : Resolves nodes root ref right) : left = right := by
  induction hleft generalizing right with
  | key node =>
      cases hright
      rfl
  | here =>
      generalize hempty : Json.array [] = ref at hright
      cases hright with
      | key => cases hempty
      | here => rfl
      | step => simp at hempty
  | @step path name node target ref _ hinput _ ihPath ihRef =>
      generalize hpath : Json.array _ = other at hright
      cases hright with
      | key => cases hpath
      | here => simp at hpath
      | @step path' name' node' _ ref' hfront hinput' hrest =>
          have happend := map_string_inj (Json.array.inj hpath)
          obtain ⟨rfl, hname⟩ := List.append_inj' happend rfl
          obtain rfl := List.singleton_inj.mp hname
          obtain rfl := ihPath hfront
          rw [hinput] at hinput'
          cases hinput'
          exact ihRef hrest

/-- What is to be recorded is one entry for a name. -/
theorem LocksInput.unique {left right : FlakeDep}
    (hleft : LocksInput nodes root left)
    (hright : LocksInput nodes root right) (hname : left.name = right.name) :
    left = right := by
  obtain ⟨name, leftHash⟩ := left
  obtain ⟨_, rightHash⟩ := right
  cases hname
  obtain ⟨ref, node, href, hnode, hhash⟩ := hleft
  obtain ⟨ref', node', href', hnode', hhash'⟩ := hright
  rw [href] at href'
  cases href'
  obtain rfl := hnode.unique hnode'
  rw [hhash] at hhash'
  cases hhash'
  rfl

end Resolution

section Reading

variable {nodes : AssocMap String Json}

theorem flakeDep_eq_some_iff {input : String × Json} {dep : FlakeDep} :
    flakeDep nodes input = some dep ↔
      input.1 = dep.name ∧ ∃ key, readKey? input.2 = some key ∧
        lockedHash? nodes key = some dep.narHash := by
  obtain ⟨name, hash⟩ := dep
  simp only [flakeDep, readKey?, lockedHash?, Option.bind_eq_bind,
    Option.bind_eq_some_iff, Option.map_eq_some_iff, Option.some.injEq,
    FlakeDep.mk.injEq]
  constructor
  · rintro ⟨key, hkey, node, hnode, locked, hlocked, hname, hhash⟩
    exact ⟨hname, key, hkey, locked, ⟨node, hnode, hlocked⟩, hhash⟩
  · rintro ⟨hname, key, hkey, locked, ⟨node, hnode, hlocked⟩, hhash⟩
    exact ⟨key, hkey, node, hnode, locked, hlocked, hname, hhash⟩

theorem FlakeDep.names_filterMap {inputs : List (String × Json)} :
    ((inputs.filterMap (flakeDep nodes)).map (·.name)).Sublist
      (inputs.map Prod.fst) := by
  induction inputs with
  | nil => exact .slnil
  | cons input rest ih =>
      cases hdep : flakeDep nodes input with
      | none =>
          rw [List.filterMap_cons_none hdep]
          exact ih.cons _
      | some dep =>
          rw [List.filterMap_cons_some hdep, List.map_cons, List.map_cons,
            (flakeDep_eq_some_iff.mp hdep).1]
          exact ih.cons_cons _

/-- Sorted by name, one for each input that is named in `entry`. -/
structure ListsInputs (entry : FlakeDep → Prop) (deps : List FlakeDep) :
    Prop where
  sorted : deps.Pairwise fun left right => left.name ≤ right.name
  distinct : (deps.map (·.name)).Nodup
  entries : ∀ dep, dep ∈ deps ↔ entry dep

/-- `parse_flake_lock` lists what it reads of the node called root. -/
theorem parseFlakeLock_lists {host : Host} {bytes : Bytes} {data : Json}
    (hparse : host.parseJson bytes = .ok data)
    (hnodes : data.getObject? "nodes" = some nodes) :
    ∃ deps, parseFlakeLock host bytes = .ok deps ∧
      ListsInputs (ReadsInput nodes "root") deps := by
  unfold parseFlakeLock
  rw [hparse, ok_bind, hnodes, Option.bind_some]
  refine ⟨_, rfl, StableSort.pairwise_sortBy _ _, ?_, ?_⟩
  · rw [((StableSort.sortBy_perm FlakeDep.name _).map _).nodup_iff]
    cases (nodes.get? "root").bind (·.getObject? "inputs") with
    | none => exact List.nodup_nil
    | some inputs => exact inputs.nodup.sublist FlakeDep.names_filterMap
  · intro dep
    rw [(StableSort.sortBy_perm FlakeDep.name _).mem_iff]
    unfold ReadsInput inputRef?
    cases (nodes.get? "root").bind (·.getObject? "inputs") with
    | none => simp
    | some inputs =>
        simp only [Option.map_some, Option.getD_some, List.mem_filterMap,
          flakeDep_eq_some_iff, Option.bind_some]
        constructor
        · rintro ⟨⟨name, ref⟩, hinput, rfl, key, hkey, hhash⟩
          exact ⟨ref, key, AssocMap.mem_entries_iff.mp hinput, hkey, hhash⟩
        · rintro ⟨ref, key, hinput, hkey, hhash⟩
          exact ⟨(dep.name, ref), AssocMap.mem_entries_iff.mpr hinput, rfl,
            key, hkey, hhash⟩

end Reading

section Complete

/-- A lock file that names one of its nodes as the root. -/
structure FlakeLock where
  data : Json
  nodes : AssocMap String Json
  root : String
  hnodes : data.getObject? "nodes" = some nodes
  hroot : data.getStr? "root" = some root
  listed : (nodes.get? root).isSome = true

variable {nodes : AssocMap String Json}

/-- Of the inputs of the root node that are not given by a key, none leads to
a locked node, nor has the key of one as its id. -/
def LocksKeysOnly (nodes : AssocMap String Json) (root : String) : Prop :=
  ∀ name ref, inputRef? nodes root name = some ref → ref.asStr = none →
    ∀ node, Resolves nodes root ref node ∨ ref.getStr? "id" = some node →
      lockedHash? nodes node = none

/-- The node called root refers to what the root node refers to. -/
def FlakeLock.ReadsRoot (lock : FlakeLock) : Prop :=
  ∀ name, inputRef? lock.nodes "root" name =
    inputRef? lock.nodes lock.root name

/-- One entry, sorted by name, for each input of the root node that leads to a
locked one. -/
def FlakeLock.Complete (lock : FlakeLock) (host : Host) (bytes : Bytes) :
    Prop :=
  ∃ deps, parseFlakeLock host bytes = .ok deps ∧
    ListsInputs (LocksInput lock.nodes lock.root) deps

/-- A path has no id. -/
theorem Resolves.getStr?_id {root : String} {ref : Json} {node : String}
    (hnode : Resolves nodes root ref node) (href : ref.asStr = none) :
    ref.getStr? "id" = none := by
  cases hnode with
  | key => cases href
  | here => rfl
  | step => rfl

theorem asStr_eq_some_iff {ref : Json} {text : String} :
    ref.asStr = some text ↔ ref = .string text := by
  cases ref <;> simp [Json.asStr]

theorem readKey?_of_asStr_none {ref : Json} (href : ref.asStr = none) :
    readKey? ref = ref.getStr? "id" := by
  rw [readKey?, href]
  rfl

/-- Keys of the root node are read as they are meant. -/
theorem reads_iff_locks_iff {root : String} :
    (∀ dep, ReadsInput nodes root dep ↔ LocksInput nodes root dep) ↔
      LocksKeysOnly nodes root := by
  constructor
  · intro hsame name ref hinput href node hnode
    cases hhash : lockedHash? nodes node with
    | none => rfl
    | some hash =>
        exfalso
        rcases hnode with hnode | hid
        · -- a path leads there, and no key is read from it
          obtain ⟨other, key, hother, hkey, -⟩ :=
            (hsame ⟨name, hash⟩).mpr ⟨ref, node, hinput, hnode, hhash⟩
          cases hinput.symm.trans hother
          rw [readKey?_of_asStr_none href, hnode.getStr?_id href] at hkey
          cases hkey
        · obtain ⟨other, target, hother, htarget, -⟩ :=
            (hsame ⟨name, hash⟩).mp ⟨ref, node, hinput,
              (readKey?_of_asStr_none href).trans hid, hhash⟩
          cases hinput.symm.trans hother
          rw [htarget.getStr?_id href] at hid
          cases hid
  · intro hkeys dep
    constructor
    · rintro ⟨ref, key, hinput, hkey, hhash⟩
      cases href : ref.asStr with
      | none =>
          rw [readKey?_of_asStr_none href] at hkey
          have hnone := hkeys _ _ hinput href key (.inr hkey)
          rw [hhash] at hnone
          cases hnone
      | some text =>
          obtain rfl := asStr_eq_some_iff.mp href
          cases hkey
          exact ⟨_, key, hinput, .key key, hhash⟩
    · rintro ⟨ref, node, hinput, hnode, hhash⟩
      cases href : ref.asStr with
      | none =>
          have hnone := hkeys _ _ hinput href node (.inl hnode)
          rw [hhash] at hnone
          cases hnone
      | some text =>
          obtain rfl := asStr_eq_some_iff.mp href
          cases hnode
          exact ⟨_, node, hinput, rfl, hhash⟩

theorem FlakeLock.complete_iff_reads (lock : FlakeLock) {host : Host}
    {bytes : Bytes} (hparse : host.parseJson bytes = .ok lock.data) :
    lock.Complete host bytes ↔ ∀ dep,
      ReadsInput lock.nodes "root" dep ↔
        LocksInput lock.nodes lock.root dep := by
  obtain ⟨deps, hdeps, hreads⟩ := parseFlakeLock_lists hparse lock.hnodes
  constructor
  · rintro ⟨_, hother, hlocks⟩ dep
    cases hdeps.symm.trans hother
    rw [← hreads.entries, hlocks.entries]
  · intro hsame
    refine ⟨deps, hdeps, hreads.sorted, hreads.distinct, fun dep => ?_⟩
    rw [hreads.entries, hsame]

theorem FlakeLock.ReadsRoot.readsInput_iff {lock : FlakeLock}
    (hroot : lock.ReadsRoot) (dep : FlakeDep) :
    ReadsInput lock.nodes "root" dep ↔
      ReadsInput lock.nodes lock.root dep := by
  unfold ReadsInput
  rw [hroot dep.name]

/-- Where the node called root has the inputs of the root node, they are
complete exactly when keys lock them; an input that only one of the two nodes
has, and that locks something, spoils them. -/
theorem flakeInputs_complete_iff (lock : FlakeLock) {host : Host}
    {bytes : Bytes} (hparse : host.parseJson bytes = .ok lock.data) :
    (lock.ReadsRoot →
      (lock.Complete host bytes ↔ LocksKeysOnly lock.nodes lock.root)) ∧
    (lock.Complete host bytes → ∀ dep,
      (LocksInput lock.nodes lock.root dep →
        inputRef? lock.nodes "root" dep.name ≠ none) ∧
      (ReadsInput lock.nodes "root" dep →
        inputRef? lock.nodes lock.root dep.name ≠ none)) := by
  rw [lock.complete_iff_reads hparse]
  refine ⟨fun hroot => ?_, fun hsame dep => ⟨?_, ?_⟩⟩
  · rw [← reads_iff_locks_iff]
    exact forall_congr' fun dep =>
      iff_congr (hroot.readsInput_iff dep) Iff.rfl
  · intro hlocks
    obtain ⟨ref, key, hinput, -⟩ := (hsame dep).mpr hlocks
    rw [hinput]
    exact Option.some_ne_none ref
  · intro hreads
    obtain ⟨ref, node, hinput, -⟩ := (hsame dep).mp hreads
    rw [hinput]
    exact Option.some_ne_none ref

end Complete

section Demo

/-- A node that is locked. -/
def lockedNode (hash : String) (inputs : List (String × Json)) : Json :=
  .object [("inputs", .object inputs),
    ("locked", .object [("narHash", .string hash)])]

/-- A lock file of two inputs, one of which has an input, and a third input
as given. -/
def demoLock (systems : Json) : Json := .object [
  ("nodes", .object [
    ("nixpkgs", lockedNode "sha256-11" []),
    ("root", .object [("inputs", .object [
      ("utils", .string "utils"),
      ("systems", systems),
      ("nixpkgs", .string "nixpkgs")])]),
    ("systems", lockedNode "sha256-22" []),
    ("utils", lockedNode "sha256-33" [("systems", .string "systems")])]),
  ("root", .string "root"),
  ("version", .number (.integer 7 (by decide)))]

def demoFlake (systems : Json) : FlakeLock where
  data := demoLock systems
  nodes := ((demoLock systems).getObject? "nodes").getD .empty
  root := "root"
  hnodes := rfl
  hroot := rfl
  listed := rfl

theorem parseJson_demoLock {systems : Json} (hplain : systems.Plain 123) :
    (graphHost .null).parseJson
        (JsonPretty.text.render (demoLock systems)) =
      .ok (demoFlake systems).data := by
  apply graphHost_parseJson
  have hversion : ∀ depth, Json.Plain depth
      (.number (.integer 7 (by decide))) := fun _ => .integer rfl
  simp [demoLock, lockedNode, hplain, hversion]

theorem inputRef?_demoFlake {systems ref : Json} {name : String}
    (hinput : inputRef? (demoFlake systems).nodes "root" name = some ref) :
    (name, ref) ∈ [("utils", .string "utils"), ("systems", systems),
      ("nixpkgs", .string "nixpkgs")] :=
  AssocMap.mem_entries_iff.mpr hinput

theorem flakeInputs_complete_keys :
    (demoFlake (.string "systems")).Complete (graphHost .null)
      (JsonPretty.text.render (demoLock (.string "systems"))) := by
  apply ((flakeInputs_complete_iff (demoFlake (.string "systems"))
    (parseJson_demoLock (.string "systems"))).1 fun _ => rfl).mpr
  intro name ref hinput href
  -- every input is a key
  have hmem := inputRef?_demoFlake hinput
  simp only [List.mem_cons, Prod.mk.injEq, List.not_mem_nil, or_false]
    at hmem
  rcases hmem with ⟨-, rfl⟩ | ⟨-, rfl⟩ | ⟨-, rfl⟩ <;> cases href

/-- The systems of the utils: a path that leads to a locked node. -/
def followedSystems : Json := .array [.string "utils", .string "systems"]

theorem not_flakeInputs_complete_follows :
    LocksInput (demoFlake followedSystems).nodes "root"
        ⟨"systems", some "sha256-22"⟩ ∧
      ¬ (demoFlake followedSystems).Complete (graphHost .null)
        (JsonPretty.text.render (demoLock followedSystems)) := by
  have hutils : Resolves (demoFlake followedSystems).nodes "root"
      (.array [.string "utils"]) "utils" :=
    .step [] "utils" .here rfl (.key "utils")
  have hlocks : LocksInput (demoFlake followedSystems).nodes "root"
      ⟨"systems", some "sha256-22"⟩ :=
    ⟨followedSystems, "systems", rfl,
      .step ["utils"] "systems" hutils rfl
        (.key "systems"), rfl⟩
  have hplain : followedSystems.Plain 123 := by
    simp [followedSystems, Json.Plain.array]
  obtain ⟨deps, hdeps, hreads⟩ := parseFlakeLock_lists
    (parseJson_demoLock hplain) (demoFlake followedSystems).hnodes
  have hskipped : "systems" ∉ deps.map (·.name) := by
    intro hmem
    obtain ⟨dep, hdep, hname⟩ := List.mem_map.mp hmem
    obtain ⟨ref, key, hinput, hkey, -⟩ := (hreads.entries dep).mp hdep
    rw [hname] at hinput
    cases hinput
    cases hkey
  refine ⟨hlocks, ?_⟩
  rintro ⟨_, hother, hlists⟩
  cases hdeps.symm.trans hother
  exact hskipped (List.mem_map_of_mem ((hlists.entries _).mpr hlocks))

end Demo

end Toolchain

end Kettle
