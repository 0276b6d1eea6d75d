/-
Merkle trees that pair neighbours and promote an unpaired node.  Leaves and
inner nodes go through one hash, so that what a root says about its leaves
depends on no leaf being laid out like an inner node.
-/
import Mathlib.Data.Set.Function

universe u v

namespace Merkle

section Reduce

variable {α : Type u} (join : α → α → α)

/-- One level up. -/
def pairUp : List α → List α
  | [] => []
  | [node] => [node]
  | left :: right :: rest => join left right :: pairUp rest

/-- Up to one node, in at most so many levels. -/
def reduceWithin : Nat → List α → Option α
  | _, [] => none
  | _, [node] => some node
  | 0, _ => none
  | levels + 1, level => reduceWithin levels (pairUp join level)

/-- The node at the top; there are fewer levels than nodes. -/
def reduce (nodes : List α) : Option α := reduceWithin join nodes.length nodes

variable {join}

theorem length_pairUp (nodes : List α) :
    (pairUp join nodes).length = (nodes.length + 1) / 2 := by
  induction nodes using pairUp.induct with
  | case1 => simp [pairUp]
  | case2 node => simp [pairUp]
  | case3 left right rest ih =>
      rw [pairUp, List.length_cons, ih]
      simp only [List.length_cons]
      omega

theorem pairUp_map {β : Type v} {join' : β → β → β} {f : α → β}
    (hjoin : ∀ left right, f (join left right) = join' (f left) (f right))
    (nodes : List α) :
    pairUp join' (nodes.map f) = (pairUp join nodes).map f := by
  induction nodes using pairUp.induct with
  | case1 => rfl
  | case2 node => rfl
  | case3 left right rest ih =>
      simp only [List.map_cons, pairUp]
      rw [ih, hjoin]

/-- What respects joining can be done before or after. -/
theorem reduceWithin_map {β : Type v} {join' : β → β → β} {f : α → β}
    (hjoin : ∀ left right, f (join left right) = join' (f left) (f right))
    (levels : Nat) (nodes : List α) :
    reduceWithin join' levels (nodes.map f) =
      (reduceWithin join levels nodes).map f := by
  induction levels generalizing nodes with
  | zero =>
      match nodes with
      | [] => rfl
      | [node] => rfl
      | left :: right :: rest => rfl
  | succ levels ih =>
      match nodes with
      | [] => rfl
      | [node] => rfl
      | left :: right :: rest =>
          have hup := pairUp_map hjoin (left :: right :: rest)
          simp only [List.map_cons] at hup
          simp only [List.map_cons, reduceWithin]
          rw [hup]
          exact ih _

theorem reduce_map {β : Type v} {join' : β → β → β} {f : α → β}
    (hjoin : ∀ left right, f (join left right) = join' (f left) (f right))
    (nodes : List α) :
    reduce join' (nodes.map f) = (reduce join nodes).map f := by
  unfold reduce
  rw [List.length_map]
  exact reduceWithin_map hjoin _ nodes

theorem reduceWithin_isSome {levels : Nat} {nodes : List α}
    (hne : nodes ≠ []) (hle : nodes.length ≤ levels + 1) :
    ∃ top, reduceWithin join levels nodes = some top := by
  induction levels generalizing nodes with
  | zero =>
      match nodes with
      | [node] => exact ⟨node, rfl⟩
      | [] => exact absurd rfl hne
      | left :: right :: rest =>
          simp only [List.length_cons] at hle
          omega
  | succ levels ih =>
      match nodes with
      | [node] => exact ⟨node, rfl⟩
      | [] => exact absurd rfl hne
      | left :: right :: rest =>
          have hlength := @length_pairUp α join (left :: right :: rest)
          simp only [List.length_cons] at hle hlength
          refine ih ?_ ?_
          · exact List.ne_nil_of_length_pos (by omega)
          · omega

/-- Some nodes have a top. -/
theorem reduce_isSome {nodes : List α} (hne : nodes ≠ []) :
    ∃ top, reduce join nodes = some top :=
  reduceWithin_isSome hne (Nat.le_succ _)

theorem flatten_pairUp_append (lists : List (List α)) :
    (pairUp (· ++ ·) lists).flatten = lists.flatten := by
  induction lists using pairUp.induct with
  | case1 => rfl
  | case2 node => rfl
  | case3 left right rest ih =>
      simp only [pairUp, List.flatten_cons, List.append_assoc]
      rw [ih]

theorem reduceWithin_append {levels : Nat} {lists : List (List α)}
    {top : List α} (htop : reduceWithin (· ++ ·) levels lists = some top) :
    top = lists.flatten := by
  induction levels generalizing lists with
  | zero =>
      match lists with
      | [] => cases htop
      | [node] =>
          cases htop
          simp
      | left :: right :: rest => cases htop
  | succ levels ih =>
      match lists with
      | [] => cases htop
      | [node] =>
          cases htop
          simp
      | left :: right :: rest =>
          rw [ih htop, flatten_pairUp_append]

end Reduce

section Tree

variable {Input : Type u} {Digest : Type v}

/-- The tree over some leaf inputs, before anything is hashed. -/
inductive Tree (Input : Type u) where
  | leaf (input : Input)
  | node (left right : Tree Input)

namespace Tree

def leaves : Tree Input → List Input
  | leaf input => [input]
  | node left right => left.leaves ++ right.leaves

/-- The tree without its inputs. -/
def shape : Tree Input → Tree Unit
  | leaf _ => leaf ()
  | node left right => node left.shape right.shape

variable (hash : Input → Digest) (frame : Digest → Digest → Input)

def digest : Tree Input → Digest
  | leaf input => hash input
  | node left right => hash (frame left.digest right.digest)

/-- What is hashed for the inner nodes. -/
def nodeInputs : Tree Input → List Input
  | leaf _ => []
  | node left right =>
      frame (left.digest hash frame) (right.digest hash frame) ::
        (left.nodeInputs ++ right.nodeInputs)

variable {hash frame}

/-- What is hashed for the tree is among `inputs`. -/
structure HashedIn (hash : Input → Digest) (frame : Digest → Digest → Input)
    (inputs : Set Input) (tree : Tree Input) : Prop where
  leaf_mem : ∀ input ∈ tree.leaves, input ∈ inputs
  node_mem : ∀ input ∈ tree.nodeInputs hash frame, input ∈ inputs

/-- No leaf of one tree is hashed as an inner node of the other. -/
structure Apart (hash : Input → Digest) (frame : Digest → Digest → Input)
    (left right : Tree Input) : Prop where
  left_leaves : ∀ input ∈ left.leaves, input ∉ right.nodeInputs hash frame
  right_leaves : ∀ input ∈ right.leaves, input ∉ left.nodeInputs hash frame

/-- Trees in which a leaf is not taken for an inner node, because of where
they are or of what they are. -/
def Comparable (hash : Input → Digest) (frame : Digest → Digest → Input)
    (left right : Tree Input) : Prop :=
  left.shape = right.shape ∨ Apart hash frame left right

variable {inputs : Set Input} {first second third fourth : Tree Input}

theorem HashedIn.ofFirst
    (hhashed : (node first second).HashedIn hash frame inputs) :
    first.HashedIn hash frame inputs where
  leaf_mem input hmem :=
    hhashed.leaf_mem input (List.mem_append_left _ hmem)
  node_mem input hmem :=
    hhashed.node_mem input
      (List.mem_cons_of_mem _ (List.mem_append_left _ hmem))

theorem HashedIn.ofSecond
    (hhashed : (node first second).HashedIn hash frame inputs) :
    second.HashedIn hash frame inputs where
  leaf_mem input hmem :=
    hhashed.leaf_mem input (List.mem_append_right _ hmem)
  node_mem input hmem :=
    hhashed.node_mem input
      (List.mem_cons_of_mem _ (List.mem_append_right _ hmem))

theorem HashedIn.framed
    (hhashed : (node first second).HashedIn hash frame inputs) :
    frame (first.digest hash frame) (second.digest hash frame) ∈ inputs :=
  hhashed.node_mem _ List.mem_cons_self

theorem HashedIn.input {input : Input}
    (hhashed : (leaf input).HashedIn hash frame inputs) : input ∈ inputs :=
  hhashed.leaf_mem input List.mem_cons_self

theorem Comparable.symm {left right : Tree Input}
    (hcompare : Comparable hash frame left right) :
    Comparable hash frame right left :=
  hcompare.imp Eq.symm fun hapart =>
    ⟨hapart.right_leaves, hapart.left_leaves⟩

theorem Comparable.ofFirsts
    (hcompare : Comparable hash frame (node first second)
      (node third fourth)) : Comparable hash frame first third := by
  rcases hcompare with hshape | hapart
  · exact Or.inl (Tree.node.inj hshape).1
  · refine Or.inr ⟨?_, ?_⟩
    · intro input hleaf hnode
      exact hapart.left_leaves input (List.mem_append_left _ hleaf)
        (List.mem_cons_of_mem _ (List.mem_append_left _ hnode))
    · intro input hleaf hnode
      exact hapart.right_leaves input (List.mem_append_left _ hleaf)
        (List.mem_cons_of_mem _ (List.mem_append_left _ hnode))

theorem Comparable.ofSeconds
    (hcompare : Comparable hash frame (node first second)
      (node third fourth)) : Comparable hash frame second fourth := by
  rcases hcompare with hshape | hapart
  · exact Or.inl (Tree.node.inj hshape).2
  · refine Or.inr ⟨?_, ?_⟩
    · intro input hleaf hnode
      exact hapart.left_leaves input (List.mem_append_right _ hleaf)
        (List.mem_cons_of_mem _ (List.mem_append_right _ hnode))
    · intro input hleaf hnode
      exact hapart.right_leaves input (List.mem_append_right _ hleaf)
        (List.mem_cons_of_mem _ (List.mem_append_right _ hnode))

/-- A leaf is not hashed as the node that it is compared with. -/
theorem Comparable.leaf_ne_framed {input : Input}
    (hcompare : Comparable hash frame (leaf input) (node third fourth)) :
    input ≠ frame (third.digest hash frame) (fourth.digest hash frame) := by
  rintro rfl
  rcases hcompare with hshape | hapart
  · cases hshape
  · exact hapart.left_leaves _ List.mem_cons_self List.mem_cons_self

/-- Trees with one digest are one tree.  The induction takes both apart from
the top: equal inputs of the hash are two leaves or two nodes. -/
theorem digest_injective {left right : Tree Input}
    (hinj : Set.InjOn hash inputs)
    (hframe : ∀ a b c d, frame a b = frame c d → a = c ∧ b = d)
    (hleft : left.HashedIn hash frame inputs)
    (hright : right.HashedIn hash frame inputs)
    (hcompare : Comparable hash frame left right)
    (heq : left.digest hash frame = right.digest hash frame) :
    left = right := by
  induction left generalizing right with
  | leaf input =>
      cases right with
      | leaf other => rw [hinj hleft.input hright.input heq]
      | node third fourth =>
          exact absurd (hinj hleft.input hright.framed heq)
            hcompare.leaf_ne_framed
  | node first second ihFirst ihSecond =>
      cases right with
      | leaf other =>
          exact absurd (hinj hleft.framed hright.input heq).symm
            hcompare.symm.leaf_ne_framed
      | node third fourth =>
          have hframes := hinj hleft.framed hright.framed heq
          obtain ⟨hfirst, hsecond⟩ := hframe _ _ _ _ hframes
          rw [ihFirst hleft.ofFirst hright.ofFirst hcompare.ofFirsts hfirst,
            ihSecond hleft.ofSecond hright.ofSecond hcompare.ofSeconds
              hsecond]

end Tree

/-- The tree over a list of leaf inputs. -/
def treeOf (leaves : List Input) : Option (Tree Input) :=
  reduce Tree.node (leaves.map Tree.leaf)

/-- The root over the leaves' hashes. -/
def root (hash : Input → Digest) (frame : Digest → Digest → Input)
    (leaves : List Input) : Option Digest :=
  reduce (fun left right => hash (frame left right)) (leaves.map hash)

variable {hash : Input → Digest} {frame : Digest → Digest → Input}

theorem root_eq_digest (leaves : List Input) :
    root hash frame leaves =
      (treeOf leaves).map (Tree.digest hash frame) := by
  have hmap := @reduce_map (Tree Input) Tree.node Digest
    (fun left right => hash (frame left right)) (Tree.digest hash frame)
    (fun _ _ => rfl) (leaves.map Tree.leaf)
  rw [List.map_map] at hmap
  exact hmap

theorem leaves_of_treeOf {leaves : List Input} {tree : Tree Input}
    (htree : treeOf leaves = some tree) : tree.leaves = leaves := by
  have hmap := @reduce_map (Tree Input) Tree.node (List Input) (· ++ ·)
    Tree.leaves (fun _ _ => rfl) (leaves.map Tree.leaf)
  unfold treeOf at htree
  rw [htree] at hmap
  rw [reduceWithin_append hmap, List.map_map, ← List.flatMap_def]
  exact List.flatMap_singleton' leaves

/-- How many leaves there are decides the shape. -/
theorem shape_of_treeOf {leaves : List Input} {tree : Tree Input}
    (htree : treeOf leaves = some tree) :
    reduce Tree.node (List.replicate leaves.length (Tree.leaf ())) =
      some tree.shape := by
  have hmap := @reduce_map (Tree Input) Tree.node (Tree Unit) Tree.node
    Tree.shape (fun _ _ => rfl) (leaves.map Tree.leaf)
  unfold treeOf at htree
  rw [htree, List.map_map] at hmap
  rw [← List.map_const']
  exact hmap

/-- What is hashed for the inner nodes over a list of leaves. -/
def nodeInputs (hash : Input → Digest) (frame : Digest → Digest → Input)
    (leaves : List Input) : List Input :=
  ((treeOf leaves).map (Tree.nodeInputs hash frame)).getD []

/-- What is hashed over a list of leaves. -/
def hashInputs (hash : Input → Digest) (frame : Digest → Digest → Input)
    (leaves : List Input) : List Input :=
  leaves ++ nodeInputs hash frame leaves

/-- Lists of one length, or of which none has a leaf that is hashed as an
inner node over the other. -/
def Separate (hash : Input → Digest) (frame : Digest → Digest → Input)
    (left right : List Input) : Prop :=
  left.length = right.length ∨
    (∀ input ∈ left, input ∉ nodeInputs hash frame right) ∧
      ∀ input ∈ right, input ∉ nodeInputs hash frame left

theorem nodeInputs_of_treeOf {leaves : List Input} {tree : Tree Input}
    (htree : treeOf leaves = some tree) :
    nodeInputs hash frame leaves = tree.nodeInputs hash frame := by
  unfold nodeInputs
  rw [htree]
  rfl

theorem hashedIn_of_treeOf {leaves : List Input} {tree : Tree Input}
    (htree : treeOf leaves = some tree) {inputs : Set Input}
    (hsub : ∀ input ∈ hashInputs hash frame leaves, input ∈ inputs) :
    tree.HashedIn hash frame inputs where
  leaf_mem input hmem := by
    rw [leaves_of_treeOf htree] at hmem
    exact hsub input (List.mem_append_left _ hmem)
  node_mem input hmem := by
    rw [← nodeInputs_of_treeOf htree] at hmem
    exact hsub input (List.mem_append_right _ hmem)

theorem comparable_of_treeOf {left right : List Input}
    {leftTree rightTree : Tree Input}
    (hleft : treeOf left = some leftTree)
    (hright : treeOf right = some rightTree)
    (hseparate : Separate hash frame left right) :
    Tree.Comparable hash frame leftTree rightTree := by
  rcases hseparate with hlength | ⟨hleftLeaves, hrightLeaves⟩
  · have hshape := shape_of_treeOf hleft
    rw [hlength, shape_of_treeOf hright] at hshape
    exact Or.inl (Option.some.inj hshape).symm
  · rw [nodeInputs_of_treeOf hright] at hleftLeaves
    rw [nodeInputs_of_treeOf hleft] at hrightLeaves
    refine Or.inr ⟨?_, ?_⟩
    · rw [leaves_of_treeOf hleft]
      exact hleftLeaves
    · rw [leaves_of_treeOf hright]
      exact hrightLeaves

/-- Lists of leaves with one root are one list, as long as the hash has no
collision on what is hashed over the two. -/
theorem root_injective {left right : List Input}
    (hinj : Set.InjOn hash {input | input ∈ hashInputs hash frame left ++
      hashInputs hash frame right})
    (hseparate : Separate hash frame left right)
    (hframe : ∀ a b c d, frame a b = frame c d → a = c ∧ b = d)
    {top : Digest} (hleft : root hash frame left = some top)
    (hright : root hash frame right = some top) : left = right := by
  rw [root_eq_digest, Option.map_eq_some_iff] at hleft hright
  obtain ⟨leftTree, hleftTree, hleftTop⟩ := hleft
  obtain ⟨rightTree, hrightTree, hrightTop⟩ := hright
  have heq := Tree.digest_injective hinj hframe
    (hashedIn_of_treeOf hleftTree fun _ => List.mem_append_left _)
    (hashedIn_of_treeOf hrightTree fun _ => List.mem_append_right _)
    (comparable_of_treeOf hleftTree hrightTree hseparate)
    (hleftTop.trans hrightTop.symm)
  rw [← leaves_of_treeOf hleftTree, ← leaves_of_treeOf hrightTree, heq]

/-- Some leaves have a root. -/
theorem root_isSome {leaves : List Input} (hne : leaves ≠ []) :
    ∃ top, root hash frame leaves = some top :=
  reduce_isSome fun hnil => hne (List.map_eq_nil_iff.mp hnil)

end Tree

end Merkle
