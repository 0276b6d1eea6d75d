/-
Hash chains: a running digest extended by one framed item at a time.  The hash
is a parameter; collision freedom is asked only of the inputs that the chains
in question really hash, since no function into a finite digest type is
injective everywhere.
-/
import Mathlib.Data.List.Induction
import Mathlib.Data.Set.Function

namespace HashChain

universe u v w

variable {Input : Type u} {Digest : Type v} {Item : Type w}

/-- On `inputs` the hash has no collision and never returns `avoid`. -/
structure CollisionFreeOn (hash : Input → Digest) (avoid : Digest)
    (inputs : Set Input) : Prop where
  injOn : Set.InjOn hash inputs
  ne_avoid : ∀ input ∈ inputs, hash input ≠ avoid

/-- Extend `digest` by every item in order; `frame` lays the running digest and
the next item out as one hash input. -/
def chain (hash : Input → Digest) (frame : Digest → Item → Input)
    (digest : Digest) (items : List Item) : Digest :=
  items.foldl (fun running item => hash (frame running item)) digest

/-- The hash inputs of `chain`, in the order they are hashed. -/
def chainInputs (hash : Input → Digest) (frame : Digest → Item → Input) :
    Digest → List Item → List Input
  | _, [] => []
  | digest, item :: rest =>
      frame digest item ::
        chainInputs hash frame (hash (frame digest item)) rest

variable {hash : Input → Digest} {frame : Digest → Item → Input}

@[simp] theorem chain_nil (digest : Digest) :
    chain hash frame digest [] = digest := rfl

@[simp] theorem chain_cons (digest : Digest) (item : Item)
    (rest : List Item) :
    chain hash frame digest (item :: rest) =
      chain hash frame (hash (frame digest item)) rest := rfl

theorem chain_append (digest : Digest) (front back : List Item) :
    chain hash frame digest (front ++ back) =
      chain hash frame (chain hash frame digest front) back := by
  simp [chain]

@[simp] theorem chain_concat (digest : Digest) (items : List Item)
    (item : Item) :
    chain hash frame digest (items ++ [item]) =
      hash (frame (chain hash frame digest items) item) := by
  rw [chain_append, chain_cons, chain_nil]

theorem chainInputs_append (digest : Digest) (front back : List Item) :
    chainInputs hash frame digest (front ++ back) =
      chainInputs hash frame digest front ++
        chainInputs hash frame (chain hash frame digest front) back := by
  induction front generalizing digest with
  | nil => rfl
  | cons item rest ih => simp [chainInputs, ih]

theorem chainInputs_concat (digest : Digest) (items : List Item)
    (item : Item) :
    chainInputs hash frame digest (items ++ [item]) =
      chainInputs hash frame digest items ++
        [frame (chain hash frame digest items) item] :=
  chainInputs_append digest items [item]

/-- Two chains from the same start that end in the same digest extended the
same items, provided the hash is collision-free on what they hash and never
returns the start digest.  The induction runs from the last item backwards:
the last frame gives the last item and the digest before it. -/
theorem chain_injective {start : Digest} {inputs : Set Input}
    (hfree : CollisionFreeOn hash start inputs)
    (hframe : ∀ digest digest' item item',
      frame digest item = frame digest' item' →
        digest = digest' ∧ item = item')
    {left right : List Item}
    (hleft : ∀ input ∈ chainInputs hash frame start left, input ∈ inputs)
    (hright : ∀ input ∈ chainInputs hash frame start right, input ∈ inputs)
    (heq : chain hash frame start left = chain hash frame start right) :
    left = right := by
  induction left using List.reverseRecOn generalizing right with
  | nil =>
      cases right using List.reverseRecOn with
      | nil => rfl
      | append_singleton init last =>
          rw [chainInputs_concat] at hright
          rw [chain_nil, chain_concat] at heq
          exact absurd heq.symm
            (hfree.ne_avoid _ (hright _ (by simp)))
  | append_singleton init last ih =>
      rw [chainInputs_concat] at hleft
      cases right using List.reverseRecOn with
      | nil =>
          rw [chain_nil, chain_concat] at heq
          exact absurd heq (hfree.ne_avoid _ (hleft _ (by simp)))
      | append_singleton init' last' =>
          rw [chainInputs_concat] at hright
          rw [chain_concat, chain_concat] at heq
          have hinput := hfree.injOn (hleft _ (by simp))
            (hright _ (by simp)) heq
          obtain ⟨hdigest, hlast⟩ := hframe _ _ _ _ hinput
          have hinit : init = init' := by
            apply ih
            · exact fun input hmem =>
                hleft input (List.mem_append_left _ hmem)
            · exact fun input hmem =>
                hright input (List.mem_append_left _ hmem)
            · exact hdigest
          rw [hinit, hlast]

end HashChain
