/-
Documents that differ only in the order in which their tables list the keys.
What is read under a key is the same up to such an order again.
-/
import Kettle.Host.Machine
import Mathlib.Data.List.Forall2
import Mathlib.Logic.Relation

namespace Kettle

namespace Toml

/-- One table of a document is listed in another order.  The keys of a table
are different. -/
inductive Permuted : Toml → Toml → Prop
  | table {entries entries' : List (String × Toml)} :
      (entries.map Prod.fst).Nodup → entries.Perm entries' →
      Permuted (table entries) (table entries')
  | entry {front back : List (String × Toml)} {key : String}
      {value value' : Toml} : Permuted value value' →
      Permuted (table (front ++ (key, value) :: back))
        (table (front ++ (key, value') :: back))
  | element {front back : List Toml} {value value' : Toml} :
      Permuted value value' →
      Permuted (array (front ++ value :: back))
        (array (front ++ value' :: back))

theorem Permuted.symm {left right : Toml} (hperm : Permuted left right) :
    Permuted right left := by
  induction hperm with
  | table hnodup hentries =>
      exact .table ((hentries.map Prod.fst).nodup_iff.mp hnodup)
        hentries.symm
  | entry _ ih => exact .entry ih
  | element _ ih => exact .element ih

/-- The tables of a document are listed in other orders. -/
def Reordered : Toml → Toml → Prop := Relation.ReflTransGen Permuted

theorem Reordered.symm {left right : Toml} (hre : Reordered left right) :
    Reordered right left := by
  induction hre with
  | refl => exact .refl
  | tail _ hstep ih => exact .head hstep.symm ih

theorem Permuted.reordered {left right : Toml}
    (hperm : Permuted left right) : Reordered left right :=
  .single hperm

theorem Reordered.asStr {left right : Toml} (hre : Reordered left right) :
    left.asStr = right.asStr := by
  induction hre with
  | refl => rfl
  | tail _ hstep ih =>
      rw [ih]
      cases hstep <;> rfl

/-- An entry of the one list has a counterpart in the other. -/
def Covers (left right : List (String × Toml)) : Prop :=
  ∀ entry ∈ left, ∃ entry' ∈ right,
    entry.1 = entry'.1 ∧ Reordered entry.2 entry'.2

theorem Covers.refl (entries : List (String × Toml)) :
    Covers entries entries :=
  fun entry hentry => ⟨entry, hentry, rfl, .refl⟩

theorem Covers.trans {left mid right : List (String × Toml)}
    (hfirst : Covers left mid) (hsecond : Covers mid right) :
    Covers left right := by
  intro entry hentry
  obtain ⟨entry', hentry', hkey, hre⟩ := hfirst entry hentry
  obtain ⟨entry'', hentry'', hkey', hre'⟩ := hsecond entry' hentry'
  exact ⟨entry'', hentry'', hkey.trans hkey', hre.trans hre'⟩

theorem Permuted.asTable {left right : Toml} (hperm : Permuted left right) :
    Option.Rel Covers left.asTable right.asTable := by
  cases hperm with
  | table _ hentries =>
      refine .some fun entry hentry => ?_
      exact ⟨entry, hentries.mem_iff.mp hentry, rfl, .refl⟩
  | @entry front back key value value' hvalue =>
      refine .some fun entry hentry => ?_
      rcases List.mem_append.mp hentry with hfront | hback
      · exact ⟨entry, List.mem_append_left _ hfront, rfl, .refl⟩
      · rcases List.mem_cons.mp hback with rfl | hback
        · exact ⟨(key, value'),
            List.mem_append_right _ List.mem_cons_self, rfl,
            hvalue.reordered⟩
        · exact ⟨entry,
            List.mem_append_right _ (List.mem_cons_of_mem _ hback), rfl,
            .refl⟩
  | element _ => exact .none

theorem optionRel_trans {α : Type} {R : α → α → Prop}
    (htrans : ∀ a b c, R a b → R b c → R a c) {x y z : Option α}
    (hfirst : Option.Rel R x y) (hsecond : Option.Rel R y z) :
    Option.Rel R x z := by
  cases hfirst with
  | none => exact hsecond
  | some hab =>
      cases hsecond with
      | some hbc => exact .some (htrans _ _ _ hab hbc)

theorem optionRel_cases {α β : Type} {R : α → β → Prop} {x : Option α}
    {y : Option β} (hrel : Option.Rel R x y) :
    x = none ∧ y = none ∨ ∃ a b, x = some a ∧ y = some b ∧ R a b := by
  cases hrel with
  | none => exact Or.inl ⟨rfl, rfl⟩
  | some hab => exact Or.inr ⟨_, _, rfl, rfl, hab⟩

theorem exists_of_optionRel {α β : Type} {R : α → β → Prop} {x : Option α}
    {y : Option β} {a : α} (hrel : Option.Rel R x y) (hx : x = some a) :
    ∃ b, y = some b ∧ R a b := by
  cases hrel with
  | none => cases hx
  | some hab =>
      cases hx
      exact ⟨_, rfl, hab⟩

/-- What is read of a document, seen one permutation at a time. -/
theorem Reordered.optionRel {α : Type} {R : α → α → Prop}
    {f : Toml → Option α} (hrefl : ∀ a, R a a)
    (htrans : ∀ a b c, R a b → R b c → R a c)
    (hstep : ∀ {left right}, Permuted left right →
      Option.Rel R (f left) (f right))
    {left right : Toml} (hre : Reordered left right) :
    Option.Rel R (f left) (f right) := by
  induction hre with
  | refl =>
      cases f left with
      | none => exact .none
      | some a => exact .some (hrefl a)
  | tail _ hperm ih => exact optionRel_trans htrans ih (hstep hperm)

theorem Reordered.asTable {left right : Toml} (hre : Reordered left right) :
    Option.Rel Covers left.asTable right.asTable :=
  hre.optionRel Covers.refl (fun _ _ _ => Covers.trans) Permuted.asTable

theorem Permuted.asArray {left right : Toml} (hperm : Permuted left right) :
    Option.Rel (List.Forall₂ Reordered) left.asArray right.asArray := by
  cases hperm with
  | table _ _ => exact .none
  | entry _ => exact .none
  | element hvalue =>
      refine .some (List.rel_append ?_ (.cons hvalue.reordered ?_))
      · exact List.forall₂_same.mpr fun _ _ => .refl
      · exact List.forall₂_same.mpr fun _ _ => .refl

theorem forall₂_reordered_trans {left mid right : List Toml}
    (hfirst : List.Forall₂ Reordered left mid)
    (hsecond : List.Forall₂ Reordered mid right) :
    List.Forall₂ Reordered left right := by
  induction hfirst generalizing right with
  | nil => exact hsecond
  | cons hhead _ ih =>
      cases hsecond with
      | cons hhead' hrest => exact .cons (hhead.trans hhead') (ih hrest)

theorem Reordered.asArray {left right : Toml} (hre : Reordered left right) :
    Option.Rel (List.Forall₂ Reordered) left.asArray right.asArray :=
  hre.optionRel (fun _ => List.forall₂_same.mpr fun _ _ => .refl)
    (fun _ _ _ => forall₂_reordered_trans) Permuted.asArray

/-- With different keys, the value under a key does not depend on the order. -/
theorem getEntry_eq_some_iff {entries : List (String × Toml)}
    (hnodup : (entries.map Prod.fst).Nodup) {key : String} {value : Toml} :
    getEntry key entries = some value ↔ (key, value) ∈ entries := by
  induction entries with
  | nil => simp [getEntry]
  | cons entry rest ih =>
      rw [List.map_cons, List.nodup_cons] at hnodup
      unfold getEntry at ih ⊢
      by_cases hkey : entry.1 = key
      · rw [List.find?_cons_of_pos (by simpa using hkey), Option.map_some,
          Option.some.injEq, List.mem_cons]
        constructor
        · rintro rfl
          exact Or.inl (Prod.ext hkey.symm rfl)
        · rintro (rfl | hrest)
          · rfl
          · exact absurd (List.mem_map.mpr ⟨_, hrest, hkey.symm⟩) hnodup.1
      · rw [List.find?_cons_of_neg (by simpa using hkey), ih hnodup.2,
          List.mem_cons]
        constructor
        · exact Or.inr
        · rintro (rfl | hrest)
          · exact absurd rfl hkey
          · exact hrest

theorem getEntry_append (key : String) (front back : List (String × Toml)) :
    getEntry key (front ++ back) =
      (getEntry key front).or (getEntry key back) := by
  unfold getEntry
  rw [List.find?_append]
  cases front.find? fun entry => entry.1 = key <;> rfl

theorem Permuted.get? {left right : Toml} (hperm : Permuted left right)
    (key : String) : Option.Rel Reordered (left.get? key) (right.get? key) := by
  have hsame : ∀ x : Option Toml, Option.Rel Reordered x x := by
    intro x
    cases x with
    | none => exact .none
    | some value => exact .some .refl
  cases hperm with
  | @table entries entries' hnodup hentries =>
      have hvalue : getEntry key entries = getEntry key entries' := by
        apply Option.ext
        intro value
        rw [getEntry_eq_some_iff hnodup, getEntry_eq_some_iff
          ((hentries.map Prod.fst).nodup_iff.mp hnodup),
          hentries.mem_iff]
      change Option.Rel Reordered (getEntry key entries) (getEntry key entries')
      rw [hvalue]
      exact hsame _
  | @entry front back other value value' hvalue =>
      change Option.Rel Reordered (getEntry key (front ++ (other, value) :: back))
        (getEntry key (front ++ (other, value') :: back))
      rw [getEntry_append, getEntry_append]
      cases getEntry key front with
      | some found => exact .some .refl
      | none =>
          simp only [Option.none_or, getEntry]
          by_cases hkey : other = key
          · rw [List.find?_cons_of_pos (by simpa using hkey),
              List.find?_cons_of_pos (by simpa using hkey)]
            exact .some hvalue.reordered
          · rw [List.find?_cons_of_neg (by simpa using hkey),
              List.find?_cons_of_neg (by simpa using hkey)]
            exact hsame _
  | element _ => exact .none

theorem Reordered.get? {left right : Toml} (hre : Reordered left right)
    (key : String) : Option.Rel Reordered (left.get? key) (right.get? key) :=
  hre.optionRel (f := fun doc => doc.get? key) (fun _ => .refl)
    (fun _ _ _ hfirst hsecond => hfirst.trans hsecond)
    (fun hperm => hperm.get? key)

theorem Reordered.getStr? {left right : Toml} (hre : Reordered left right)
    (key : String) : left.getStr? key = right.getStr? key := by
  unfold Toml.getStr?
  rcases optionRel_cases (hre.get? key) with
    ⟨hleft, hright⟩ | ⟨value, value', hleft, hright, hvalue⟩
  · rw [hleft, hright]
  · rw [hleft, hright]
    exact hvalue.asStr

/-- A value that is there has a counterpart. -/
theorem Reordered.getTable?_some {left right : Toml}
    (hre : Reordered left right) {key : String}
    {entries : List (String × Toml)}
    (hentries : left.getTable? key = some entries) :
    ∃ entries', right.getTable? key = some entries' ∧
      Covers entries entries' := by
  obtain ⟨value, hvalue, htable⟩ := Option.bind_eq_some_iff.mp hentries
  obtain ⟨value', hvalue', hsame⟩ := exists_of_optionRel (hre.get? key) hvalue
  obtain ⟨entries', htable', hcovers⟩ :=
    exists_of_optionRel hsame.asTable htable
  exact ⟨entries', Option.bind_eq_some_iff.mpr ⟨value', hvalue', htable'⟩,
    hcovers⟩

end Toml

end Kettle
