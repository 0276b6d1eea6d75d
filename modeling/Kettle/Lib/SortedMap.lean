/-
Finite maps with sorted keys, kept as their strictly increasing entry list, so
that iterating over the list is iterating in key order.
-/
import Mathlib.Data.List.Basic
import Mathlib.Data.List.Perm.Subperm
import Mathlib.Order.Lattice

universe u v

/-- A map whose entries are listed by strictly increasing key. -/
structure SortedMap (κ : Type u) (ν : Type v) [LinearOrder κ] where
  entries : List (κ × ν)
  sorted : entries.Pairwise (fun left right => left.1 < right.1)

namespace SortedMap

variable {κ : Type u} {ν : Type v} [LinearOrder κ]

def empty : SortedMap κ ν := ⟨[], List.Pairwise.nil⟩

def size (map : SortedMap κ ν) : Nat := map.entries.length

/-- The value of the first entry with the given key. -/
def lookup (key : κ) : List (κ × ν) → Option ν
  | [] => none
  | entry :: rest => if entry.1 = key then some entry.2 else lookup key rest

def get? (map : SortedMap κ ν) (key : κ) : Option ν :=
  lookup key map.entries

/-- Insert in key order; an entry with the same key is replaced. -/
def insertEntry (key : κ) (value : ν) : List (κ × ν) → List (κ × ν)
  | [] => [(key, value)]
  | entry :: rest =>
      if key < entry.1 then (key, value) :: entry :: rest
      else if key = entry.1 then (key, value) :: rest
      else entry :: insertEntry key value rest

theorem mem_insertEntry {key : κ} {value : ν} {entries : List (κ × ν)}
    {entry : κ × ν} (hmem : entry ∈ insertEntry key value entries) :
    entry = (key, value) ∨ entry ∈ entries := by
  induction entries with
  | nil => exact Or.inl (List.mem_singleton.mp hmem)
  | cons head rest ih =>
      unfold insertEntry at hmem
      split at hmem
      · exact List.mem_cons.mp hmem
      · split at hmem
        · rcases List.mem_cons.mp hmem with hnew | hold
          · exact Or.inl hnew
          · exact Or.inr (List.mem_cons_of_mem _ hold)
        · rcases List.mem_cons.mp hmem with hhead | hrest
          · exact Or.inr (hhead ▸ List.mem_cons_self)
          · rcases ih hrest with hnew | hold
            · exact Or.inl hnew
            · exact Or.inr (List.mem_cons_of_mem _ hold)

theorem insertEntry_sorted (key : κ) (value : ν) {entries : List (κ × ν)}
    (hsorted : entries.Pairwise (fun left right => left.1 < right.1)) :
    (insertEntry key value entries).Pairwise
      (fun left right => left.1 < right.1) := by
  induction entries with
  | nil => exact List.pairwise_singleton _ _
  | cons head rest ih =>
      obtain ⟨hhead, hrest⟩ := List.pairwise_cons.mp hsorted
      unfold insertEntry
      split
      · rename_i hlt
        refine List.pairwise_cons.mpr ⟨?_, hsorted⟩
        intro entry hentry
        rcases List.mem_cons.mp hentry with heq | hmem
        · rw [heq]
          exact hlt
        · exact hlt.trans (hhead entry hmem)
      · split
        · rename_i heq
          refine List.pairwise_cons.mpr ⟨?_, hrest⟩
          intro entry hentry
          exact heq ▸ hhead entry hentry
        · rename_i hnlt hne
          refine List.pairwise_cons.mpr ⟨?_, ih hrest⟩
          intro entry hentry
          rcases mem_insertEntry hentry with hnew | hold
          · rw [hnew]
            exact lt_of_le_of_ne (not_lt.mp hnlt) (Ne.symm hne)
          · exact hhead entry hold

theorem length_insertEntry_le (key : κ) (value : ν)
    (entries : List (κ × ν)) :
    (insertEntry key value entries).length ≤ entries.length + 1 := by
  induction entries with
  | nil => exact Nat.le_refl _
  | cons head rest ih =>
      unfold insertEntry
      split
      · exact Nat.le_refl _
      · split
        · exact Nat.le_succ _
        · simpa using ih

def insert (map : SortedMap κ ν) (key : κ) (value : ν) : SortedMap κ ν :=
  ⟨insertEntry key value map.entries,
    insertEntry_sorted key value map.sorted⟩

theorem size_insert_le (map : SortedMap κ ν) (key : κ) (value : ν) :
    (map.insert key value).size ≤ map.size + 1 :=
  length_insertEntry_le key value map.entries

theorem size_foldl_insert_le (entries : List (κ × ν)) (map : SortedMap κ ν) :
    (entries.foldl (fun map entry => map.insert entry.1 entry.2) map).size ≤
      map.size + entries.length := by
  induction entries generalizing map with
  | nil => exact Nat.le_refl _
  | cons entry rest ih =>
      have hinsert := map.size_insert_le entry.1 entry.2
      have hrest := ih (map.insert entry.1 entry.2)
      rw [List.foldl_cons, List.length_cons]
      omega

@[simp] theorem get?_empty (key : κ) :
    (empty : SortedMap κ ν).get? key = none := rfl

theorem lookup_insertEntry (key other : κ) (value : ν)
    (entries : List (κ × ν)) :
    lookup other (insertEntry key value entries) =
      if key = other then some value else lookup other entries := by
  induction entries with
  | nil => rfl
  | cons head rest ih =>
      unfold insertEntry
      by_cases hlt : key < head.1
      · rw [if_pos hlt]
        rfl
      · rw [if_neg hlt]
        by_cases heq : key = head.1
        · rw [if_pos heq]
          by_cases hother : key = other
          · simp [lookup, hother]
          · have hhead : ¬ head.1 = other := heq ▸ hother
            simp [lookup, hother, hhead]
        · rw [if_neg heq, lookup, ih, lookup]
          by_cases hother : key = other
          · have hhead : ¬ head.1 = other :=
              fun h => heq (hother.trans h.symm)
            simp [hother, hhead]
          · simp [hother]

@[simp] theorem get?_insert (map : SortedMap κ ν) (key other : κ)
    (value : ν) :
    (map.insert key value).get? other =
      if key = other then some value else map.get? other :=
  lookup_insertEntry key other value map.entries

/-- The entries around a key: those below it, its own, those above it. -/
theorem entries_eq_of_get?_eq_some {map : SortedMap κ ν} {key : κ}
    {value : ν} (hget : map.get? key = some value) :
    ∃ lower upper, map.entries = lower ++ (key, value) :: upper ∧
      (∀ entry ∈ lower, entry.1 < key) ∧ ∀ entry ∈ upper, key < entry.1 := by
  obtain ⟨entries, hsorted⟩ := map
  simp only [get?] at hget ⊢
  induction entries with
  | nil => cases hget
  | cons head rest ih =>
      obtain ⟨hhead, hrest⟩ := List.pairwise_cons.mp hsorted
      unfold lookup at hget
      split at hget
      · rename_i hkey
        subst hkey
        cases hget
        exact ⟨[], rest, rfl, by simp, hhead⟩
      · obtain ⟨lower, upper, hentries, hlower, hupper⟩ := ih hrest hget
        have hlt : head.1 < key := by
          apply hhead (key, value)
          rw [hentries]
          simp
        refine ⟨head :: lower, upper, by rw [hentries, List.cons_append], ?_,
          hupper⟩
        intro entry hentry
        rcases List.mem_cons.mp hentry with heq | hmem
        · exact heq ▸ hlt
        · exact hlower entry hmem

theorem mem_entries_iff {map : SortedMap κ ν} {key : κ} {value : ν} :
    (key, value) ∈ map.entries ↔ map.get? key = some value := by
  constructor
  · intro hmem
    obtain ⟨entries, hsorted⟩ := map
    simp only [get?] at hmem ⊢
    induction entries with
    | nil => cases hmem
    | cons head rest ih =>
        obtain ⟨hhead, hrest⟩ := List.pairwise_cons.mp hsorted
        rcases List.mem_cons.mp hmem with heq | hin
        · rw [← heq]
          simp [lookup]
        · have hne : ¬ head.1 = key := (hhead _ hin).ne
          rw [lookup, if_neg hne]
          exact ih hrest hin
  · intro hget
    obtain ⟨lower, upper, hentries, -, -⟩ := entries_eq_of_get?_eq_some hget
    rw [hentries]
    simp

/-- Different keys of a map count towards its size. -/
theorem length_le_size {map : SortedMap κ ν} {keys : List κ}
    (hnodup : keys.Nodup) (hkeys : ∀ key ∈ keys, (map.get? key).isSome) :
    keys.length ≤ map.size := by
  have hsubset : keys ⊆ map.entries.map Prod.fst := by
    intro key hkey
    obtain ⟨value, hvalue⟩ := Option.isSome_iff_exists.mp (hkeys key hkey)
    exact List.mem_map.mpr ⟨(key, value), mem_entries_iff.mpr hvalue, rfl⟩
  have hle := (List.subperm_of_subset hnodup hsubset).length_le
  rwa [List.length_map] at hle

end SortedMap
