/-
Finite maps whose entries are listed in no particular order, each key once.
-/
import Mathlib.Data.List.Induction
import Mathlib.Data.List.Nodup

universe u v

structure AssocMap (κ : Type u) (ν : Type v) where
  entries : List (κ × ν)
  nodup : (entries.map Prod.fst).Nodup

namespace AssocMap

variable {κ : Type u} {ν : Type v}

def empty : AssocMap κ ν := ⟨[], List.nodup_nil⟩

/-- The map without the entries whose key is not kept. -/
def filterKeys (map : AssocMap κ ν) (keep : κ → Bool) : AssocMap κ ν where
  entries := map.entries.filter (fun entry => keep entry.1)
  nodup := map.nodup.sublist (List.filter_sublist.map Prod.fst)

variable [DecidableEq κ]

def lookup (key : κ) : List (κ × ν) → Option ν
  | [] => none
  | entry :: rest => if entry.1 = key then some entry.2 else lookup key rest

def get? (map : AssocMap κ ν) (key : κ) : Option ν :=
  lookup key map.entries

/-- An entry with the same key is replaced where it is; a new one comes
last. -/
def insertEntry (key : κ) (value : ν) : List (κ × ν) → List (κ × ν)
  | [] => [(key, value)]
  | entry :: rest =>
      if entry.1 = key then (key, value) :: rest
      else entry :: insertEntry key value rest

theorem map_fst_insertEntry (key : κ) (value : ν) (entries : List (κ × ν)) :
    (insertEntry key value entries).map Prod.fst =
      if key ∈ entries.map Prod.fst then entries.map Prod.fst
      else entries.map Prod.fst ++ [key] := by
  induction entries with
  | nil => rfl
  | cons entry rest ih =>
      unfold insertEntry
      by_cases hkey : entry.1 = key
      · simp [hkey]
      · rw [if_neg hkey, List.map_cons, ih]
        have hcons : key ∈ (entry :: rest).map Prod.fst ↔
            key ∈ rest.map Prod.fst := by
          simp [Ne.symm hkey]
        by_cases hrest : key ∈ rest.map Prod.fst
        · rw [if_pos hrest, if_pos (hcons.mpr hrest)]
          rfl
        · rw [if_neg hrest, if_neg fun hmem => hrest (hcons.mp hmem)]
          rfl

def insert (map : AssocMap κ ν) (key : κ) (value : ν) : AssocMap κ ν where
  entries := insertEntry key value map.entries
  nodup := by
    rw [map_fst_insertEntry]
    split
    · exact map.nodup
    · rename_i hkey
      rw [List.nodup_append]
      refine ⟨map.nodup, List.nodup_singleton key, ?_⟩
      intro a ha b hb heq
      rw [List.mem_singleton.mp hb] at heq
      exact hkey (heq ▸ ha)

/-- The entries inserted one after the other. -/
def ofEntries (entries : List (κ × ν)) : AssocMap κ ν :=
  entries.foldl (fun map entry => map.insert entry.1 entry.2) empty

theorem insertEntry_of_notMem {key : κ} {value : ν}
    {entries : List (κ × ν)} (hkey : key ∉ entries.map Prod.fst) :
    insertEntry key value entries = entries ++ [(key, value)] := by
  induction entries with
  | nil => rfl
  | cons entry rest ih =>
      rw [List.map_cons, List.mem_cons, not_or] at hkey
      unfold insertEntry
      rw [if_neg fun heq => hkey.1 heq.symm, ih hkey.2, List.cons_append]

/-- Entries with different keys are kept as they are. -/
theorem entries_ofEntries {entries : List (κ × ν)}
    (hnodup : (entries.map Prod.fst).Nodup) :
    (ofEntries entries).entries = entries := by
  induction entries using List.reverseRecOn with
  | nil => rfl
  | append_singleton front entry ih =>
      rw [List.map_append, List.nodup_append] at hnodup
      have hfront := ih hnodup.1
      have hkey : entry.1 ∉ (ofEntries front).entries.map Prod.fst := by
        rw [hfront]
        intro hmem
        exact hnodup.2.2 _ hmem _ (List.mem_singleton_self _) rfl
      unfold ofEntries at hfront hkey ⊢
      rw [List.foldl_append, List.foldl_cons, List.foldl_nil]
      change insertEntry entry.1 entry.2 _ = _
      rw [insertEntry_of_notMem hkey, hfront]

@[simp] theorem get?_empty (key : κ) :
    (empty : AssocMap κ ν).get? key = none := rfl

theorem lookup_insertEntry (key other : κ) (value : ν)
    (entries : List (κ × ν)) :
    lookup other (insertEntry key value entries) =
      if key = other then some value else lookup other entries := by
  induction entries with
  | nil => rfl
  | cons entry rest ih =>
      unfold insertEntry
      by_cases hkey : entry.1 = key
      · by_cases hother : key = other <;> simp [lookup, hkey, hother]
      · rw [if_neg hkey, lookup, ih, lookup]
        by_cases hother : key = other
        · have hhead : ¬ entry.1 = other := hother ▸ hkey
          simp [hother, hhead]
        · simp [hother]

@[simp] theorem get?_insert (map : AssocMap κ ν) (key other : κ)
    (value : ν) :
    (map.insert key value).get? other =
      if key = other then some value else map.get? other :=
  lookup_insertEntry key other value map.entries

@[simp] theorem get?_filterKeys (map : AssocMap κ ν) (keep : κ → Bool)
    (key : κ) :
    (map.filterKeys keep).get? key =
      if keep key then map.get? key else none := by
  obtain ⟨entries, hnodup⟩ := map
  simp only [get?, filterKeys]
  clear hnodup
  induction entries with
  | nil => simp [lookup]
  | cons entry rest ih =>
      by_cases hhead : entry.1 = key
      · subst hhead
        by_cases hkeep : keep entry.1
        · simp [hkeep, lookup]
        · simp only [hkeep, Bool.false_eq_true, if_false] at ih ⊢
          rw [List.filter_cons_of_neg (by simpa using hkeep)]
          exact ih
      · rw [List.filter_cons]
        split
        · rw [lookup, if_neg hhead, ih, lookup, if_neg hhead]
        · rw [ih, lookup, if_neg hhead]

theorem mem_entries_iff {map : AssocMap κ ν} {key : κ} {value : ν} :
    (key, value) ∈ map.entries ↔ map.get? key = some value := by
  obtain ⟨entries, hnodup⟩ := map
  simp only [get?]
  induction entries with
  | nil => simp [lookup]
  | cons entry rest ih =>
      rw [List.map_cons, List.nodup_cons] at hnodup
      unfold lookup
      by_cases hhead : entry.1 = key
      · rw [if_pos hhead]
        constructor
        · intro hmem
          rcases List.mem_cons.mp hmem with heq | hrest
          · rw [← heq]
          · have hkey : entry.1 ∈ rest.map Prod.fst :=
              List.mem_map.mpr ⟨(key, value), hrest, hhead.symm⟩
            exact absurd hkey hnodup.1
        · intro hvalue
          cases hvalue
          exact hhead ▸ List.mem_cons_self
      · rw [if_neg hhead, ← ih hnodup.2]
        constructor
        · intro hmem
          rcases List.mem_cons.mp hmem with heq | hrest
          · exact absurd (congrArg Prod.fst heq).symm hhead
          · exact hrest
        · exact List.mem_cons_of_mem _

theorem get?_eq_none {map : AssocMap κ ν} {key : κ}
    (hkey : key ∉ map.entries.map Prod.fst) : map.get? key = none := by
  cases hget : map.get? key with
  | none => rfl
  | some value =>
      exact absurd (List.mem_map.mpr ⟨_, mem_entries_iff.mpr hget, rfl⟩) hkey

theorem get?_eq_of_perm {left right : AssocMap κ ν}
    (hperm : left.entries.Perm right.entries) (key : κ) :
    left.get? key = right.get? key := by
  apply Option.ext
  intro value
  rw [← mem_entries_iff, ← mem_entries_iff, hperm.mem_iff]

end AssocMap
