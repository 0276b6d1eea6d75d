/-
A stable sort by a key keeps the order among the elements of each key.
-/
import Mathlib.Data.List.Forall2
import Mathlib.Data.List.Nodup
import Mathlib.Data.List.Perm.Subperm
import Mathlib.Order.Lattice

universe u v

namespace StableSort

variable {α : Type u} {κ : Type v} [LinearOrder κ] (key : α → κ)

/-- Sort by increasing key; equal keys keep their order. -/
def sortBy (list : List α) : List α :=
  list.mergeSort (fun a b => key a ≤ key b)

theorem sortBy_perm (list : List α) : (sortBy key list).Perm list :=
  List.mergeSort_perm list _

theorem pairwise_sortBy (list : List α) :
    (sortBy key list).Pairwise (fun a b => key a ≤ key b) := by
  have hsorted := @List.pairwise_mergeSort _
    (fun a b => decide (key a ≤ key b))
    (fun a b c hab hbc => by
      simp only [decide_eq_true_eq] at hab hbc ⊢
      exact le_trans hab hbc)
    (fun a b => by simpa using le_total (key a) (key b)) list
  exact hsorted.imp fun hle => of_decide_eq_true hle

/-- What holds of the pairs in order holds of every pair with increasing
keys. -/
theorem of_pairwise_of_lt {relation : α → α → Prop} {list : List α}
    (hsorted : list.Pairwise fun a b => key a ≤ key b)
    (hpairwise : list.Pairwise relation) {a b : α} (ha : a ∈ list)
    (hb : b ∈ list) (hlt : key a < key b) : relation a b := by
  have hforward : list.Pairwise fun a b => key a < key b → relation a b := by
    apply hpairwise.imp
    intro a b hrelated _
    exact hrelated
  have hbackward : list.Pairwise
      (flip fun a b => key a < key b → relation a b) :=
    hsorted.imp fun hle hlt => absurd hlt (not_lt_of_ge hle)
  exact List.Pairwise.forall_of_forall_of_flip
    (fun x _ hself => absurd hself (lt_irrefl _)) hforward hbackward ha hb hlt

/-- Where elements of one key are equal, the order of the list does not
matter. -/
theorem sortBy_eq_of_perm_of_injOn {left right : List α}
    (hperm : left.Perm right)
    (hinj : ∀ a ∈ left, ∀ b ∈ left, key a = key b → a = b) :
    sortBy key left = sortBy key right := by
  have hsorted : (sortBy key left).Perm (sortBy key right) :=
    (sortBy_perm key left).trans (hperm.trans (sortBy_perm key right).symm)
  apply List.Perm.eq_of_pairwise _ (pairwise_sortBy key left)
    (pairwise_sortBy key right) hsorted
  intro a b ha hb hab hba
  have hleft : a ∈ left := (sortBy_perm key left).mem_iff.mp ha
  have hright : b ∈ left :=
    hperm.mem_iff.mpr ((sortBy_perm key right).mem_iff.mp hb)
  exact hinj a hleft b hright (le_antisymm hab hba)

/-- With pairwise different keys the order of the list does not matter. -/
theorem sortBy_eq_of_perm {left right : List α} (hperm : left.Perm right)
    (hnodup : (left.map key).Nodup) : sortBy key left = sortBy key right :=
  sortBy_eq_of_perm_of_injOn key hperm
    fun _ ha _ hb => List.inj_on_of_nodup_map hnodup ha hb

theorem filter_sortBy (list : List α) (k : κ) :
    (sortBy key list).filter (fun a => key a = k) =
      list.filter (fun a => key a = k) := by
  have hequal : (list.filter (fun a => key a = k)).Pairwise
      (fun a b => decide (key a ≤ key b) = true) := by
    apply List.pairwise_of_forall_mem_list
    intro a ha b hb
    have hka : key a = k := by simpa using (List.mem_filter.mp ha).2
    have hkb : key b = k := by simpa using (List.mem_filter.mp hb).2
    simp [hka, hkb]
  have hsub : (list.filter (fun a => key a = k)).Sublist (sortBy key list) := by
    apply List.sublist_mergeSort _ _ hequal List.filter_sublist
    · intro a b c hab hbc
      simp only [decide_eq_true_eq] at hab hbc ⊢
      exact le_trans hab hbc
    · intro a b
      simpa using le_total (key a) (key b)
  have hfiltered := hsub.filter (fun a => decide (key a = k))
  rw [List.filter_filter] at hfiltered
  simp only [Bool.and_self] at hfiltered
  symm
  apply hfiltered.eq_of_length
  exact (((sortBy_perm key list).filter _).length_eq).symm

/-- Elements with the least key come first, up to the others that have that
key and stand before one of them. -/
theorem sortBy_first_iff {low : α → Prop} {bottom : κ}
    (hbottom : ∀ a, bottom ≤ key a) (hlow : ∀ a, low a → key a = bottom)
    (list : List α) :
    (sortBy key list).Pairwise (fun a b => low b → low a) ↔
      list.Pairwise (fun a b => key a = bottom → low b → low a) := by
  have hkeys : ∀ l : List α,
      (l.filter (fun a => key a = bottom)).Pairwise (fun a b => low b → low a) ↔
        l.Pairwise (fun a b => key a = bottom → low b → low a) := by
    intro l
    rw [List.pairwise_filter]
    constructor
    · intro h
      refine h.imp ?_
      intro a b hab ha hb
      exact hab (by simpa using ha) (by simpa using hlow b hb) hb
    · intro h
      refine h.imp ?_
      intro a b hab ha _ hb
      exact hab (by simpa using ha) hb
  rw [← hkeys list, ← filter_sortBy, hkeys]
  constructor
  · intro h
    refine h.imp ?_
    intro a b hab _
    exact hab
  · intro h
    refine ((pairwise_sortBy key list).and h).imp ?_
    rintro a b ⟨hle, hab⟩ hb
    rw [hlow b hb] at hle
    exact hab (le_antisymm hle (hbottom a)) hb

/-- Elements with the least key that come first stay where they are. -/
theorem sortBy_append_of_le {front : List α}
    (hfront : ∀ a ∈ front, ∀ b, key a ≤ key b) (list : List α) :
    sortBy key (front ++ list) = front ++ sortBy key list := by
  induction front with
  | nil => rfl
  | cons a rest ih =>
      obtain ⟨before, after, hcons, hrest, hbefore⟩ :=
        @List.mergeSort_cons _ (fun a b => decide (key a ≤ key b))
          (fun a b c hab hbc => by
            simp only [decide_eq_true_eq] at hab hbc ⊢
            exact le_trans hab hbc)
          (fun a b => by simpa using le_total (key a) (key b)) a
          (rest ++ list)
      have hnil : before = [] := by
        cases before with
        | nil => rfl
        | cons b _ =>
            have hlt := hbefore b List.mem_cons_self
            simp [hfront a List.mem_cons_self b] at hlt
      have hstep := ih fun b hb => hfront b (List.mem_cons_of_mem _ hb)
      rw [hnil] at hcons hrest
      rw [List.cons_append, sortBy, hcons, List.nil_append, List.cons_append]
      congr 1
      rw [← hstep, sortBy, hrest, List.nil_append]

/-- Related lists whose keys agree are sorted alike. -/
theorem sortBy_forall₂ {β : Type u} {keyOf : β → κ} {relation : α → β → Prop}
    {left : List α} {right : List β}
    (hkey : ∀ a b, relation a b → key a = keyOf b)
    (hrelated : List.Forall₂ relation left right) :
    List.Forall₂ relation (sortBy key left) (sortBy keyOf right) := by
  have hpairs : ∃ pairs : List (α × β), left = pairs.map Prod.fst ∧
      right = pairs.map Prod.snd ∧ ∀ p ∈ pairs, relation p.1 p.2 := by
    induction hrelated with
    | nil => exact ⟨[], rfl, rfl, by simp⟩
    | @cons a b _ _ hab _ ih =>
        obtain ⟨pairs, rfl, rfl, hall⟩ := ih
        refine ⟨(a, b) :: pairs, rfl, rfl, ?_⟩
        rintro p hp
        rcases List.mem_cons.mp hp with rfl | hp
        · exact hab
        · exact hall p hp
  obtain ⟨pairs, rfl, rfl, hall⟩ := hpairs
  have hfst : sortBy key (pairs.map Prod.fst) =
      (sortBy (fun p : α × β => key p.1) pairs).map Prod.fst := by
    refine (List.map_mergeSort fun p _ q _ => ?_).symm
    rfl
  have hsnd : sortBy keyOf (pairs.map Prod.snd) =
      (sortBy (fun p : α × β => key p.1) pairs).map Prod.snd := by
    refine (List.map_mergeSort fun p hp q hq => ?_).symm
    simp only [hkey _ _ (hall p hp), hkey _ _ (hall q hq)]
  rw [hfst, hsnd, List.forall₂_map_left_iff, List.forall₂_map_right_iff,
    List.forall₂_same]
  intro p hp
  exact hall p ((sortBy_perm _ pairs).mem_iff.mp hp)

theorem length_le_one_of_reverse_eq {β : Type v} {list : List β}
    (hnodup : list.Nodup) (hreverse : list.reverse = list) :
    list.length ≤ 1 := by
  by_contra hlong
  have hfirst : list[0]? = list[list.length - 1]? := by
    conv_lhs => rw [← hreverse]
    rw [List.getElem?_reverse (by omega), Nat.sub_zero]
  have hindex := (List.getElem?_inj (by omega) hnodup).mp hfirst
  omega

/-- A list that is sorted as its reverse is has no two equal keys. -/
theorem nodup_of_sortBy_reverse {β : Type v} {ident : α → β} {keyOf : β → κ}
    (hkey : ∀ a, key a = keyOf (ident a)) {list : List α}
    (hnodup : (list.map ident).Nodup)
    (hsort : (sortBy key list.reverse).map ident =
      (sortBy key list).map ident) : (list.map key).Nodup := by
  have hfilter : ∀ (l : List α) (k : κ),
      ((sortBy key l).map ident).filter (fun b => keyOf b = k) =
        (l.map ident).filter (fun b => keyOf b = k) := by
    intro l k
    have hcomp : (fun b => decide (keyOf b = k)) ∘ ident =
        fun a => decide (key a = k) := by
      funext a
      simp [hkey]
    rw [List.filter_map, List.filter_map, hcomp, filter_sortBy]
  rw [List.nodup_iff_count_le_one]
  intro k
  have hreverse : ((list.map ident).filter (fun b => keyOf b = k)).reverse =
      (list.map ident).filter (fun b => keyOf b = k) := by
    rw [← List.filter_reverse, ← List.map_reverse, ← hfilter, hsort, hfilter]
  have hlength := length_le_one_of_reverse_eq (hnodup.filter _) hreverse
  rw [List.count, List.countP_map, List.countP_eq_length_filter]
  rw [List.filter_map, List.length_map] at hlength
  refine le_trans (le_of_eq ?_) hlength
  congr 2
  funext a
  rw [Bool.eq_iff_iff]
  simp [hkey]

end StableSort
