/-
Lists of PCR selections.  As a bag of slots, each with its bank, subtraction
is the difference of bags; as the structure of a command, a list is read back
as it was written.
-/
import Kettle.Lib.AssocMap
import Kettle.Vtpm.PcrSlots
import Mathlib.Data.Multiset.AddSub

namespace Kettle

namespace Vtpm

structure PcrSelectionList where
  items : List PcrSelection
deriving DecidableEq

/-- `TPML_PCR_SELECTION`. -/
structure TpmlPcrSelection where
  count : UInt32
  pcrSelections : List.Vector TpmsPcrSelection 16
deriving DecidableEq

/-- The selections that the count covers. -/
def TpmlPcrSelection.listed (tpml : TpmlPcrSelection) :
    List TpmsPcrSelection :=
  tpml.pcrSelections.toList.take tpml.count.toNat

/-- A slot of a bank. -/
structure BankSlot where
  hashingAlgorithm : HashingAlgorithm
  slot : PcrSlot
deriving DecidableEq

/-- `TPMS_PCR_SELECTION::default()`. -/
def TpmsPcrSelection.default : TpmsPcrSelection :=
  ⟨0, 0, Bytes.zeroPadVec 4 []⟩

namespace PcrSelectionList

def maxSize : Nat := 16

def isEmpty (list : PcrSelectionList) : Bool :=
  list.items.isEmpty

/-- The slot is deselected in the first selection of the bank that has it. -/
def removeSlot (bankSlot : BankSlot) :
    List PcrSelection → Except Error (List PcrSelection)
  | [] => .error (.wrapper .invalidParam)
  | item :: rest =>
      if item.hashingAlgorithm = bankSlot.hashingAlgorithm &&
          item.isSelected bankSlot.slot then do
        let item ← item.deselectExact bankSlot.slot
        .ok (item :: rest)
      else do
        let rest ← removeSlot bankSlot rest
        .ok (item :: rest)

def removeSelection (items : List PcrSelection) (selection : PcrSelection) :
    Except Error (List PcrSelection) :=
  selection.selected.foldlM
    (fun items slot => removeSlot ⟨selection.hashingAlgorithm, slot⟩ items)
    items

/-- After an error the list is dropped. -/
def subtract (list other : PcrSelectionList) :
    Except Error PcrSelectionList :=
  if list = other then .ok ⟨[]⟩
  else if list.isEmpty then .error (.wrapper .invalidParam)
  else do
    let items ← other.items.foldlM removeSelection list.items
    .ok ⟨items.filter fun item => !item.isEmpty⟩

/-- The selections are written one after the other over default ones; a
seventeenth lies outside the array and panics. -/
def toTpml (list : PcrSelectionList) : Option TpmlPcrSelection :=
  if hsize : list.items.length ≤ maxSize then
    some {
      count := .ofNat list.items.length
      pcrSelections :=
        ⟨list.items.map PcrSelection.toTpms ++
            List.replicate (maxSize - list.items.length)
              TpmsPcrSelection.default,
          by rw [List.length_append, List.length_map, List.length_replicate,
            Nat.add_sub_cancel' hsize, maxSize]⟩ }
  else none

def ofTpml (tpml : TpmlPcrSelection) : Except Error PcrSelectionList :=
  if maxSize < tpml.count.toNat then .error (.wrapper .invalidParam)
  else do
    let items ← (tpml.pcrSelections.toList.take tpml.count.toNat).mapM
      PcrSelection.ofTpms
    .ok ⟨items⟩

/-- The slots of a list, in the order of its selections. -/
def bankSlots (list : PcrSelectionList) : List BankSlot :=
  list.items.flatMap fun item =>
    item.selected.map (BankSlot.mk item.hashingAlgorithm)

end PcrSelectionList

/-- The map of the builder, in the order in which it iterates. -/
structure PcrSelectionListBuilder where
  sizeOfSelect : Option PcrSelectSize
  items : AssocMap HashingAlgorithm (List PcrSlot)

namespace PcrSelectionListBuilder

def new : PcrSelectionListBuilder := ⟨none, .empty⟩

def withSizeOfSelect (builder : PcrSelectionListBuilder)
    (size : PcrSelectSize) : PcrSelectionListBuilder :=
  { builder with sizeOfSelect := some size }

/-- The slots are added to those that the bank already has. -/
def withSelection (builder : PcrSelectionListBuilder)
    (hashingAlgorithm : HashingAlgorithm) (slots : List PcrSlot) :
    PcrSelectionListBuilder :=
  { builder with
    items := builder.items.insert hashingAlgorithm
      ((builder.items.get? hashingAlgorithm).getD [] ++ slots) }

def build (builder : PcrSelectionListBuilder) :
    Except Error PcrSelectionList := do
  let items ← builder.items.entries.mapM fun entry =>
    PcrSelection.create entry.1
      (builder.sizeOfSelect.getD PcrSelectSize.default) entry.2
  .ok ⟨items⟩

end PcrSelectionListBuilder

section Slots

theorem PcrSlotCollection.contains_flag {collection : PcrSlotCollection}
    {slot : PcrSlot} :
    collection.contains (BitFlags.flag slot) = true ↔
      slot ∈ collection.slots := by
  rw [contains, decide_eq_true_iff, BitFlags.and_flag_eq_flag_iff, slots,
    BitFlags.mem_positions]

theorem PcrSlotCollection.slots_remove_flag
    (collection : PcrSlotCollection) (slot : PcrSlot) :
    (collection.remove (BitFlags.flag slot)).slots =
      collection.slots.erase slot :=
  BitFlags.positions_and_not_flag collection.pcrSlots slot

theorem PcrSlotCollection.isEmpty_iff {collection : PcrSlotCollection} :
    collection.isEmpty = true ↔ collection.slots = [] := by
  rw [isEmpty, decide_eq_true_iff, slots, BitFlags.positions_eq_nil_iff]
  rfl

theorem PcrSelection.isSelected_iff {selection : PcrSelection}
    {slot : PcrSlot} :
    selection.isSelected slot = true ↔ slot ∈ selection.selected :=
  PcrSlotCollection.contains_flag

theorem PcrSelection.isEmpty_iff {selection : PcrSelection} :
    selection.isEmpty = true ↔ selection.selected = [] :=
  PcrSlotCollection.isEmpty_iff

theorem PcrSelection.nodup_selected (selection : PcrSelection) :
    selection.selected.Nodup :=
  BitFlags.nodup_positions _

theorem PcrSelection.deselectExact_eq_ok {selection : PcrSelection}
    {slot : PcrSlot} (hselected : selection.isSelected slot = true) :
    selection.deselectExact slot = .ok (selection.deselect slot) := by
  have hexact : selection.pcrSlotCollection.removeExact slot =
      .ok (selection.pcrSlotCollection.remove (BitFlags.flag slot)) :=
    if_pos hselected
  unfold deselectExact
  rw [hexact]
  rfl

theorem PcrSelection.selected_deselect (selection : PcrSelection)
    (slot : PcrSlot) :
    (selection.deselect slot).selected = selection.selected.erase slot :=
  selection.pcrSlotCollection.slots_remove_flag slot

/-- A selection that is created selects the slots that it is given. -/
theorem PcrSelection.create_spec {hashingAlgorithm : HashingAlgorithm}
    {size : PcrSelectSize} {slots : List PcrSlot} {selection : PcrSelection}
    (hok : PcrSelection.create hashingAlgorithm size slots = .ok selection) :
    selection.hashingAlgorithm = hashingAlgorithm ∧
      selection.pcrSlotCollection.pcrSelectSize = size ∧
      ∀ slot, slot ∈ selection.selected ↔ slot ∈ slots := by
  obtain ⟨collection, hcollection, hselection⟩ := bind_eq_ok_iff.mp hok
  cases hselection
  unfold PcrSlotCollection.create at hcollection
  rw [PcrSelectSize.toU8_eq_ok, ok_bind] at hcollection
  split at hcollection
  · cases hcollection
    refine ⟨rfl, rfl, fun slot => ?_⟩
    simp [selected, PcrSlotCollection.slots]
  · cases hcollection

end Slots

section Merge

variable {left right merged : PcrSelection}

/-- Selections of one bank, with selects of one size. -/
structure PcrSelection.SameShape (left right : PcrSelection) : Prop where
  hashingAlgorithm : left.hashingAlgorithm = right.hashingAlgorithm
  pcrSelectSize : left.pcrSlotCollection.pcrSelectSize =
    right.pcrSlotCollection.pcrSelectSize

theorem PcrSlotCollection.disjoint_iff {left right : PcrSlotCollection} :
    left.pcrSlots &&& right.pcrSlots = 0 ↔ left.slots.Disjoint right.slots := by
  refine BitFlags.and_eq_zero_iff.trans ?_
  simp [List.Disjoint, slots]

/-- Two selections are merged if they are of one shape and have no slot in
common. -/
theorem PcrSelection.mergeExact_eq_ok_iff :
    left.mergeExact right = .ok merged ↔
      left.SameShape right ∧ left.SameShape merged ∧
        left.selected.Disjoint right.selected ∧
        merged.pcrSlotCollection.pcrSlots =
          left.pcrSlotCollection.pcrSlots |||
            right.pcrSlotCollection.pcrSlots := by
  obtain ⟨bank, ⟨size, bits, hfits⟩⟩ := left
  obtain ⟨bank', ⟨size', bits', hfits'⟩⟩ := right
  obtain ⟨bank'', ⟨size'', bits'', hfits''⟩⟩ := merged
  rw [selected, selected, ← PcrSlotCollection.disjoint_iff]
  unfold mergeExact PcrSlotCollection.mergeExact
  dsimp only
  constructor
  · intro hok
    split at hok
    · cases hok
    · rename_i hbank
      split at hok
      · rename_i hsize
        split at hok
        · cases hok
        · rename_i hcommon
          cases hok
          exact ⟨⟨not_not.mp hbank, hsize⟩, ⟨rfl, rfl⟩, not_not.mp hcommon,
            rfl⟩
      · cases hok
  · rintro ⟨⟨hbank, hsize⟩, ⟨hbank', hsize'⟩, hcommon, hbits⟩
    cases hbank
    cases hbank'
    cases hsize
    cases hsize'
    cases hbits
    rw [if_neg (not_not_intro rfl), dif_pos rfl,
      if_neg (not_not_intro hcommon)]
    rfl

theorem PcrSelection.mem_selected_of_mergeExact
    (hmerged : left.mergeExact right = .ok merged) (slot : PcrSlot) :
    slot ∈ merged.selected ↔ slot ∈ left.selected ∨ slot ∈ right.selected := by
  obtain ⟨-, -, -, hbits⟩ := mergeExact_eq_ok_iff.mp hmerged
  simp [selected, PcrSlotCollection.slots, hbits]

/-- What was merged can be subtracted again. -/
theorem PcrSelection.subtractExact_of_mergeExact
    (hmerged : left.mergeExact right = .ok merged) :
    merged.subtractExact right = .ok left := by
  obtain ⟨hshape, hshape', hcommon, hbits⟩ := mergeExact_eq_ok_iff.mp hmerged
  have hcontains : merged.pcrSlotCollection.contains
      right.pcrSlotCollection.pcrSlots = true := by
    rw [PcrSlotCollection.contains, decide_eq_true_iff,
      BitFlags.and_eq_right_iff, hbits]
    intro slot hslot
    rw [BitFlags.isSet_or, hslot, Bool.or_true]
  have hremoved : merged.pcrSlotCollection.pcrSlots &&&
      ~~~right.pcrSlotCollection.pcrSlots =
        left.pcrSlotCollection.pcrSlots := by
    rw [hbits]
    refine BitFlags.ext_isSet fun slot => ?_
    have hother := BitFlags.and_eq_zero_iff.mp
      (PcrSlotCollection.disjoint_iff.mpr hcommon) slot
    rw [BitFlags.isSet_and, BitFlags.isSet_or, BitFlags.isSet_not]
    cases hleft : BitFlags.isSet left.pcrSlotCollection.pcrSlots slot with
    | false => rw [Bool.false_or, Bool.and_not_self]
    | true => rw [hother hleft, Bool.true_or, Bool.not_false, Bool.and_true]
  unfold subtractExact PcrSlotCollection.subtractExact
  rw [if_neg (not_not_intro (hshape'.hashingAlgorithm.symm.trans
      hshape.hashingAlgorithm)),
    if_neg (not_not_intro (hshape'.pcrSelectSize.symm.trans
      hshape.pcrSelectSize)), if_pos hcontains]
  obtain ⟨bank, ⟨size, bits, hfits⟩⟩ := left
  obtain ⟨bank'', ⟨size'', bits'', hfits''⟩⟩ := merged
  cases hshape'.hashingAlgorithm
  cases hshape'.pcrSelectSize
  cases hremoved
  rfl

end Merge

/-- All selections that are built have the size that was asked for. -/
theorem PcrSelectionListBuilder.pcrSelectSize_of_build
    {builder : PcrSelectionListBuilder} {size : PcrSelectSize}
    {list : PcrSelectionList}
    (hok : (builder.withSizeOfSelect size).build = .ok list) :
    ∀ item ∈ list.items, item.pcrSlotCollection.pcrSelectSize = size := by
  obtain ⟨items, hitems, hlist⟩ := bind_eq_ok_iff.mp hok
  cases hlist
  intro item hitem
  obtain ⟨entry, -, hcreate⟩ :=
    exists_mem_of_forall₂ (mapM_eq_ok_iff.mp hitems) hitem
  exact (PcrSelection.create_spec hcreate).2.1

namespace PcrSelectionList

section Subtract

/-- The slots of one selection, with its bank. -/
def selectionSlots (item : PcrSelection) : Multiset BankSlot :=
  (item.selected.map (BankSlot.mk item.hashingAlgorithm) : List BankSlot)

/-- The slots that are selected, each as often as it is. -/
def slotBag (items : List PcrSelection) : Multiset BankSlot :=
  (PcrSelectionList.bankSlots ⟨items⟩ : List BankSlot)

@[simp] theorem slotBag_nil : slotBag [] = 0 := rfl

@[simp] theorem slotBag_cons (item : PcrSelection)
    (rest : List PcrSelection) :
    slotBag (item :: rest) = selectionSlots item + slotBag rest := by
  simp [slotBag, bankSlots, selectionSlots]

theorem mem_selectionSlots {item : PcrSelection} {bankSlot : BankSlot} :
    bankSlot ∈ selectionSlots item ↔
      item.hashingAlgorithm = bankSlot.hashingAlgorithm ∧
        item.isSelected bankSlot.slot = true := by
  obtain ⟨hashingAlgorithm, slot⟩ := bankSlot
  simp [selectionSlots, PcrSelection.isSelected_iff, and_comm]

theorem selectionSlots_deselect (item : PcrSelection) (slot : PcrSlot) :
    selectionSlots (item.deselect slot) =
      (selectionSlots item).erase ⟨item.hashingAlgorithm, slot⟩ := by
  unfold selectionSlots
  rw [PcrSelection.selected_deselect, Multiset.coe_erase,
    List.map_erase fun left right heq => (BankSlot.mk.inj heq).2]
  rfl

/-- One slot is taken out, once. -/
theorem removeSlot_of_mem {bankSlot : BankSlot} {items : List PcrSelection}
    (hmem : bankSlot ∈ slotBag items) :
    ∃ left, removeSlot bankSlot items = .ok left ∧
      slotBag left = (slotBag items).erase bankSlot := by
  induction items with
  | nil => simp at hmem
  | cons item rest ih =>
      rw [slotBag_cons] at hmem ⊢
      unfold removeSlot
      by_cases hitem : bankSlot ∈ selectionSlots item
      · obtain ⟨halgorithm, hselected⟩ := mem_selectionSlots.mp hitem
        rw [if_pos (by simp [halgorithm, hselected]),
          PcrSelection.deselectExact_eq_ok hselected]
        refine ⟨_, rfl, ?_⟩
        rw [slotBag_cons, selectionSlots_deselect, halgorithm,
          Multiset.erase_add_left_pos _ hitem]
      · have hrest : bankSlot ∈ slotBag rest :=
          (Multiset.mem_add.mp hmem).resolve_left hitem
        obtain ⟨left, hleft, hbag⟩ := ih hrest
        rw [if_neg fun hcond => hitem (mem_selectionSlots.mpr
          (by simpa using hcond)), hleft]
        refine ⟨_, rfl, ?_⟩
        rw [slotBag_cons, hbag, Multiset.erase_add_right_neg _ hitem]

theorem removeSlot_of_notMem {bankSlot : BankSlot}
    {items : List PcrSelection} (hmem : bankSlot ∉ slotBag items) :
    removeSlot bankSlot items = .error (.wrapper .invalidParam) := by
  induction items with
  | nil => rfl
  | cons item rest ih =>
      rw [slotBag_cons, Multiset.mem_add, not_or] at hmem
      unfold removeSlot
      rw [if_neg fun hcond => hmem.1 (mem_selectionSlots.mpr
        (by simpa using hcond)), ih hmem.2]
      rfl

/-- The slots of several selections are taken out one by one. -/
theorem foldlM_removeSelection (items others : List PcrSelection) :
    others.foldlM removeSelection items =
      (bankSlots ⟨others⟩).foldlM
        (fun items bankSlot => removeSlot bankSlot items) items := by
  induction others generalizing items with
  | nil => rfl
  | cons other rest ih =>
      have hcons : bankSlots ⟨other :: rest⟩ =
          other.selected.map (BankSlot.mk other.hashingAlgorithm) ++
            bankSlots ⟨rest⟩ := rfl
      rw [List.foldlM_cons, hcons, List.foldlM_append, List.foldlM_map]
      exact bind_congr fun left => ih left

/-- Taking slots out of a bag that has them all leaves the difference. -/
theorem foldlM_removeSlot_of_le {bankSlots : List BankSlot}
    {items : List PcrSelection}
    (hle : (bankSlots : Multiset BankSlot) ≤ slotBag items) :
    ∃ left, bankSlots.foldlM (fun items bankSlot => removeSlot bankSlot items)
        items = .ok left ∧
      slotBag left = slotBag items - (bankSlots : Multiset BankSlot) := by
  induction bankSlots generalizing items with
  | nil => exact ⟨items, rfl, by simp⟩
  | cons bankSlot rest ih =>
      rw [← Multiset.cons_coe] at hle ⊢
      have hmem : bankSlot ∈ slotBag items :=
        Multiset.mem_of_le hle (Multiset.mem_cons_self _ _)
      obtain ⟨first, hfirst, hbag⟩ := removeSlot_of_mem hmem
      have hrest : (rest : Multiset BankSlot) ≤ slotBag first := by
        rw [hbag]
        have herase := Multiset.erase_le_erase bankSlot hle
        rwa [Multiset.erase_cons_head] at herase
      obtain ⟨left, hleft, hdifference⟩ := ih hrest
      refine ⟨left, ?_, ?_⟩
      · rw [List.foldlM_cons, hfirst]
        exact hleft
      · rw [hdifference, hbag, Multiset.sub_cons]

/-- A slot that is missing ends the subtraction. -/
theorem foldlM_removeSlot_of_not_le {bankSlots : List BankSlot}
    {items : List PcrSelection}
    (hnot : ¬ (bankSlots : Multiset BankSlot) ≤ slotBag items) :
    bankSlots.foldlM (fun items bankSlot => removeSlot bankSlot items)
      items = .error (.wrapper .invalidParam) := by
  induction bankSlots generalizing items with
  | nil => exact absurd (Multiset.zero_le _) hnot
  | cons bankSlot rest ih =>
      rw [List.foldlM_cons]
      by_cases hmem : bankSlot ∈ slotBag items
      · obtain ⟨first, hfirst, hbag⟩ := removeSlot_of_mem hmem
        rw [hfirst]
        refine ih fun hle => hnot ?_
        rw [hbag] at hle
        rw [← Multiset.cons_coe, ← Multiset.cons_erase hmem]
        exact Multiset.cons_le_cons _ hle
      · rw [removeSlot_of_notMem hmem]
        rfl

theorem slotBag_filter (items : List PcrSelection) :
    slotBag (items.filter fun item => !item.isEmpty) = slotBag items := by
  induction items with
  | nil => rfl
  | cons item rest ih =>
      by_cases hempty : item.isEmpty = true
      · have hslots : selectionSlots item = 0 := by
          unfold selectionSlots
          rw [PcrSelection.isEmpty_iff.mp hempty]
          rfl
        rw [List.filter_cons_of_neg (by simp [hempty]), ih, slotBag_cons,
          hslots, Multiset.zero_add]
      · rw [List.filter_cons_of_pos (by simp [hempty]), slotBag_cons, ih,
          slotBag_cons]

/-- Subtraction is the difference of the bags of slots, and is refused when
a slot is missing. -/
theorem subtract_refines (list other : PcrSelectionList) :
    (∀ left, list.subtract other = .ok left →
      slotBag other.items ≤ slotBag list.items ∧
      slotBag left.items = slotBag list.items - slotBag other.items ∧
      ∀ item ∈ left.items, item.isEmpty = false) ∧
    ((∃ left, list.subtract other = .ok left) ↔
      list = other ∨
        (list.items ≠ [] ∧ slotBag other.items ≤ slotBag list.items)) := by
  unfold subtract
  by_cases hsame : list = other
  · subst hsame
    rw [if_pos rfl]
    refine ⟨?_, by simp⟩
    intro left hleft
    cases hleft
    have hself : slotBag list.items - slotBag list.items = 0 := by
      ext bankSlot
      rw [Multiset.count_sub, Nat.sub_self, Multiset.count_zero]
    exact ⟨le_refl _, slotBag_nil.trans hself.symm, by simp⟩
  · rw [if_neg hsame]
    by_cases hnil : list.items = []
    · simp [isEmpty, hnil, hsame]
    · have hnonempty : ¬ list.isEmpty = true := by
        simpa [isEmpty] using hnil
      rw [if_neg hnonempty, foldlM_removeSelection]
      by_cases hle : slotBag other.items ≤ slotBag list.items
      · obtain ⟨items, hitems, hbag⟩ := foldlM_removeSlot_of_le hle
        rw [hitems, ok_bind]
        refine ⟨?_, by simp [hle, hnil]⟩
        intro left hleft
        cases hleft
        refine ⟨hle, (slotBag_filter items).trans hbag, ?_⟩
        intro item hitem
        simpa using (List.mem_filter.mp hitem).2
      · rw [foldlM_removeSlot_of_not_le hle, error_bind]
        simp [hle, hsame]

end Subtract

section Codec

theorem listed_toTpml {list : PcrSelectionList} {tpml : TpmlPcrSelection}
    (hok : list.toTpml = some tpml) :
    list.items.length ≤ maxSize ∧ tpml.count.toNat = list.items.length ∧
      tpml.listed = list.items.map PcrSelection.toTpms := by
  unfold toTpml at hok
  split at hok
  · rename_i hsize
    have hcount : (UInt32.ofNat list.items.length).toNat =
        list.items.length := by
      rw [UInt32.toNat_ofNat']
      exact Nat.mod_eq_of_lt (lt_of_le_of_lt hsize (by decide))
    cases hok
    refine ⟨hsize, hcount, ?_⟩
    unfold TpmlPcrSelection.listed
    rw [hcount]
    exact List.take_left' (List.length_map _)
  · cases hok

theorem ofTpml_eq_ok_iff {tpml : TpmlPcrSelection}
    {list : PcrSelectionList} :
    ofTpml tpml = .ok list ↔ tpml.count.toNat ≤ maxSize ∧
      List.Forall₂ (fun tpms item => PcrSelection.ofTpms tpms = .ok item)
        tpml.listed list.items := by
  unfold ofTpml
  by_cases hcount : maxSize < tpml.count.toNat
  · rw [if_pos hcount]
    simp [not_le.mpr hcount]
  · rw [if_neg hcount, ← mapM_eq_ok_iff, bind_eq_ok_iff]
    constructor
    · rintro ⟨items, hitems, heq⟩
      cases heq
      exact ⟨not_lt.mp hcount, hitems⟩
    · rintro ⟨-, hitems⟩
      exact ⟨list.items, hitems, rfl⟩

theorem exists_toTpml {list : PcrSelectionList}
    (hsize : list.items.length ≤ maxSize) :
    ∃ tpml, list.toTpml = some tpml ∧ ofTpml tpml = .ok list := by
  have hsome : list.toTpml = some _ := dif_pos hsize
  obtain ⟨-, hcount, hlisted⟩ := listed_toTpml hsome
  refine ⟨_, hsome, ofTpml_eq_ok_iff.mpr ⟨hcount.trans_le hsize, ?_⟩⟩
  rw [hlisted, List.forall₂_map_left_iff, List.forall₂_same]
  exact fun item _ => item.ofTpms_toTpms

theorem ofTpml_of_toTpml {list : PcrSelectionList} {tpml : TpmlPcrSelection}
    (hok : list.toTpml = some tpml) : ofTpml tpml = .ok list := by
  obtain ⟨found, hfound, hread⟩ := exists_toTpml (listed_toTpml hok).1
  rw [hok] at hfound
  cases hfound
  exact hread

/-- A list of at most sixteen selections is read back as it was written, a
longer one cannot be written, and a structure is read exactly when all that
it lists is valid; written again, only the octets beyond the selects differ. -/
theorem tpml_roundTrip :
    (∀ list : PcrSelectionList, list.items.length ≤ maxSize →
      ∃ tpml, list.toTpml = some tpml ∧ ofTpml tpml = .ok list) ∧
    (∀ list : PcrSelectionList, maxSize < list.items.length →
      list.toTpml = none) ∧
    (∀ tpml, (∃ list, ofTpml tpml = .ok list) ↔
      tpml.count.toNat ≤ maxSize ∧ ∀ tpms ∈ tpml.listed, tpms.Valid) ∧
    ∀ tpml list, ofTpml tpml = .ok list →
      ∃ written, list.toTpml = some written ∧
        written.listed = tpml.listed.map TpmsPcrSelection.masked := by
  refine ⟨fun list => exists_toTpml,
    fun list hlong => dif_neg (not_le.mpr hlong), ?_, ?_⟩
  · intro tpml
    simp only [ofTpml_eq_ok_iff, exists_and_left, and_congr_right_iff]
    intro _
    constructor
    · rintro ⟨list, hall⟩ tpms htpms
      obtain ⟨item, -, hitem⟩ := exists_mem_of_forall₂ hall.flip htpms
      exact PcrSelection.exists_ofTpms_iff.mp ⟨item, hitem⟩
    · intro hvalid
      cases hitems : tpml.listed.mapM PcrSelection.ofTpms with
      | ok items => exact ⟨⟨items⟩, mapM_eq_ok_iff.mp hitems⟩
      | error error =>
          obtain ⟨tpms, htpms, failure, hfailure⟩ :=
            exists_mapM_eq_error_iff.mp ⟨error, hitems⟩
          obtain ⟨item, hitem⟩ :=
            PcrSelection.exists_ofTpms_iff.mpr (hvalid tpms htpms)
          rw [hfailure] at hitem
          cases hitem
  · intro tpml list hok
    obtain ⟨hcount, hall⟩ := ofTpml_eq_ok_iff.mp hok
    have hlength : tpml.listed.length = list.items.length := hall.length_eq
    have hsize : list.items.length ≤ maxSize := by
      rw [← hlength, TpmlPcrSelection.listed, List.length_take]
      exact le_trans (Nat.min_le_left _ _) hcount
    have hsome : list.toTpml = some _ := dif_pos hsize
    refine ⟨_, hsome, (listed_toTpml hsome).2.2.trans ?_⟩
    refine List.forall₂_eq_eq_eq ▸ ?_
    rw [List.forall₂_map_left_iff, List.forall₂_map_right_iff]
    exact hall.flip.imp fun item tpms hitem => PcrSelection.toTpms_ofTpms hitem

end Codec

end PcrSelectionList

end Vtpm

end Kettle
