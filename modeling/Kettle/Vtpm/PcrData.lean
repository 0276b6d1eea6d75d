/-
The values of PCRs as they are read: a bank maps slots to digests, and the
data of several reads has one bank for each algorithm.
-/
import Kettle.Lib.SortedMap
import Kettle.Vtpm.PcrSelections

namespace Kettle

namespace Vtpm

/-- `Digest::MAX_SIZE`. -/
def digestMaxSize : Nat := 64

structure Digest where
  value : Bytes
  fits : value.length ≤ digestMaxSize
deriving DecidableEq

/-- The bytes as an array of 32 (`[u8; 32]::try_from`). -/
def Digest.toArray32 (digest : Digest) : Except Error (ByteVec 32) :=
  if hlen : digest.value.length = 32 then .ok ⟨digest.value, hlen⟩
  else .error (.wrapper .wrongParamSize)

structure PcrBank where
  bank : SortedMap PcrSlot Digest

namespace PcrBank

/-- A slot that is already there is an error. -/
def fill : List (PcrSlot × Digest) → SortedMap PcrSlot Digest →
    Except Error (SortedMap PcrSlot Digest)
  | [], bank => .ok bank
  | (slot, digest) :: rest, bank =>
      if (bank.get? slot).isSome then
        .error (.wrapper .inconsistentParams)
      else fill rest (bank.insert slot digest)

def create (slots : List PcrSlot) (digests : List Digest) :
    Except Error PcrBank :=
  if slots.length ≠ digests.length then
    .error (.wrapper .inconsistentParams)
  else do
    let bank ← fill (slots.zip digests) .empty
    .ok ⟨bank⟩

def hasDigest (bank : PcrBank) (slot : PcrSlot) : Bool :=
  (bank.bank.get? slot).isSome

def tryExtend (bank other : PcrBank) : Except Error PcrBank :=
  if other.bank.entries.any (fun entry => bank.hasDigest entry.1) then
    .error (.wrapper .invalidParam)
  else
    .ok ⟨other.bank.entries.foldl
      (fun bank entry => bank.insert entry.1 entry.2) bank.bank⟩

end PcrBank

structure PcrData where
  data : List (HashingAlgorithm × PcrBank)

namespace PcrData

def new : PcrData := ⟨[]⟩

/-- Digests beyond those of the selections are left unused. -/
def createData : List PcrSelection → List Digest →
    Except Error (List (HashingAlgorithm × PcrBank))
  | [], _ => .ok []
  | selection :: rest, digests =>
      if digests.length < selection.selected.length then
        .error (.wrapper .inconsistentParams)
      else do
        let bank ← PcrBank.create selection.selected
          (digests.take selection.selected.length)
        let later ← createData rest
          (digests.drop selection.selected.length)
        .ok ((selection.hashingAlgorithm, bank) :: later)

/-- The first bank of the algorithm is extended; a new one is put last. -/
def addBank (hashingAlgorithm : HashingAlgorithm) (bank : PcrBank) :
    List (HashingAlgorithm × PcrBank) →
    Except Error (List (HashingAlgorithm × PcrBank))
  | [] => .ok [(hashingAlgorithm, bank)]
  | (algorithm, existing) :: rest =>
      if algorithm = hashingAlgorithm then do
        let existing ← existing.tryExtend bank
        .ok ((algorithm, existing) :: rest)
      else do
        let rest ← addBank hashingAlgorithm bank rest
        .ok ((algorithm, existing) :: rest)

def add (data : PcrData) (selection : PcrSelectionList)
    (digests : List Digest) : Except Error PcrData := do
  let created ← createData selection.items digests
  let banks ← created.foldlM
    (fun banks entry => addBank entry.1 entry.2 banks) data.data
  .ok ⟨banks⟩

/-- `pcr_bank`. -/
def pcrBank? (data : PcrData) (hashingAlgorithm : HashingAlgorithm) :
    Option PcrBank :=
  (data.data.find? fun entry => entry.1 = hashingAlgorithm).map (·.2)

/-- The digest that is recorded for a slot of a bank. -/
def digest? (data : PcrData) (bankSlot : BankSlot) : Option Digest :=
  (data.pcrBank? bankSlot.hashingAlgorithm).bind
    (·.bank.get? bankSlot.slot)

end PcrData

namespace PcrBank

theorem hasDigest_eq_false_iff {bank : PcrBank} {slot : PcrSlot} :
    bank.hasDigest slot = false ↔ bank.bank.get? slot = none := by
  rw [hasDigest, Option.isSome_eq_false_iff, Option.isNone_iff_eq_none]

/-- Entries with keys of their own are all recorded, beside the old ones. -/
theorem get?_foldl_insert {entries : List (PcrSlot × Digest)}
    (hkeys : (entries.map Prod.fst).Nodup)
    {bank : SortedMap PcrSlot Digest}
    (hfresh : ∀ entry ∈ entries, bank.get? entry.1 = none)
    {slot : PcrSlot} {digest : Digest} :
    (entries.foldl (fun bank entry => bank.insert entry.1 entry.2)
        bank).get? slot = some digest ↔
      (slot, digest) ∈ entries ∨ bank.get? slot = some digest := by
  induction entries generalizing bank with
  | nil => simp
  | cons first rest ih =>
      rw [List.map_cons, List.nodup_cons] at hkeys
      have hrest : ∀ entry ∈ rest,
          (bank.insert first.1 first.2).get? entry.1 = none := by
        intro entry hentry
        have hne : first.1 ≠ entry.1 := fun heq => hkeys.1
          (heq ▸ List.mem_map_of_mem hentry)
        rw [SortedMap.get?_insert, if_neg hne]
        exact hfresh entry (List.mem_cons_of_mem _ hentry)
      rw [List.foldl_cons, ih hkeys.2 hrest, SortedMap.get?_insert,
        List.mem_cons]
      by_cases hslot : first.1 = slot
      · have hnone : bank.get? slot = none :=
          hslot ▸ hfresh first List.mem_cons_self
        have hout : (slot, digest) ∉ rest := fun hmem => hkeys.1
          (hslot ▸ List.mem_map_of_mem hmem)
        rw [if_pos hslot, hnone]
        subst hslot
        simp [hout, Prod.ext_iff, eq_comm]
      · have hne : ¬ (slot, digest) = first := fun heq =>
          hslot (heq ▸ rfl)
        simp [hslot, hne]

theorem fill_eq_ok {entries : List (PcrSlot × Digest)}
    (hkeys : (entries.map Prod.fst).Nodup)
    {bank : SortedMap PcrSlot Digest}
    (hfresh : ∀ entry ∈ entries, bank.get? entry.1 = none) :
    fill entries bank = .ok (entries.foldl
      (fun bank entry => bank.insert entry.1 entry.2) bank) := by
  induction entries generalizing bank with
  | nil => rfl
  | cons first rest ih =>
      rw [List.map_cons, List.nodup_cons] at hkeys
      have hnone := hfresh first List.mem_cons_self
      unfold fill
      rw [hnone, if_neg (by simp), List.foldl_cons]
      refine ih hkeys.2 fun entry hentry => ?_
      have hne : first.1 ≠ entry.1 := fun heq => hkeys.1
        (heq ▸ List.mem_map_of_mem hentry)
      rw [SortedMap.get?_insert, if_neg hne]
      exact hfresh entry (List.mem_cons_of_mem _ hentry)

/-- Different slots, each with its digest, make a bank. -/
theorem create_spec {slots : List PcrSlot} {digests : List Digest}
    (hnodup : slots.Nodup) (hlen : slots.length = digests.length) :
    ∃ bank, create slots digests = .ok bank ∧ ∀ slot digest,
      bank.bank.get? slot = some digest ↔
        (slot, digest) ∈ slots.zip digests := by
  have hkeys : ((slots.zip digests).map Prod.fst).Nodup := by
    rw [List.map_fst_zip hlen.le]
    exact hnodup
  have hfresh : ∀ entry ∈ slots.zip digests,
      (SortedMap.empty : SortedMap PcrSlot Digest).get? entry.1 = none :=
    fun _ _ => rfl
  have hok : create slots digests = .ok ⟨(slots.zip digests).foldl
      (fun bank entry => bank.insert entry.1 entry.2) .empty⟩ := by
    unfold create
    rw [if_neg (not_not.mpr hlen), fill_eq_ok hkeys hfresh, ok_bind]
  refine ⟨_, hok, fun slot digest => ?_⟩
  rw [get?_foldl_insert hkeys hfresh]
  simp

theorem nodup_keys (bank : PcrBank) :
    (bank.bank.entries.map Prod.fst).Nodup := by
  rw [List.nodup_iff_pairwise_ne, List.pairwise_map]
  exact bank.bank.sorted.imp fun hlt => hlt.ne

/-- Banks without a slot in common extend each other. -/
theorem tryExtend_spec {bank other : PcrBank}
    (hapart : ∀ slot digest, other.bank.get? slot = some digest →
      bank.bank.get? slot = none) :
    ∃ joined, bank.tryExtend other = .ok joined ∧ ∀ slot digest,
      joined.bank.get? slot = some digest ↔
        other.bank.get? slot = some digest ∨
          bank.bank.get? slot = some digest := by
  have hfresh : ∀ entry ∈ other.bank.entries,
      bank.bank.get? entry.1 = none := fun entry hentry =>
    hapart entry.1 entry.2 (SortedMap.mem_entries_iff.mp hentry)
  have hnone : ¬ other.bank.entries.any
      (fun entry => bank.hasDigest entry.1) = true := by
    rw [List.any_eq_true]
    rintro ⟨entry, hentry, hhas⟩
    rw [hasDigest_eq_false_iff.mpr (hfresh entry hentry)] at hhas
    cases hhas
  refine ⟨_, if_neg hnone, fun slot digest => ?_⟩
  rw [get?_foldl_insert other.nodup_keys hfresh, SortedMap.mem_entries_iff]

end PcrBank

namespace PcrData

@[simp] theorem digest?_new (bankSlot : BankSlot) :
    new.digest? bankSlot = none := rfl

/-- The digests of a list of banks, by the first bank of the algorithm. -/
theorem digest?_cons (algorithm : HashingAlgorithm) (bank : PcrBank)
    (rest : List (HashingAlgorithm × PcrBank)) (bankSlot : BankSlot) :
    digest? ⟨(algorithm, bank) :: rest⟩ bankSlot =
      if algorithm = bankSlot.hashingAlgorithm then
        bank.bank.get? bankSlot.slot
      else digest? ⟨rest⟩ bankSlot := by
  unfold digest? pcrBank?
  by_cases heq : algorithm = bankSlot.hashingAlgorithm
  · simp [heq]
  · simp [heq]

/-- A bank whose slots are new is added to the data. -/
theorem addBank_spec {hashingAlgorithm : HashingAlgorithm} {bank : PcrBank}
    {banks : List (HashingAlgorithm × PcrBank)}
    (hapart : ∀ slot digest, bank.bank.get? slot = some digest →
      digest? ⟨banks⟩ ⟨hashingAlgorithm, slot⟩ = none) :
    ∃ joined, addBank hashingAlgorithm bank banks = .ok joined ∧
      ∀ bankSlot digest, digest? ⟨joined⟩ bankSlot = some digest ↔
        (hashingAlgorithm = bankSlot.hashingAlgorithm ∧
          bank.bank.get? bankSlot.slot = some digest) ∨
        digest? ⟨banks⟩ bankSlot = some digest := by
  induction banks with
  | nil =>
      refine ⟨_, rfl, fun bankSlot digest => ?_⟩
      rw [digest?_cons]
      split
      · rename_i heq
        simp [heq, digest?, pcrBank?]
      · rename_i hne
        simp [hne]
  | cons head rest ih =>
      obtain ⟨algorithm, existing⟩ := head
      simp only [digest?_cons] at hapart ih ⊢
      unfold addBank
      by_cases heq : algorithm = hashingAlgorithm
      · subst heq
        have hnew : ∀ slot digest, bank.bank.get? slot = some digest →
            existing.bank.get? slot = none := fun slot digest hget => by
          simpa using hapart slot digest hget
        obtain ⟨joined, hjoined, hdigests⟩ := PcrBank.tryExtend_spec hnew
        rw [if_pos rfl, hjoined]
        refine ⟨_, rfl, fun bankSlot digest => ?_⟩
        rw [digest?_cons]
        by_cases halgorithm : algorithm = bankSlot.hashingAlgorithm
        · simp only [halgorithm, if_true, true_and]
          exact hdigests bankSlot.slot digest
        · simp [halgorithm]
      · obtain ⟨joined, hjoined, hdigests⟩ := ih fun slot digest hget => by
          simpa [heq] using hapart slot digest hget
        rw [if_neg heq, hjoined]
        refine ⟨_, rfl, fun bankSlot digest => ?_⟩
        rw [digest?_cons]
        by_cases halgorithm : algorithm = bankSlot.hashingAlgorithm
        · have hne : hashingAlgorithm ≠ bankSlot.hashingAlgorithm :=
            fun h => heq (halgorithm.trans h.symm)
          simp [halgorithm, hne]
        · simp only [halgorithm, if_false]
          exact hdigests bankSlot digest

/-- What is read of one selection: its slots, each with its digest. -/
theorem mem_zip_bankSlots {selection : PcrSelection}
    {digests : List Digest} {bankSlot : BankSlot} {digest : Digest} :
    (bankSlot, digest) ∈ (selection.selected.map
        (BankSlot.mk selection.hashingAlgorithm)).zip digests ↔
      selection.hashingAlgorithm = bankSlot.hashingAlgorithm ∧
        (bankSlot.slot, digest) ∈ selection.selected.zip digests := by
  obtain ⟨hashingAlgorithm, slot⟩ := bankSlot
  rw [List.zip_map_left, List.mem_map]
  constructor
  · rintro ⟨⟨found, value⟩, hmem, heq⟩
    cases heq
    exact ⟨rfl, hmem⟩
  · rintro ⟨heq, hmem⟩
    exact ⟨(slot, digest), hmem, by simp [heq]⟩

/-- The selections of a reply are added one after the other. -/
theorem createData_addBanks {items : List PcrSelection}
    {digests : List Digest} {banks : List (HashingAlgorithm × PcrBank)}
    (hnodup : (PcrSelectionList.bankSlots ⟨items⟩).Nodup)
    (hlen : (PcrSelectionList.bankSlots ⟨items⟩).length ≤ digests.length)
    (hfresh : ∀ bankSlot ∈ PcrSelectionList.bankSlots ⟨items⟩,
      digest? ⟨banks⟩ bankSlot = none) :
    ∃ created joined, createData items digests = .ok created ∧
      created.foldlM (fun banks entry => addBank entry.1 entry.2 banks)
        banks = .ok joined ∧
      ∀ bankSlot digest, digest? ⟨joined⟩ bankSlot = some digest ↔
        (bankSlot, digest) ∈
            (PcrSelectionList.bankSlots ⟨items⟩).zip digests ∨
          digest? ⟨banks⟩ bankSlot = some digest := by
  induction items generalizing digests banks with
  | nil => exact ⟨[], banks, rfl, rfl, by simp [PcrSelectionList.bankSlots]⟩
  | cons selection rest ih =>
      have hcons : PcrSelectionList.bankSlots ⟨selection :: rest⟩ =
          selection.selected.map (BankSlot.mk selection.hashingAlgorithm) ++
            PcrSelectionList.bankSlots ⟨rest⟩ := rfl
      rw [hcons] at hnodup hlen hfresh
      rw [List.length_append, List.length_map] at hlen
      obtain ⟨-, hrestNodup, hapart⟩ := List.nodup_append.mp hnodup
      have htake : selection.selected.length =
          (digests.take selection.selected.length).length := by
        rw [List.length_take]
        omega
      obtain ⟨bank, hbank, hget⟩ :=
        PcrBank.create_spec selection.nodup_selected htake
      have hnew : ∀ slot digest, bank.bank.get? slot = some digest →
          digest? ⟨banks⟩ ⟨selection.hashingAlgorithm, slot⟩ = none :=
        fun slot digest hslot => hfresh _ (List.mem_append_left _
          (List.mem_map_of_mem
            (List.of_mem_zip ((hget slot digest).mp hslot)).1))
      obtain ⟨first, hfirst, hfirstDigests⟩ := addBank_spec hnew
      -- the slots of later selections are not those of this one
      have hrestFresh : ∀ bankSlot ∈ PcrSelectionList.bankSlots ⟨rest⟩,
          digest? ⟨first⟩ bankSlot = none := by
        intro bankSlot hmem
        rw [Option.eq_none_iff_forall_ne_some]
        intro digest hdigest
        rcases (hfirstDigests bankSlot digest).mp hdigest with
          ⟨halgorithm, hslot⟩ | hold
        · have hselected : bankSlot ∈ selection.selected.map
              (BankSlot.mk selection.hashingAlgorithm) :=
            List.mem_map.mpr ⟨bankSlot.slot,
              (List.of_mem_zip ((hget _ _).mp hslot)).1, by rw [halgorithm]⟩
          exact hapart _ hselected _ hmem rfl
        · rw [hfresh _ (List.mem_append_right _ hmem)] at hold
          cases hold
      have hrestLen : (PcrSelectionList.bankSlots ⟨rest⟩).length ≤
          (digests.drop selection.selected.length).length := by
        rw [List.length_drop]
        omega
      obtain ⟨created, joined, hcreated, hjoined, hdigests⟩ :=
        ih hrestNodup hrestLen hrestFresh
      refine ⟨(selection.hashingAlgorithm, bank) :: created, joined, ?_, ?_,
        fun bankSlot digest => ?_⟩
      · unfold createData
        rw [if_neg (by omega), hbank, ok_bind, hcreated, ok_bind]
      · rw [List.foldlM_cons, hfirst]
        exact hjoined
      · have hzip : (PcrSelectionList.bankSlots ⟨selection :: rest⟩).zip
              digests =
            (selection.selected.map
                (BankSlot.mk selection.hashingAlgorithm)).zip
              (digests.take selection.selected.length) ++
            (PcrSelectionList.bankSlots ⟨rest⟩).zip
              (digests.drop selection.selected.length) := by
          conv_lhs => rw [hcons,
            ← List.take_append_drop selection.selected.length digests]
          exact List.zip_append (by rw [List.length_map]; exact htake)
        rw [hdigests, hfirstDigests, hzip, List.mem_append,
          mem_zip_bankSlots, hget]
        tauto

/-- A reply with a digest for each of its slots, all of them new, is added:
each slot then has its digest. -/
theorem add_spec {data : PcrData} {selection : PcrSelectionList}
    {digests : List Digest} (hnodup : selection.bankSlots.Nodup)
    (hlen : selection.bankSlots.length ≤ digests.length)
    (hfresh : ∀ bankSlot ∈ selection.bankSlots,
      data.digest? bankSlot = none) :
    ∃ joined, data.add selection digests = .ok joined ∧
      ∀ bankSlot digest, joined.digest? bankSlot = some digest ↔
        (bankSlot, digest) ∈ selection.bankSlots.zip digests ∨
          data.digest? bankSlot = some digest := by
  obtain ⟨created, joined, hcreated, hjoined, hdigests⟩ :=
    createData_addBanks hnodup hlen hfresh
  refine ⟨⟨joined⟩, ?_, hdigests⟩
  unfold add
  rw [hcreated, ok_bind, hjoined, ok_bind]

end PcrData

end Vtpm

end Kettle
