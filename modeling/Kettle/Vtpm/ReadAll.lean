/-
Reading a selection of PCRs.  The TPM returns the digests of some of the
slots it is asked for, and is asked again for the rest until none is left;
between the reads the PCRs may change.
-/
import Kettle.Vtpm.PcrData

namespace Kettle

namespace Vtpm

/-- What `TPM2_PCR_Read` returns. -/
structure PcrReadReply where
  updateCounter : UInt32
  selection : PcrSelectionList
  digests : List Digest

/-- `pcr_read` at one time. -/
abbrev PcrRead := TpmlPcrSelection → Except Error PcrReadReply

inductive ReadAll where
  | reading (left : PcrSelectionList) (data : PcrData)
  | done (data : PcrData)
  | failed (error : Error)
  | panicked

namespace ReadAll

/-- The condition of the loop. -/
def resume (left : PcrSelectionList) (data : PcrData) : ReadAll :=
  if left.isEmpty then .done data else .reading left data

/-- The body of the loop. -/
def turn (read : PcrRead) (tpml : TpmlPcrSelection)
    (left : PcrSelectionList) (data : PcrData) :
    Except Error (PcrSelectionList × PcrData) := do
  let reply ← read tpml
  let data ← data.add reply.selection reply.digests
  let left ← left.subtract reply.selection
  .ok (left, data)

def next (read : PcrRead) : ReadAll → ReadAll
  | .reading left data =>
      match left.toTpml with
      | none => .panicked
      | some tpml =>
          match turn read tpml left data with
          | .error error => .failed error
          | .ok (left, data) => resume left data
  | state => state

end ReadAll

/-- `read_all` after a number of turns. -/
def readAll (reads : Nat → PcrRead) (list : PcrSelectionList) :
    Nat → ReadAll
  | 0 => .resume list .new
  | turns + 1 => (readAll reads list turns).next (reads turns)

/-- The digests that the PCRs have; a slot that a TPM lacks has none. -/
abbrev Pcrs := BankSlot → Option Digest

/-- The slots of a list that the TPM implements. -/
def Pcrs.implemented (pcrs : Pcrs) (list : PcrSelectionList) :
    List BankSlot :=
  list.bankSlots.filter fun bankSlot => (pcrs bankSlot).isSome

/-- The TPM goes through the slots in order, leaves out those that it lacks,
and stops early when its reply is full. -/
structure Answers (pcrs : Pcrs) (asked : PcrSelectionList)
    (reply : PcrReadReply) : Prop where
  inOrder : reply.selection.bankSlots <+: pcrs.implemented asked
  nonempty : pcrs.implemented asked ≠ [] → reply.selection.bankSlots ≠ []
  digests : reply.selection.bankSlots.map pcrs = reply.digests.map some

/-- How `TPM2_PCR_Read` is documented. -/
def Reads (pcrs : Pcrs) (read : PcrRead) : Prop :=
  ∀ asked tpml, asked.toTpml = some tpml →
    ∃ reply, read tpml = .ok reply ∧ Answers pcrs asked reply

section Subtract

namespace PcrSelectionList

theorem length_removeSlot {bankSlot : BankSlot}
    {items left : List PcrSelection}
    (hok : removeSlot bankSlot items = .ok left) :
    left.length = items.length := by
  induction items generalizing left with
  | nil => cases hok
  | cons item rest ih =>
      unfold removeSlot at hok
      split at hok
      · obtain ⟨removed, -, heq⟩ := bind_eq_ok_iff.mp hok
        cases heq
        rfl
      · obtain ⟨later, hlater, heq⟩ := bind_eq_ok_iff.mp hok
        cases heq
        rw [List.length_cons, ih hlater, List.length_cons]

theorem length_foldlM_removeSlot {bankSlots : List BankSlot}
    {items left : List PcrSelection}
    (hok : bankSlots.foldlM (fun items bankSlot => removeSlot bankSlot items)
      items = .ok left) : left.length = items.length := by
  induction bankSlots generalizing items with
  | nil =>
      cases hok
      rfl
  | cons bankSlot rest ih =>
      rw [List.foldlM_cons] at hok
      obtain ⟨first, hfirst, hrest⟩ := bind_eq_ok_iff.mp hok
      rw [ih hrest, length_removeSlot hfirst]

/-- Subtraction adds no selection. -/
theorem length_subtract_le {list other left : PcrSelectionList}
    (hok : list.subtract other = .ok left) :
    left.items.length ≤ list.items.length := by
  unfold subtract at hok
  split at hok
  · cases hok
    exact Nat.zero_le _
  · split at hok
    · cases hok
    · obtain ⟨items, hitems, heq⟩ := bind_eq_ok_iff.mp hok
      rw [foldlM_removeSelection] at hitems
      cases heq
      exact (List.length_filter_le _ _).trans
        (length_foldlM_removeSlot hitems).le

theorem slotBag_items (list : PcrSelectionList) :
    slotBag list.items = (list.bankSlots : Multiset BankSlot) := rfl

/-- Subtracting some of the slots of a list leaves the others. -/
theorem subtract_of_sublist {list other : PcrSelectionList}
    (hnonempty : list.items ≠ []) (hnodup : list.bankSlots.Nodup)
    (hsub : other.bankSlots.Sublist list.bankSlots) :
    ∃ left, list.subtract other = .ok left ∧
      left.items.length ≤ list.items.length ∧
      left.bankSlots.Nodup ∧
      left.bankSlots.length + other.bankSlots.length =
        list.bankSlots.length ∧
      (∀ bankSlot, bankSlot ∈ left.bankSlots ↔
        bankSlot ∈ list.bankSlots ∧ bankSlot ∉ other.bankSlots) ∧
      ∀ item ∈ left.items, item.isEmpty = false := by
  have hle : slotBag other.items ≤ slotBag list.items := by
    rw [slotBag_items, slotBag_items]
    exact Multiset.coe_le.mpr hsub.subperm
  obtain ⟨hrefines, hexists⟩ := subtract_refines list other
  obtain ⟨left, hok⟩ := hexists.mpr (Or.inr ⟨hnonempty, hle⟩)
  obtain ⟨-, hbag, hitems⟩ := hrefines left hok
  have hbagNodup : (slotBag list.items).Nodup :=
    Multiset.coe_nodup.mpr hnodup
  refine ⟨left, hok, length_subtract_le hok, ?_, ?_, ?_, hitems⟩
  · rw [← Multiset.coe_nodup, ← slotBag_items, hbag]
    exact Multiset.nodup_of_le (Multiset.sub_le_self _ _) hbagNodup
  · have hcard := congrArg Multiset.card hbag
    rw [Multiset.card_sub hle, slotBag_items, slotBag_items, slotBag_items,
      Multiset.coe_card, Multiset.coe_card, Multiset.coe_card] at hcard
    have hlen := hsub.length_le
    omega
  · intro bankSlot
    rw [← Multiset.mem_coe, ← slotBag_items, hbag,
      Multiset.mem_sub_of_nodup hbagNodup]
    rfl

end PcrSelectionList

end Subtract

section Device

/-- Only the given slots of a selection. -/
def PcrSelection.restrict (item : PcrSelection) (slots : List PcrSlot) :
    PcrSelection :=
  { item with
    pcrSlotCollection :=
      item.pcrSlotCollection.remove (~~~BitFlags.ofPositions slots) }

/-- The first slots of a selection that are implemented. -/
def Pcrs.answered (pcrs : Pcrs) (room : Nat) (item : PcrSelection) :
    List PcrSlot :=
  (item.selected.filter fun slot =>
    (pcrs ⟨item.hashingAlgorithm, slot⟩).isSome).take room

def Pcrs.replyItems (pcrs : Pcrs) :
    Nat → List PcrSelection → List PcrSelection
  | _, [] => []
  | room, item :: rest =>
      item.restrict (pcrs.answered room item) ::
        pcrs.replyItems (room - (pcrs.answered room item).length) rest

/-- A TPM whose replies hold eight digests. -/
def Pcrs.read (pcrs : Pcrs) : PcrRead := fun tpml => do
  let asked ← PcrSelectionList.ofTpml tpml
  .ok {
    updateCounter := 0
    selection := ⟨pcrs.replyItems 8 asked.items⟩
    digests := (PcrSelectionList.bankSlots
      ⟨pcrs.replyItems 8 asked.items⟩).filterMap pcrs }

theorem PcrSelection.selected_restrict {item : PcrSelection}
    {slots : List PcrSlot} (hsub : slots.Sublist item.selected) :
    (item.restrict slots).selected = slots := by
  have hsorted : slots.Pairwise (· < ·) :=
    (BitFlags.pairwise_positions _).sublist hsub
  refine List.Perm.eq_of_pairwise (fun _ _ _ _ hle hge =>
    absurd hge hle.asymm) (BitFlags.pairwise_positions _) hsorted ?_
  refine (List.perm_ext_iff_of_nodup (item.restrict slots).nodup_selected
    (hsorted.imp fun hlt => hlt.ne)).mpr fun slot => ?_
  have hin : slot ∈ slots →
      BitFlags.isSet item.pcrSlotCollection.pcrSlots slot = true :=
    fun hmem => BitFlags.mem_positions.mp (hsub.subset hmem)
  simpa [restrict, selected, PcrSlotCollection.slots,
    PcrSlotCollection.remove] using hin

theorem Pcrs.bankSlots_replyItems (pcrs : Pcrs) (room : Nat)
    (items : List PcrSelection) :
    PcrSelectionList.bankSlots ⟨pcrs.replyItems room items⟩ =
      (pcrs.implemented ⟨items⟩).take room := by
  induction items generalizing room with
  | nil => simp [replyItems, implemented, PcrSelectionList.bankSlots]
  | cons item rest ih =>
      have hreply : PcrSelectionList.bankSlots
          ⟨pcrs.replyItems room (item :: rest)⟩ =
          (item.restrict (pcrs.answered room item)).selected.map
              (BankSlot.mk item.hashingAlgorithm) ++
            PcrSelectionList.bankSlots ⟨pcrs.replyItems
              (room - (pcrs.answered room item).length) rest⟩ := rfl
      have hitems : pcrs.implemented ⟨item :: rest⟩ =
          (item.selected.filter fun slot =>
            (pcrs ⟨item.hashingAlgorithm, slot⟩).isSome).map
              (BankSlot.mk item.hashingAlgorithm) ++
            pcrs.implemented ⟨rest⟩ := by
        simp [implemented, PcrSelectionList.bankSlots, List.filter_map,
          Function.comp_def]
      have hsub : (pcrs.answered room item).Sublist item.selected :=
        (List.take_sublist _ _).trans List.filter_sublist
      rw [hreply, hitems, ih, PcrSelection.selected_restrict hsub,
        List.take_append, answered, List.map_take, List.length_map,
        List.length_take]
      congr 2
      omega

/-- It reads as it is documented. -/
theorem Pcrs.reads_read (pcrs : Pcrs) : Reads pcrs pcrs.read := by
  intro asked tpml htpml
  have hasked := PcrSelectionList.ofTpml_of_toTpml htpml
  have hslots := pcrs.bankSlots_replyItems 8 asked.items
  refine ⟨_, by unfold read; rw [hasked, ok_bind], ?_, ?_, ?_⟩
  · simp only [hslots]
    exact List.take_prefix _ _
  · simp only [hslots]
    intro hnonempty hnil
    rw [List.take_eq_nil_iff] at hnil
    exact hnil.elim (by decide) hnonempty
  · simp only [hslots]
    have hsome : ∀ bankSlot ∈ (pcrs.implemented ⟨asked.items⟩).take 8,
        (pcrs bankSlot).isSome = true := fun bankSlot hmem =>
      (List.mem_filter.mp (List.mem_of_mem_take hmem)).2
    generalize (pcrs.implemented ⟨asked.items⟩).take 8 = answered at hsome
    induction answered with
    | nil => rfl
    | cons first rest ih =>
        rw [List.forall_mem_cons] at hsome
        obtain ⟨digest, hdigest⟩ := Option.isSome_iff_exists.mp hsome.1
        rw [List.map_cons, List.filterMap_cons_some hdigest, List.map_cons,
          ih hsome.2, hdigest]

/-- Two slots of a bank. -/
def twoSlots : PcrSelectionList :=
  ⟨[⟨.sha256, ⟨.threeOctets, 5#32, by decide⟩⟩]⟩

/-- PCRs that change all the time. -/
def countingPcrs (turn : Nat) : Pcrs := fun _ =>
  some ⟨[.ofNat turn], by rw [List.length_singleton]; decide⟩

end Device

section Loop

variable {pcrs : Nat → Pcrs} {reads : Nat → PcrRead}
  {list left : PcrSelectionList} {data : PcrData} {turns : Nat}

/-- What holds after some turns: a slot is either left or has the digest that
its PCR had at one of the turns. -/
structure ReadSoFar (pcrs : Nat → Pcrs) (list : PcrSelectionList)
    (turns : Nat) (left : PcrSelectionList) (data : PcrData) : Prop where
  size : left.items.length ≤ PcrSelectionList.maxSize
  nodup : left.bankSlots.Nodup
  asked : ∀ bankSlot ∈ left.bankSlots, bankSlot ∈ list.bankSlots
  unread : ∀ bankSlot, data.digest? bankSlot = none ↔
    bankSlot ∈ left.bankSlots ∨ bankSlot ∉ list.bankSlots
  read : ∀ bankSlot digest, data.digest? bankSlot = some digest →
    ∃ turn < turns, pcrs turn bankSlot = some digest

/-- What a turn that goes through changes. -/
structure TurnOf (pcrs : Pcrs) (left next : PcrSelectionList) : Prop where
  noEmpty : ∀ item ∈ next.items, item.isEmpty = false
  length_le : next.bankSlots.length ≤ left.bankSlots.length
  shrinks : pcrs.implemented left ≠ [] →
    next.bankSlots.length < left.bankSlots.length
  keeps : ∀ bankSlot ∈ left.bankSlots, pcrs bankSlot = none →
    bankSlot ∈ next.bankSlots

/-- What a lookup gives for each key stands beside the key. -/
theorem eq_some_of_mem_zip {α β : Type} {lookup : α → Option β}
    {keys : List α} {values : List β}
    (hmap : keys.map lookup = values.map some) {key : α} {value : β}
    (hmem : (key, value) ∈ keys.zip values) : lookup key = some value := by
  induction keys generalizing values with
  | nil => simp at hmem
  | cons first rest ih =>
      cases values with
      | nil => simp at hmem
      | cons head tail =>
          rw [List.map_cons, List.map_cons, List.cons.injEq] at hmap
          rw [List.zip_cons_cons, List.mem_cons] at hmem
          rcases hmem with heq | hrest
          · cases heq
            exact hmap.1
          · exact ih hmap.2 hrest

theorem exists_mem_zip {α β : Type} {keys : List α} {values : List β}
    (hlen : keys.length ≤ values.length) {key : α} (hmem : key ∈ keys) :
    ∃ value, (key, value) ∈ keys.zip values := by
  rw [← List.map_fst_zip hlen, List.mem_map] at hmem
  obtain ⟨⟨found, value⟩, hin, heq⟩ := hmem
  exact ⟨value, heq ▸ hin⟩

/-- A turn takes the slots of the reply from those that are left. -/
theorem turn_spec (hread : Reads (pcrs turns) (reads turns))
    (hinv : ReadSoFar pcrs list turns left data)
    (hnonempty : left.items ≠ []) :
    ∃ tpml next later, left.toTpml = some tpml ∧
      ReadAll.turn (reads turns) tpml left data = .ok (next, later) ∧
      ReadSoFar pcrs list (turns + 1) next later ∧
      TurnOf (pcrs turns) left next := by
  obtain ⟨tpml, htpml, -⟩ := PcrSelectionList.exists_toTpml hinv.size
  obtain ⟨reply, hreply, hanswers⟩ := hread left tpml htpml
  have hsub : reply.selection.bankSlots.Sublist left.bankSlots :=
    hanswers.inOrder.sublist.trans List.filter_sublist
  have hlen : reply.selection.bankSlots.length = reply.digests.length := by
    simpa using congrArg List.length hanswers.digests
  obtain ⟨later, hadd, hdigests⟩ := PcrData.add_spec
    (hinv.nodup.sublist hsub) hlen.le fun bankSlot hmem =>
      (hinv.unread bankSlot).mpr (Or.inl (hsub.subset hmem))
  obtain ⟨next, hsubtract, hsize, hnodup, hcount, hmem, hitems⟩ :=
    PcrSelectionList.subtract_of_sublist hnonempty hinv.nodup hsub
  refine ⟨tpml, next, later, htpml, ?_, ?_, ?_⟩
  · unfold ReadAll.turn
    rw [hreply, ok_bind, hadd, ok_bind, hsubtract, ok_bind]
  · refine ⟨hsize.trans hinv.size, hnodup, fun bankSlot hin =>
      hinv.asked bankSlot ((hmem bankSlot).mp hin).1, fun bankSlot => ?_,
      fun bankSlot digest hdigest => ?_⟩
    · rw [Option.eq_none_iff_forall_ne_some]
      simp only [ne_eq, hdigests, not_or, hmem]
      constructor
      · intro hnone
        have hold : data.digest? bankSlot = none :=
          Option.eq_none_iff_forall_ne_some.mpr fun digest =>
            (hnone digest).2
        rcases (hinv.unread bankSlot).mp hold with hleft | hout
        · refine Or.inl ⟨hleft, fun hin => ?_⟩
          obtain ⟨digest, hzip⟩ := exists_mem_zip hlen.le hin
          exact (hnone digest).1 hzip
        · exact Or.inr hout
      · intro hwhere digest
        have hold : data.digest? bankSlot = none :=
          (hinv.unread bankSlot).mpr (hwhere.imp_left And.left)
        refine ⟨fun hzip => ?_, by rw [hold]; exact nofun⟩
        have hin := (List.of_mem_zip hzip).1
        rcases hwhere with ⟨-, hout⟩ | hout
        · exact hout hin
        · exact hout (hinv.asked bankSlot (hsub.subset hin))
    · rcases (hdigests bankSlot digest).mp hdigest with hzip | hold
      · exact ⟨turns, Nat.lt_succ_self _,
          eq_some_of_mem_zip hanswers.digests hzip⟩
      · obtain ⟨turn, hturn, hvalue⟩ := hinv.read bankSlot digest hold
        exact ⟨turn, Nat.lt_succ_of_lt hturn, hvalue⟩
  · refine ⟨hitems, by omega, fun himplemented => ?_,
      fun bankSlot hleft hnone => ?_⟩
    · have hpos := List.length_pos_of_ne_nil (hanswers.nonempty himplemented)
      omega
    · refine (hmem bankSlot).mpr ⟨hleft, fun hin => ?_⟩
      have hsome := (List.mem_filter.mp (hanswers.inOrder.subset hin)).2
      rw [hnone] at hsome
      cases hsome

theorem ReadSoFar.start (hsize : list.items.length ≤
    PcrSelectionList.maxSize) (hnodup : list.bankSlots.Nodup) :
    ReadSoFar pcrs list 0 list .new where
  size := hsize
  nodup := hnodup
  asked := fun _ hmem => hmem
  unread := by simp [em]
  read := by simp

/-- The loop goes on after a turn, as long as a selection is left. -/
theorem next_reading (hread : Reads (pcrs turns) (reads turns))
    (hinv : ReadSoFar pcrs list turns left data)
    (hnonempty : left.items ≠ []) :
    ∃ next later, (ReadAll.reading left data).next (reads turns) =
        .resume next later ∧
      ReadSoFar pcrs list (turns + 1) next later ∧
      TurnOf (pcrs turns) left next := by
  obtain ⟨tpml, next, later, htpml, hturn, hnext, hof⟩ :=
    turn_spec hread hinv hnonempty
  refine ⟨next, later, ?_, hnext, hof⟩
  simp only [ReadAll.next, htpml, hturn]

theorem resume_of_nil (hnil : left.items = []) :
    ReadAll.resume left data = .done data := by
  simp [ReadAll.resume, PcrSelectionList.isEmpty, hnil]

theorem resume_of_ne_nil (hnonempty : left.items ≠ []) :
    ReadAll.resume left data = .reading left data := by
  simp [ReadAll.resume, PcrSelectionList.isEmpty, hnonempty]

/-- Selections that are not empty have slots. -/
theorem bankSlots_eq_nil_iff
    (hitems : ∀ item ∈ left.items, item.isEmpty = false) :
    left.bankSlots = [] ↔ left.items = [] := by
  unfold PcrSelectionList.bankSlots
  rw [List.flatMap_eq_nil_iff]
  constructor
  · intro hall
    rw [List.eq_nil_iff_forall_not_mem]
    intro item hitem
    have hselected : item.selected = [] := List.map_eq_nil_iff.mp
      (hall item hitem)
    have hempty := PcrSelection.isEmpty_iff.mpr hselected
    rw [hitems item hitem] at hempty
    cases hempty
  · intro hnil
    simp [hnil]

/-- After some turns the loop is done with every slot, or goes on with what
is left.  Only the list as it is given may have empty selections. -/
inductive Turned (pcrs : Nat → Pcrs) (list : PcrSelectionList)
    (turns : Nat) : ReadAll → Prop
  | done {left : PcrSelectionList} {data : PcrData} :
      ReadSoFar pcrs list turns left data → left.bankSlots = [] →
      Turned pcrs list turns (.done data)
  | reading {left : PcrSelectionList} {data : PcrData} :
      ReadSoFar pcrs list turns left data → left.items ≠ [] →
      (left = list ∧ turns = 0 ∨ left.bankSlots ≠ []) →
      Turned pcrs list turns (.reading left data)

theorem ReadSoFar.mono {more : Nat} (hle : turns ≤ more)
    (hinv : ReadSoFar pcrs list turns left data) :
    ReadSoFar pcrs list more left data :=
  { hinv with
    read := fun bankSlot digest hdigest => by
      obtain ⟨turn, hturn, hvalue⟩ := hinv.read bankSlot digest hdigest
      exact ⟨turn, hturn.trans_le hle, hvalue⟩ }

theorem readAll_turned (hsize : list.items.length ≤
    PcrSelectionList.maxSize) (hnodup : list.bankSlots.Nodup)
    (hreads : ∀ turn, Reads (pcrs turn) (reads turn)) (turns : Nat) :
    Turned pcrs list turns (readAll reads list turns) := by
  induction turns with
  | zero =>
      have hstart : ReadSoFar pcrs list 0 list .new := .start hsize hnodup
      unfold readAll
      by_cases hnil : list.items = []
      · rw [resume_of_nil hnil]
        exact .done hstart (by simp [PcrSelectionList.bankSlots, hnil])
      · rw [resume_of_ne_nil hnil]
        exact .reading hstart hnil (Or.inl ⟨rfl, rfl⟩)
  | succ turns ih =>
      unfold readAll
      generalize readAll reads list turns = state at ih ⊢
      cases ih with
      | done hinv hnil => exact .done (hinv.mono (Nat.le_succ _)) hnil
      | reading hinv hnonempty hwhere =>
          obtain ⟨next, later, hnext, hlater, hof⟩ :=
            next_reading (hreads turns) hinv hnonempty
          rw [hnext]
          by_cases hnil : next.items = []
          · rw [resume_of_nil hnil]
            exact .done hlater ((bankSlots_eq_nil_iff hof.noEmpty).mpr hnil)
          · rw [resume_of_ne_nil hnil]
            exact .reading hlater hnil (Or.inr fun hslots =>
              hnil ((bankSlots_eq_nil_iff hof.noEmpty).mp hslots))

/-- Every slot of the list is implemented, at any time. -/
def Implements (pcrs : Nat → Pcrs) (list : PcrSelectionList) : Prop :=
  ∀ turn, ∀ bankSlot ∈ list.bankSlots, (pcrs turn bankSlot).isSome = true

theorem implemented_of_implements (hall : Implements pcrs list)
    (hinv : ReadSoFar pcrs list turns left data) :
    (pcrs turns).implemented left = left.bankSlots :=
  List.filter_eq_self.mpr fun bankSlot hmem =>
    hall turns bankSlot (hinv.asked bankSlot hmem)

/-- While the loop goes on, each turn has taken a slot. -/
theorem length_add_le_of_reading (hsize : list.items.length ≤
    PcrSelectionList.maxSize) (hnodup : list.bankSlots.Nodup)
    (hreads : ∀ turn, Reads (pcrs turn) (reads turn))
    (hall : Implements pcrs list) {turns : Nat} {left : PcrSelectionList}
    {data : PcrData}
    (hreading : readAll reads list turns = .reading left data) :
    left.bankSlots.length + turns ≤ list.bankSlots.length := by
  induction turns generalizing left data with
  | zero =>
      unfold readAll ReadAll.resume at hreading
      split at hreading
      · cases hreading
      · cases hreading
        exact le_refl _
  | succ turns ih =>
      have hturned := readAll_turned hsize hnodup hreads turns
      unfold readAll at hreading
      generalize hstate : readAll reads list turns = state
        at hturned hreading ih
      cases hturned with
      | done hinv hnil => cases hreading
      | @reading before _ hinv hnonempty hwhere =>
          obtain ⟨next, later, hnext, -, hof⟩ :=
            next_reading (hreads turns) hinv hnonempty
          have hbefore := ih rfl
          rw [hnext] at hreading
          unfold ReadAll.resume at hreading
          split at hreading
          · cases hreading
          · rename_i hleft
            cases hreading
            by_cases hslots : before.bankSlots = []
            · have hnone : left.bankSlots = [] := by
                have hlen := hof.length_le
                rw [hslots] at hlen
                exact List.length_eq_zero_iff.mp (Nat.le_zero.mp hlen)
              rw [bankSlots_eq_nil_iff hof.noEmpty] at hnone
              exact absurd (by simp [PcrSelectionList.isEmpty, hnone]) hleft
            · have hshrinks := hof.shrinks (by
                rwa [implemented_of_implements hall hinv])
              omega

theorem readAll_add_of_done (hdone : readAll reads list turns = .done data)
    (more : Nat) : readAll reads list (turns + more) = .done data := by
  induction more with
  | zero => exact hdone
  | succ more ih =>
      rw [← Nat.add_assoc, readAll, ih]
      rfl

/-- After one turn for each slot, and one more, every slot has been read. -/
theorem readAll_finishes (hsize : list.items.length ≤
    PcrSelectionList.maxSize) (hnodup : list.bankSlots.Nodup)
    (hreads : ∀ turn, Reads (pcrs turn) (reads turn))
    (hall : Implements pcrs list) :
    ∃ left data, (∀ turns, list.bankSlots.length < turns →
        readAll reads list turns = .done data) ∧
      ReadSoFar pcrs list (list.bankSlots.length + 1) left data ∧
      left.bankSlots = [] := by
  have hturned := readAll_turned hsize hnodup hreads
    (list.bankSlots.length + 1)
  generalize hstate : readAll reads list (list.bankSlots.length + 1) = state
    at hturned
  cases hturned with
  | reading hinv hnonempty hwhere =>
      have hle := length_add_le_of_reading hsize hnodup hreads hall hstate
      omega
  | @done left data hinv hnil =>
      refine ⟨left, data, fun turns hturns => ?_, hinv, hnil⟩
      obtain ⟨more, rfl⟩ := Nat.exists_eq_add_of_lt hturns
      rw [show list.bankSlots.length + more + 1 =
        list.bankSlots.length + 1 + more by omega]
      exact readAll_add_of_done hstate more

/-- A slot that was asked for, and is not left, has been read at a turn. -/
theorem ReadSoFar.exists_turn (hinv : ReadSoFar pcrs list turns left data)
    (hnil : left.bankSlots = []) {bankSlot : BankSlot}
    (hmem : bankSlot ∈ list.bankSlots) :
    ∃ digest, data.digest? bankSlot = some digest ∧
      ∃ turn < turns, pcrs turn bankSlot = some digest := by
  have hread : data.digest? bankSlot ≠ none := fun hnone => by
    rcases (hinv.unread bankSlot).mp hnone with hleft | hout
    · simp [hnil] at hleft
    · exact hout hmem
  obtain ⟨digest, hdigest⟩ := Option.ne_none_iff_exists'.mp hread
  exact ⟨digest, hdigest, hinv.read bankSlot digest hdigest⟩

/-- Whatever happens to the PCRs between the reads: after one turn for each
slot, and one more, every slot has been read, with the digest that its PCR had
at one of the turns, and no other slot. -/
theorem readAll_complete (hsize : list.items.length ≤
    PcrSelectionList.maxSize) (hnodup : list.bankSlots.Nodup)
    (hreads : ∀ turn, Reads (pcrs turn) (reads turn))
    (hall : Implements pcrs list) :
    ∃ data, (∀ turns, list.bankSlots.length < turns →
        readAll reads list turns = .done data) ∧
      ∀ bankSlot,
        (bankSlot ∈ list.bankSlots → ∃ turn ≤ list.bankSlots.length,
          (data.digest? bankSlot).isSome = true ∧
            data.digest? bankSlot = pcrs turn bankSlot) ∧
        (bankSlot ∉ list.bankSlots → data.digest? bankSlot = none) := by
  obtain ⟨left, data, hdone, hinv, hnil⟩ :=
    readAll_finishes hsize hnodup hreads hall
  refine ⟨data, hdone, fun bankSlot => ⟨fun hmem => ?_, fun hout =>
    (hinv.unread bankSlot).mpr (Or.inr hout)⟩⟩
  obtain ⟨digest, hdigest, turn, hturn, hvalue⟩ :=
    hinv.exists_turn hnil hmem
  refine ⟨turn, Nat.lt_succ_iff.mp hturn, ?_, ?_⟩
  · rw [hdigest]
    rfl
  · rw [hdigest, hvalue]

theorem readAll_complete_counting :
    ∃ data, (∀ turns, twoSlots.bankSlots.length < turns →
        readAll (fun turn => (countingPcrs turn).read) twoSlots turns =
          .done data) ∧
      ∀ bankSlot,
        (bankSlot ∈ twoSlots.bankSlots →
          ∃ turn ≤ twoSlots.bankSlots.length,
            (data.digest? bankSlot).isSome = true ∧
              data.digest? bankSlot = countingPcrs turn bankSlot) ∧
        (bankSlot ∉ twoSlots.bankSlots → data.digest? bankSlot = none) :=
  readAll_complete (by decide) (by decide)
    (fun turn => (countingPcrs turn).reads_read) fun _ _ _ => rfl

/-- A slot that the TPM lacks is left at every turn. -/
theorem reading_of_unimplemented (hsize : list.items.length ≤
    PcrSelectionList.maxSize) (hnodup : list.bankSlots.Nodup)
    (hreads : ∀ turn, Reads (pcrs turn) (reads turn)) {bankSlot : BankSlot}
    (hmem : bankSlot ∈ list.bankSlots)
    (hlacks : ∀ turn, pcrs turn bankSlot = none) (turns : Nat) :
    ∃ left data, readAll reads list turns = .reading left data ∧
      bankSlot ∈ left.bankSlots := by
  have hitems : ∀ left : PcrSelectionList, bankSlot ∈ left.bankSlots →
      left.items ≠ [] := by
    intro left hleft hnil
    simp [PcrSelectionList.bankSlots, hnil] at hleft
  induction turns with
  | zero => exact ⟨list, .new, resume_of_ne_nil (hitems list hmem), hmem⟩
  | succ turns ih =>
      obtain ⟨left, data, hreading, hleft⟩ := ih
      have hturned := readAll_turned hsize hnodup hreads turns
      rw [hreading] at hturned
      cases hturned with
      | reading hinv hnonempty hwhere =>
          obtain ⟨next, later, hnext, -, hof⟩ :=
            next_reading (hreads turns) hinv hnonempty
          have hkept := hof.keeps bankSlot hleft (hlacks turns)
          refine ⟨next, later, ?_, hkept⟩
          rw [readAll, hreading, hnext, resume_of_ne_nil (hitems next hkept)]

/-- The loop ends when the TPM implements every slot that it is asked for,
and never ends otherwise; it does not fail. -/
theorem readAll_returns_iff (hsize : list.items.length ≤
    PcrSelectionList.maxSize) (hnodup : list.bankSlots.Nodup)
    (hreads : ∀ turn, Reads (pcrs turn) (reads turn))
    (hbanks : ∀ turn bankSlot,
      (pcrs turn bankSlot).isSome = (pcrs 0 bankSlot).isSome) :
    ((∃ turns data, readAll reads list turns = .done data) ↔
      ∀ bankSlot ∈ list.bankSlots, (pcrs 0 bankSlot).isSome = true) ∧
    ∀ turns, (∀ error, readAll reads list turns ≠ .failed error) ∧
      readAll reads list turns ≠ .panicked := by
  refine ⟨⟨?_, fun hall => ?_⟩, fun turns => ?_⟩
  · rintro ⟨turns, data, hdone⟩ bankSlot hmem
    by_contra hlacks
    have hnone : ∀ turn, pcrs turn bankSlot = none := fun turn => by
      rw [← Option.not_isSome_iff_eq_none, hbanks]
      exact hlacks
    obtain ⟨left, read, hreading, -⟩ :=
      reading_of_unimplemented hsize hnodup hreads hmem hnone turns
    rw [hdone] at hreading
    cases hreading
  · have himplements : Implements pcrs list := fun turn bankSlot hmem => by
      rw [hbanks]
      exact hall bankSlot hmem
    obtain ⟨-, data, hdone, -⟩ :=
      readAll_finishes hsize hnodup hreads himplements
    exact ⟨_, data, hdone _ (Nat.lt_succ_self _)⟩
  · have hturned := readAll_turned hsize hnodup hreads turns
    generalize readAll reads list turns = state at hturned
    cases hturned <;> simp

theorem readAll_returns_iff_counting :
    ((∃ turns data, readAll (fun turn => (countingPcrs turn).read) twoSlots
        turns = .done data) ↔
      ∀ bankSlot ∈ twoSlots.bankSlots,
        (countingPcrs 0 bankSlot).isSome = true) ∧
    ∀ turns, (∀ error, readAll (fun turn => (countingPcrs turn).read)
        twoSlots turns ≠ .failed error) ∧
      readAll (fun turn => (countingPcrs turn).read) twoSlots turns ≠
        .panicked :=
  readAll_returns_iff (by decide) (by decide)
    (fun turn => (countingPcrs turn).reads_read) fun _ _ => rfl

end Loop

end Vtpm

end Kettle
