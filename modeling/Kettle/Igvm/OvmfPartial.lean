/-
What OVMF metadata that are missing or cut off leave behind: the footer that
is accepted without its GUID, and the front of a list that runs off the image.
-/
import Mathlib.Data.List.Flatten
import Kettle.Igvm.OvmfTable

namespace Kettle

namespace Igvm

universe u v

/-- Two concatenations agree where each part of one is a part of the other's
only if the parts agree. -/
theorem flatMap_eq_iff_of_sublist {α : Type u} {β : Type v}
    {f g : α → List β} {l : List α} (hsub : ∀ a ∈ l, (g a).Sublist (f a)) :
    l.flatMap f = l.flatMap g ↔ ∀ a ∈ l, f a = g a := by
  constructor
  · intro heq
    induction l with
    | nil => intro a ha; cases ha
    | cons a l ih =>
        rw [List.flatMap_cons, List.flatMap_cons] at heq
        have hhead := hsub a List.mem_cons_self
        have htail : (l.flatMap g).length ≤ (l.flatMap f).length :=
          (List.Sublist.flatMap_right l fun b hb =>
            hsub b (List.mem_cons_of_mem a hb)).length_le
        have hlength := congrArg List.length heq
        rw [List.length_append, List.length_append] at hlength
        have hsame : f a = g a :=
          (hhead.eq_of_length (by have := hhead.length_le; omega)).symm
        rw [hsame] at heq
        have hrest := ih (fun b hb => hsub b (List.mem_cons_of_mem a hb))
          (List.append_cancel_left heq)
        exact List.forall_mem_cons.mpr ⟨hsame, hrest⟩
  · intro hall
    exact List.flatMap_congr hall

section Descriptors

/-- The size of the descriptor `i` of a list. -/
def descriptorSize (list : Bytes) (i : Nat) : Nat :=
  Bytes.toNatLE (list.slice (16 + 12 * i + 4) 4)

/-- The region of the descriptor `i` of a list, by its place in the bytes. -/
def descriptorAt (newType : Nat → OvmfRegionType) (list : Bytes) (i : Nat) :
    Option OvmfRegion :=
  if descriptorSize list i ≠ 0 then
    some ⟨Bytes.toNatLE (list.slice (16 + 12 * i) 4), descriptorSize list i,
      newType (Bytes.toNatLE (list.slice (16 + 12 * i + 8) 4))⟩
  else none

/-- How many descriptors the bytes of a list hold. -/
def descriptorsHeld (list : Bytes) : Nat :=
  (list.length - 16) / 12

/-- The head and all the descriptors it counts are inside the image. -/
def ListComplete (list : Bytes) : Prop :=
  16 + 12 * listEntries list ≤ list.length

instance (list : Bytes) : Decidable (ListComplete list) :=
  inferInstanceAs (Decidable (_ ≤ _))

theorem readEntry_drop (list : Bytes) (i : Nat) :
    readEntry (list.drop (16 + 12 * i)) =
      if i < descriptorsHeld list then
        some ((Bytes.toNatLE (list.slice (16 + 12 * i) 4),
          descriptorSize list i,
          Bytes.toNatLE (list.slice (16 + 12 * i + 8) 4)),
          list.drop (16 + 12 * (i + 1)))
      else none := by
  have hheld : (list.drop (16 + 12 * i)).length < 12 ↔
      ¬ i < descriptorsHeld list := by
    rw [List.length_drop, descriptorsHeld]
    omega
  unfold readEntry
  by_cases hin : i < descriptorsHeld list
  · rw [if_neg (fun h => hheld.mp h hin), if_pos hin]
    simp only [Bytes.slice, List.drop_drop, descriptorSize]
    rfl
  · rw [if_pos (hheld.mpr hin), if_neg hin]

/-- The entry loop reads the descriptors that are counted and there. -/
theorem readRegions_drop (newType : Nat → OvmfRegionType) (list : Bytes)
    (entries i : Nat) :
    readRegions newType entries (list.drop (16 + 12 * i)) [] =
      (List.range' i (min entries (descriptorsHeld list - i))).filterMap
        (descriptorAt newType list) := by
  induction entries generalizing i with
  | zero => rw [Nat.zero_min]; rfl
  | succ entries ih =>
      rw [readRegions, readEntry_drop]
      by_cases hin : i < descriptorsHeld list
      · have hcount : min (entries + 1) (descriptorsHeld list - i) =
            min entries (descriptorsHeld list - (i + 1)) + 1 := by
          omega
        rw [if_pos hin, hcount, List.range'_succ]
        dsimp only
        by_cases hsize : descriptorSize list i ≠ 0
        · have hat : descriptorAt newType list i = some _ := if_pos hsize
          rw [if_pos hsize, readRegions_append, ih,
            List.filterMap_cons_some hat]
          rfl
        · have hat : descriptorAt newType list i = none := if_neg hsize
          rw [if_neg hsize, ih, List.filterMap_cons_none hat]
      · have hcount : min (entries + 1) (descriptorsHeld list - i) = 0 := by
          omega
        rw [if_neg hin, hcount]
        rfl

/-- The regions of the list that a block points to, if the list is complete:
those of all its descriptors. -/
def wholeRegions (firmware : Bytes) (block : OvmfBlock) :
    List OvmfRegion :=
  match listType block.1, listAt firmware block.2 with
  | some newType, some list =>
      if ListComplete list then
        (List.range (listEntries list)).filterMap (descriptorAt newType list)
      else []
  | _, _ => []

/-- A block whose list runs off the image with its head inside. -/
def PointsToCutList (firmware : Bytes) (block : OvmfBlock) (list : Bytes) :
    Prop :=
  listType block.1 ≠ none ∧ listAt firmware block.2 = some list ∧
    ¬ ListComplete list

theorem blockRegions_eq_of_list {firmware : Bytes} {block : OvmfBlock}
    {newType : Nat → OvmfRegionType} {list : Bytes}
    (htype : listType block.1 = some newType)
    (hlist : listAt firmware block.2 = some list) :
    blockRegions firmware block =
      (List.range (min (listEntries list) (descriptorsHeld list))).filterMap
        (descriptorAt newType list) := by
  have hread := readRegions_drop newType list (listEntries list) 0
  rw [Nat.mul_zero, Nat.add_zero, Nat.sub_zero, ← List.range_eq_range']
    at hread
  simp only [blockRegions, htype, hlist]
  by_cases hshort : list.length < 16
  · have hnone : descriptorsHeld list = 0 := by
      rw [descriptorsHeld]
      omega
    rw [if_pos hshort, hnone, Nat.min_zero]
    rfl
  · rw [if_neg hshort, hread]

theorem wholeRegions_sublist (firmware : Bytes) (block : OvmfBlock) :
    (wholeRegions firmware block).Sublist (blockRegions firmware block) := by
  cases htype : listType block.1 with
  | none => simp only [wholeRegions, htype, List.nil_sublist]
  | some newType =>
      cases hlist : listAt firmware block.2 with
      | none => simp only [wholeRegions, htype, hlist, List.nil_sublist]
      | some list =>
          rw [blockRegions_eq_of_list htype hlist]
          simp only [wholeRegions, htype, hlist]
          split
          · rename_i hcomplete
            rw [Nat.min_eq_left (by
              rw [ListComplete] at hcomplete
              rw [descriptorsHeld]
              omega)]
          · exact List.nil_sublist _

/-- A block adds no part of a list exactly when the descriptors before the
cut have no size. -/
theorem blockRegions_eq_wholeRegions_iff (firmware : Bytes)
    (block : OvmfBlock) :
    blockRegions firmware block = wholeRegions firmware block ↔
      ∀ list, PointsToCutList firmware block list →
        ∀ i, i < descriptorsHeld list → descriptorSize list i = 0 := by
  cases htype : listType block.1 with
  | none =>
      simp only [blockRegions, wholeRegions, htype, PointsToCutList, ne_eq,
        not_true, false_and, false_implies, implies_true]
  | some newType =>
      cases hlist : listAt firmware block.2 with
      | none =>
          simp only [blockRegions, wholeRegions, PointsToCutList, htype,
            hlist, reduceCtorEq, false_and, and_false, false_implies,
            implies_true]
      | some list =>
          rw [blockRegions_eq_of_list htype hlist]
          simp only [wholeRegions, PointsToCutList, htype, hlist, ne_eq,
            reduceCtorEq, not_false_eq_true, Option.some.injEq, true_and]
          by_cases hcomplete : ListComplete list
          · have hmin : min (listEntries list) (descriptorsHeld list) =
                listEntries list := by
              rw [ListComplete] at hcomplete
              rw [descriptorsHeld]
              omega
            rw [if_pos hcomplete, hmin]
            simp only [true_iff]
            rintro _ ⟨rfl, hcut⟩
            exact absurd hcomplete hcut
          · have hmin : min (listEntries list) (descriptorsHeld list) =
                descriptorsHeld list := by
              rw [ListComplete] at hcomplete
              rw [descriptorsHeld]
              omega
            rw [if_neg hcomplete, hmin, List.filterMap_eq_nil_iff]
            constructor
            · rintro hnone _ ⟨rfl, -⟩ i hi
              have hat := hnone i (List.mem_range.mpr hi)
              by_contra hsize
              rw [descriptorAt, if_pos hsize] at hat
              cases hat
            · intro hzero i hi
              have hsize := hzero list ⟨rfl, hcomplete⟩ i
                (List.mem_range.mp hi)
              rw [descriptorAt, if_neg (not_not.mpr hsize)]

end Descriptors

section Footer

/-- The 16 bytes of the footer's GUID, 0x20 bytes before the end, are the
GUID of a table. -/
def CarriesTableGuid (firmware : Bytes) : Prop :=
  0x30 ≤ firmware.length ∧
    firmware.slice (firmware.length - 0x30) 16 = ovmfMetaList

instance (firmware : Bytes) : Decidable (CarriesTableGuid firmware) :=
  inferInstanceAs (Decidable (_ ∧ _))

/-- The size field of the footer. -/
def footerSize (firmware : Bytes) : Nat :=
  Bytes.toNatLE (firmware.slice (firmware.length - 0x32) 2)

/-- The footer is inside the image, and so is what its size covers. -/
def FooterReads (firmware : Bytes) : Prop :=
  0x32 ≤ firmware.length ∧ ovmfMetaBlockSize ≤ footerSize firmware ∧
    footerSize firmware ≤ firmware.length - 0x20

instance (firmware : Bytes) : Decidable (FooterReads firmware) :=
  inferInstanceAs (Decidable (_ ∧ _))

/-- The last block of a blob, by its place in the bytes. -/
theorem metaBlk_eq (blob : Bytes) :
    metaBlk blob =
      if ovmfMetaBlockSize ≤ Bytes.toNatLE (blob.slice (blob.length - 18) 2) ∧
        Bytes.toNatLE (blob.slice (blob.length - 18) 2) ≤ blob.length ∧
        18 ≤ blob.length
      then some (blob.drop (blob.length - 16),
        (blob.take (blob.length - 18)).drop (blob.length -
          Bytes.toNatLE (blob.slice (blob.length - 18) 2)),
        blob.take (blob.length -
          Bytes.toNatLE (blob.slice (blob.length - 18) 2)))
      else none := by
  unfold metaBlk
  by_cases hshort : blob.length < ovmfMetaBlockSize
  · rw [if_pos hshort, if_neg]
    rw [ovmfMetaBlockSize] at hshort
    omega
  · have hguid : (blob.drop (blob.length - ovmfMetaBlockSize)).drop 2 =
        blob.drop (blob.length - 16) := by
      rw [ovmfMetaBlockSize] at hshort ⊢
      rw [List.drop_drop]
      congr 1
      omega
    have hdata : (blob.take (blob.length - ovmfMetaBlockSize)).length =
        blob.length - 18 := by
      rw [List.length_take, ovmfMetaBlockSize]
      omega
    rw [if_neg hshort]
    simp only [hguid, hdata]
    rw [Bytes.slice, ← ovmfMetaBlockSize]
    generalize Bytes.toNatLE ((blob.drop (blob.length -
      ovmfMetaBlockSize)).take 2) = size
    rw [ovmfMetaBlockSize] at hshort ⊢
    by_cases hsmall : size < 18
    · rw [if_pos hsmall, if_neg (by omega)]
    · by_cases hfits : size ≤ blob.length
      · have hat : blob.length - 18 - (size - 18) = blob.length - size := by
          omega
        rw [if_neg hsmall, if_neg (by omega), if_pos (by omega), hat,
          List.take_take, Nat.min_eq_left (by omega)]
      · rw [if_neg hsmall, if_pos (by omega), if_neg (by omega)]

/-- The footer block, when it can be read, with the GUID in its place. -/
theorem metaBlk_footer (firmware : Bytes) :
    (FooterReads firmware → ∃ blocks rest,
      metaBlk (firmware.take (firmware.length - 0x20)) =
        some (firmware.slice (firmware.length - 0x30) 16, blocks, rest)) ∧
    (¬ FooterReads firmware →
      metaBlk (firmware.take (firmware.length - 0x20)) = none) := by
  have hlength : (firmware.take (firmware.length - 0x20)).length =
      firmware.length - 0x20 := by
    rw [List.length_take]
    omega
  rw [metaBlk_eq, hlength]
  by_cases hshort : firmware.length < 0x32
  · refine ⟨fun h => absurd h.1 (by omega), fun _ => if_neg ?_⟩
    rw [ovmfMetaBlockSize]
    omega
  · have hsize : Bytes.slice (firmware.take (firmware.length - 0x20))
        (firmware.length - 0x20 - 18) 2 =
          firmware.slice (firmware.length - 0x32) 2 := by
      have hat : firmware.length - 0x20 - 18 = firmware.length - 0x32 := by
        omega
      rw [Bytes.slice, Bytes.slice, List.drop_take, hat, List.take_take,
        Nat.min_eq_left (by omega)]
    have hguid : (firmware.take (firmware.length - 0x20)).drop
        (firmware.length - 0x20 - 16) =
          firmware.slice (firmware.length - 0x30) 16 := by
      have hat : firmware.length - 0x20 - 16 = firmware.length - 0x30 := by
        omega
      rw [Bytes.slice, List.drop_take, hat]
      congr 1
      omega
    rw [hsize, hguid, ← footerSize]
    constructor
    · rintro ⟨hlong, hsmall, hfits⟩
      rw [if_pos ⟨hsmall, hfits, by omega⟩]
      exact ⟨_, _, rfl⟩
    · intro hreads
      exact if_neg fun h => hreads ⟨by omega, h.1, h.2.1⟩

/-- Without a footer that can be read there is no metadata. -/
theorem OvmfMeta.new_eq_none_iff (firmware : Bytes) :
    OvmfMeta.new firmware = none ↔ ¬ FooterReads firmware := by
  obtain ⟨hread, hunread⟩ := metaBlk_footer firmware
  rw [OvmfMeta.new_eq]
  by_cases hreads : FooterReads firmware
  · obtain ⟨blocks, rest, hblk⟩ := hread hreads
    have hlong : ¬ firmware.length < 0x20 := by
      have := hreads.1
      omega
    simp only [if_neg hlong, hblk, Option.map_some, reduceCtorEq, hreads,
      not_true]
  · simp only [hunread hreads, Option.map_none, ite_self, hreads,
      not_false_eq_true]

theorem OvmfMeta.regions_of_new {firmware : Bytes} {ovmfmeta : OvmfMeta}
    (hnew : OvmfMeta.new firmware = some ovmfmeta) :
    ovmfmeta.regions =
      (tableBlocks firmware).flatMap (blockRegions firmware) := by
  rw [OvmfMeta.new_eq] at hnew
  split at hnew
  · cases hnew
  · obtain ⟨_, -, hmeta⟩ := Option.map_eq_some_iff.mp hnew
    rw [← hmeta]

end Footer

/-- No metadata without the GUID of a table, and of each list all the
descriptors or none. -/
structure NeverHalfApplied (firmware : Bytes) : Prop where
  footer : ¬ CarriesTableGuid firmware → OvmfMeta.new firmware = none
  lists : ∀ ovmfmeta, OvmfMeta.new firmware = some ovmfmeta →
    ovmfmeta.regions =
      (tableBlocks firmware).flatMap (wholeRegions firmware)

/-- That is so exactly when a footer without the GUID cannot be read at all,
and no descriptor before the cut of a list has a size. -/
theorem neverHalfApplied_iff (firmware : Bytes) :
    NeverHalfApplied firmware ↔
      (CarriesTableGuid firmware ∨ ¬ FooterReads firmware) ∧
        ∀ block ∈ tableBlocks firmware, ∀ list,
          PointsToCutList firmware block list →
            ∀ i, i < descriptorsHeld list → descriptorSize list i = 0 := by
  have hlists : (∀ block ∈ tableBlocks firmware, ∀ list,
      PointsToCutList firmware block list →
        ∀ i, i < descriptorsHeld list → descriptorSize list i = 0) ↔
      (tableBlocks firmware).flatMap (blockRegions firmware) =
        (tableBlocks firmware).flatMap (wholeRegions firmware) := by
    rw [flatMap_eq_iff_of_sublist fun block _ =>
      wholeRegions_sublist firmware block]
    exact forall₂_congr fun block _ =>
      (blockRegions_eq_wholeRegions_iff firmware block).symm
  rw [hlists]
  constructor
  · rintro ⟨hfooter, hwhole⟩
    rw [OvmfMeta.new_eq_none_iff] at hfooter
    refine ⟨or_iff_not_imp_left.mpr hfooter, ?_⟩
    cases hnew : OvmfMeta.new firmware with
    | some ovmfmeta =>
        rw [← OvmfMeta.regions_of_new hnew]
        exact hwhole ovmfmeta hnew
    | none =>
        have hnone := (metaBlk_footer firmware).2
          ((OvmfMeta.new_eq_none_iff firmware).mp hnew)
        unfold tableBlocks
        simp only [hnone, List.flatMap_nil]
  · rintro ⟨hfooter, hsame⟩
    refine ⟨fun hguid => ?_, fun ovmfmeta hnew => ?_⟩
    · exact (OvmfMeta.new_eq_none_iff firmware).mpr
        (hfooter.resolve_left hguid)
    · rw [OvmfMeta.regions_of_new hnew, hsame]

/-- A footer without a GUID, and nothing else. -/
def namelessFirmware : Bytes :=
  Bytes.ofNatLE 2 18 ++ List.replicate 16 0 ++ List.replicate 32 0

/-- One descriptor of a list that counts more of them than the image holds. -/
def cutListFirmware : Bytes :=
  List.replicate 12 0 ++ Bytes.ofNatLE 4 1000 ++
    OvmfDescriptor.encode ⟨0x800000, 0x1000, 3⟩ ++
    (Bytes.ofNatLE 4 100 ++ (Bytes.ofNatLE 2 22 ++ ovmfMetaSevList)) ++
    (Bytes.ofNatLE 2 40 ++ ovmfMetaList) ++ List.replicate 32 0

theorem not_neverHalfApplied_samples :
    ¬ NeverHalfApplied namelessFirmware ∧
      ¬ NeverHalfApplied cutListFirmware := by
  constructor
  · intro h
    have hnone := h.footer (by decide)
    revert hnone
    decide
  · intro h
    have hwhole : (OvmfMeta.new cutListFirmware).all fun m =>
        decide (m.regions = []) := by
      cases hnew : OvmfMeta.new cutListFirmware with
      | none => rfl
      | some ovmfmeta =>
          have hnone : (tableBlocks cutListFirmware).flatMap
              (wholeRegions cutListFirmware) = [] := by
            decide +kernel
          rw [Option.all_some, h.lists ovmfmeta hnew, hnone]
          rfl
    revert hwhole
    decide +kernel

end Igvm

end Kettle
