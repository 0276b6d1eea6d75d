/-
The table at the tail of an OVMF image, written entry by entry: what the
backward walk of `OvmfMeta.new` visits, and what it makes of each entry.
-/
import Kettle.Lib.Walk
import Kettle.Igvm.OvmfMeta

namespace Kettle

namespace Igvm

/-- A block as the walk finds it: its GUID and its data. -/
abbrev OvmfBlock := Guid × Bytes

/-- One step of the walk, from the bytes that are left. -/
def nextBlk (blob : Bytes) : Option (OvmfBlock × Bytes) :=
  (metaBlk blob).map fun (guid, blk, rest) => ((guid, blk), rest)

/-- The blocks that the walk of a table visits, the last one first. -/
def visitedBlocks (blob : Bytes) : List OvmfBlock :=
  walked nextBlk blob.length blob

/-- Each step takes the 18 bytes of a size and a GUID at least. -/
theorem nextBlk_shrinks (blob : Bytes) (block : OvmfBlock) (rest : Bytes)
    (hstep : nextBlk blob = some (block, rest)) :
    rest.length + ovmfMetaBlockSize ≤ blob.length := by
  unfold nextBlk metaBlk at hstep
  split at hstep
  · cases hstep
  · rename_i hlong
    dsimp only at hstep
    split at hstep
    · cases hstep
    · split at hstep
      · cases hstep
      · obtain ⟨-, hrest⟩ := Prod.mk.inj (Option.some.inj hstep)
        rw [← hrest]
        simp only [List.length_take]
        omega

/-- The walk ends on every byte string. -/
theorem walk_visitedBlocks (blob : Bytes) :
    Walk nextBlk blob (visitedBlocks blob) ∧
      (visitedBlocks blob).length * ovmfMetaBlockSize ≤ blob.length := by
  have hsize : 0 < ovmfMetaBlockSize := by decide
  obtain ⟨blocks, hwalk, hlength⟩ := Walk.exists_of_shrinks nextBlk
    List.length hsize nextBlk_shrinks blob
  have hturns : blocks.length ≤ blob.length :=
    le_trans (Nat.le_mul_of_pos_right _ (by decide)) hlength
  rw [visitedBlocks, hwalk.walked_eq hturns]
  exact ⟨hwalk, hlength⟩

theorem parseBlocks_eq_foldl (turns : Nat) (ovmfmeta : OvmfMeta)
    (blob : Bytes) :
    OvmfMeta.parseBlocks turns ovmfmeta blob =
      (walked nextBlk turns blob).foldl
        (fun m (block : OvmfBlock) => m.parseBlk block.1 block.2)
        ovmfmeta := by
  induction turns generalizing ovmfmeta blob with
  | zero => rfl
  | succ turns ih =>
      unfold OvmfMeta.parseBlocks walked nextBlk
      cases metaBlk blob with
      | none => rfl
      | some found =>
          obtain ⟨guid, blk, rest⟩ := found
          exact ih _ rest

/-- The address that a SEV_RESET block sets. -/
def blockReset (block : OvmfBlock) : Option UInt32 :=
  if block.1 = ovmfMetaSevReset then
    (readU32 block.2).map fun (addr, _) => .ofNat addr
  else none

/-- How the kinds of a list are read, for the two GUIDs that point to one. -/
def listType (guid : Guid) : Option (Nat → OvmfRegionType) :=
  if guid = ovmfMetaSevList then some .newSev
  else if guid = ovmfMetaIgvmParam then some .newIgvm
  else none

/-- The image from the base of a list on, `none` where the base is missing or
outside the image. -/
def listAt (firmware blk : Bytes) : Option Bytes :=
  match readU32 blk with
  | none => none
  | some (listbase, _) =>
      if firmware.length < listbase then none
      else some (firmware.drop (firmware.length - listbase))

/-- The count of descriptors in the head of a list. -/
def listEntries (list : Bytes) : Nat :=
  Bytes.toNatLE (list.slice 12 4)

/-- The regions that a block adds. -/
def blockRegions (firmware : Bytes) (block : OvmfBlock) : List OvmfRegion :=
  match listType block.1, listAt firmware block.2 with
  | some newType, some list =>
      if list.length < 16 then []
      else readRegions newType (listEntries list) (list.drop 16) []
  | _, _ => []

theorem readRegions_append (newType : Nat → OvmfRegionType) (entries : Nat)
    (items : Bytes) (regions : List OvmfRegion) :
    readRegions newType entries items regions =
      regions ++ readRegions newType entries items [] := by
  induction entries generalizing items regions with
  | zero => exact (List.append_nil regions).symm
  | succ entries ih =>
      unfold readRegions
      cases readEntry items with
      | none => exact (List.append_nil regions).symm
      | some entry =>
          obtain ⟨⟨base, size, kind⟩, rest⟩ := entry
          dsimp only
          split
          · rw [ih rest (regions ++ _), ih rest ([] ++ _), List.nil_append,
              List.append_assoc]
          · exact ih rest regions

theorem OvmfMeta.readList_eq (ovmfmeta : OvmfMeta) {guid : Guid}
    {newType : Nat → OvmfRegionType} (htype : listType guid = some newType)
    (blk : Bytes) :
    ovmfmeta.readList newType blk =
      ⟨ovmfmeta.firmware,
        ovmfmeta.regions ++ blockRegions ovmfmeta.firmware (guid, blk),
        ovmfmeta.sevResetAddr⟩ := by
  unfold OvmfMeta.readList blockRegions listAt
  rw [htype]
  cases readU32 blk with
  | none => rw [List.append_nil]
  | some found =>
      obtain ⟨listbase, rest⟩ := found
      dsimp only
      by_cases hbase : ovmfmeta.firmware.length < listbase
      · simp only [if_pos hbase, List.append_nil]
      · simp only [if_neg hbase]
        split
        · rw [List.append_nil]
        · rw [readRegions_append, listEntries]

/-- What one block does: it sets the address, or it adds its regions. -/
theorem OvmfMeta.parseBlk_eq (ovmfmeta : OvmfMeta) (guid : Guid)
    (blk : Bytes) :
    ovmfmeta.parseBlk guid blk =
      ⟨ovmfmeta.firmware,
        ovmfmeta.regions ++ blockRegions ovmfmeta.firmware (guid, blk),
        (blockReset (guid, blk)).or ovmfmeta.sevResetAddr⟩ := by
  unfold OvmfMeta.parseBlk
  by_cases hreset : guid = ovmfMetaSevReset
  · have hnone : listType guid = none := by
      subst hreset
      decide
    simp only [if_pos hreset, blockRegions, hnone, blockReset,
      List.append_nil]
    cases readU32 blk with
    | none => rfl
    | some found => rfl
  · have hblock : blockReset (guid, blk) = none := if_neg hreset
    rw [if_neg hreset, hblock, Option.none_or]
    by_cases hsev : guid = ovmfMetaSevList
    · rw [if_pos hsev]
      exact ovmfmeta.readList_eq (if_pos hsev) blk
    · rw [if_neg hsev]
      by_cases hparam : guid = ovmfMetaIgvmParam
      · rw [if_pos hparam]
        exact ovmfmeta.readList_eq
          (by rw [listType, if_neg hsev, if_pos hparam]) blk
      · have hnone : listType guid = none := by
          rw [listType, if_neg hsev, if_neg hparam]
        simp only [if_neg hparam, blockRegions, hnone, List.append_nil]

/-- The regions are those of the blocks, in order; the last address wins. -/
theorem OvmfMeta.foldl_parseBlk (blocks : List OvmfBlock)
    (ovmfmeta : OvmfMeta) :
    blocks.foldl (fun m (block : OvmfBlock) => m.parseBlk block.1 block.2)
        ovmfmeta =
      ⟨ovmfmeta.firmware,
        ovmfmeta.regions ++ blocks.flatMap (blockRegions ovmfmeta.firmware),
        (blocks.filterMap blockReset).getLast?.or ovmfmeta.sevResetAddr⟩ := by
  induction blocks generalizing ovmfmeta with
  | nil => simp
  | cons block blocks ih =>
      rw [List.foldl_cons, ih, ovmfmeta.parseBlk_eq, List.flatMap_cons,
        List.append_assoc]
      cases hreset : blockReset block with
      | none => rw [List.filterMap_cons_none hreset, Option.none_or]
      | some addr =>
          rw [List.filterMap_cons_some hreset, List.getLast?_cons,
            Option.some_or]
          cases (blocks.filterMap blockReset).getLast? <;> rfl

/-- The blocks of the table, if the footer has the GUID of a table. -/
def tableBlocks (firmware : Bytes) : List OvmfBlock :=
  match metaBlk (firmware.take (firmware.length - 0x20)) with
  | none => []
  | some (guid, blocks, _) =>
      if guid = ovmfMetaList then visitedBlocks blocks else []

/-- The parse is the footer's check and the walk of its blocks. -/
theorem OvmfMeta.new_eq (firmware : Bytes) :
    OvmfMeta.new firmware =
      if firmware.length < 0x20 then none
      else (metaBlk (firmware.take (firmware.length - 0x20))).map fun _ =>
        ⟨firmware, (tableBlocks firmware).flatMap (blockRegions firmware),
          ((tableBlocks firmware).filterMap blockReset).getLast?⟩ := by
  unfold OvmfMeta.new tableBlocks
  by_cases hlong : firmware.length < 0x20
  · rw [if_pos hlong, if_pos hlong]
  · rw [if_neg hlong, if_neg hlong]
    cases metaBlk (firmware.take (firmware.length - 0x20)) with
    | none => rfl
    | some found =>
        obtain ⟨guid, blocks, rest⟩ := found
        dsimp only [Option.map_some]
        by_cases hguid : guid = ovmfMetaList
        · simp only [if_pos hguid, parseBlocks_eq_foldl,
            OvmfMeta.foldl_parseBlk, List.nil_append, Option.or_none,
            visitedBlocks]
        · simp only [if_neg hguid, List.flatMap_nil, List.filterMap_nil,
            List.getLast?_nil]

section Layout

/-- An entry of the table: its data stand before its size and its GUID. -/
structure OvmfEntry where
  guid : Guid
  data : Bytes
  guid_length : guid.length = 16
  data_fits : data.length + ovmfMetaBlockSize < 2 ^ 16

def OvmfEntry.encode (entry : OvmfEntry) : Bytes :=
  entry.data ++
    (Bytes.ofNatLE 2 (entry.data.length + ovmfMetaBlockSize) ++ entry.guid)

/-- A table that grows towards the front: the first entry visited is the last
one in memory. -/
def ovmfTable : List OvmfEntry → Bytes
  | [] => []
  | entry :: entries => ovmfTable entries ++ entry.encode

/-- An image with a table 0x20 bytes before its end. -/
structure OvmfImage where
  front : Bytes
  entries : List OvmfEntry
  tail : Bytes
  table_fits : (ovmfTable entries).length + ovmfMetaBlockSize < 2 ^ 16
  tail_length : tail.length = 0x20

def OvmfImage.firmware (image : OvmfImage) : Bytes :=
  image.front ++ (ovmfTable image.entries ++
    (Bytes.ofNatLE 2 ((ovmfTable image.entries).length + ovmfMetaBlockSize) ++
      ovmfMetaList)) ++ image.tail

theorem nextBlk_encode (front : Bytes) (entry : OvmfEntry) :
    nextBlk (front ++ entry.encode) =
      some ((entry.guid, entry.data), front) := by
  rw [nextBlk, OvmfEntry.encode,
    metaBlk_append front entry.data entry.guid_length entry.data_fits]
  rfl

/-- The walk finds the entries in the order in which they were added. -/
theorem walk_ovmfTable (entries : List OvmfEntry) :
    Walk nextBlk (ovmfTable entries)
      (entries.map fun entry => (entry.guid, entry.data)) := by
  induction entries with
  | nil => exact .stop (by decide)
  | cons entry entries ih => exact .next (nextBlk_encode _ entry) ih

theorem OvmfImage.metaBlk_footer (image : OvmfImage) :
    metaBlk (image.firmware.take (image.firmware.length - 0x20)) =
      some (ovmfMetaList, ovmfTable image.entries, image.front) := by
  have hguid : ovmfMetaList.length = 16 := rfl
  have hbody := metaBlk_append image.front (ovmfTable image.entries) hguid
    image.table_fits
  unfold OvmfImage.firmware
  rw [List.length_append, image.tail_length, Nat.add_sub_cancel,
    List.take_left, hbody]

theorem tableBlocks_firmware (image : OvmfImage) :
    tableBlocks image.firmware =
      image.entries.map fun entry => (entry.guid, entry.data) := by
  have hvisited : visitedBlocks (ovmfTable image.entries) =
      image.entries.map fun entry => (entry.guid, entry.data) :=
    (walk_visitedBlocks _).1.unique (walk_ovmfTable image.entries)
  unfold tableBlocks
  simp only [image.metaBlk_footer, if_true]
  exact hvisited

/-- A descriptor of a region list: three `u32` values. -/
structure OvmfDescriptor where
  base : UInt32
  size : UInt32
  kind : UInt32
deriving DecidableEq, Repr

def OvmfDescriptor.encode (descriptor : OvmfDescriptor) : Bytes :=
  Bytes.ofNatLE 4 descriptor.base.toNat ++
    (Bytes.ofNatLE 4 descriptor.size.toNat ++
      Bytes.ofNatLE 4 descriptor.kind.toNat)

/-- The region of a descriptor that has a size. -/
def OvmfDescriptor.region (newType : Nat → OvmfRegionType)
    (descriptor : OvmfDescriptor) : Option OvmfRegion :=
  if descriptor.size ≠ 0 then
    some ⟨descriptor.base.toNat, descriptor.size.toNat,
      newType descriptor.kind.toNat⟩
  else none

theorem toNatLE_ofNatLE_uint32 (n : UInt32) :
    Bytes.toNatLE (Bytes.ofNatLE 4 n.toNat) = n.toNat :=
  Bytes.toNatLE_ofNatLE_of_lt n.toNat_lt

theorem readU32_ofNatLE {n : Nat} (hn : n < 2 ^ 32) (rest : Bytes) :
    readU32 (Bytes.ofNatLE 4 n ++ rest) = some (n, rest) := by
  have hlength : (Bytes.ofNatLE 4 n).length = 4 := Bytes.length_ofNatLE 4 n
  have hlong : ¬ (Bytes.ofNatLE 4 n ++ rest).length < 4 := by
    rw [List.length_append]
    omega
  rw [readU32, if_neg hlong, List.take_left' hlength, List.drop_left' hlength,
    Bytes.toNatLE_ofNatLE_of_lt hn]

theorem readEntry_encode (descriptor : OvmfDescriptor) (rest : Bytes) :
    readEntry (descriptor.encode ++ rest) =
      some ((descriptor.base.toNat, descriptor.size.toNat,
        descriptor.kind.toNat), rest) := by
  obtain ⟨base, size, kind⟩ := descriptor
  have hbase := Bytes.length_ofNatLE 4 base.toNat
  have hsize := Bytes.length_ofNatLE 4 size.toNat
  have hkind := Bytes.length_ofNatLE 4 kind.toNat
  have hlong : ¬ (OvmfDescriptor.encode ⟨base, size, kind⟩ ++ rest).length <
      12 := by
    simp only [OvmfDescriptor.encode, List.length_append]
    omega
  rw [readEntry, if_neg hlong]
  simp only [OvmfDescriptor.encode, List.append_assoc]
  have hfirst : Bytes.slice (Bytes.ofNatLE 4 base.toNat ++
      (Bytes.ofNatLE 4 size.toNat ++ (Bytes.ofNatLE 4 kind.toNat ++ rest)))
        0 4 = Bytes.ofNatLE 4 base.toNat :=
    List.take_left' hbase
  have hsecond : Bytes.slice (Bytes.ofNatLE 4 base.toNat ++
      (Bytes.ofNatLE 4 size.toNat ++ (Bytes.ofNatLE 4 kind.toNat ++ rest)))
        4 4 = Bytes.ofNatLE 4 size.toNat := by
    rw [Bytes.slice, List.drop_left' hbase, List.take_left' hsize]
  have hthird : Bytes.slice (Bytes.ofNatLE 4 base.toNat ++
      (Bytes.ofNatLE 4 size.toNat ++ (Bytes.ofNatLE 4 kind.toNat ++ rest)))
        8 4 = Bytes.ofNatLE 4 kind.toNat := by
    rw [Bytes.slice, ← List.append_assoc,
      List.drop_left' (by rw [List.length_append, hbase, hsize]),
      List.take_left' hkind]
  have hrest : (Bytes.ofNatLE 4 base.toNat ++ (Bytes.ofNatLE 4 size.toNat ++
      (Bytes.ofNatLE 4 kind.toNat ++ rest))).drop 12 = rest := by
    rw [← List.append_assoc, ← List.append_assoc]
    exact List.drop_left' (by
      rw [List.length_append, List.length_append, hbase, hsize, hkind])
  rw [hfirst, hsecond, hthird, hrest, toNatLE_ofNatLE_uint32,
    toNatLE_ofNatLE_uint32, toNatLE_ofNatLE_uint32]

/-- A complete list is read whole, less the descriptors without a size. -/
theorem readRegions_encode (newType : Nat → OvmfRegionType)
    (descriptors : List OvmfDescriptor) (rest : Bytes) :
    readRegions newType descriptors.length
        (descriptors.flatMap OvmfDescriptor.encode ++ rest) [] =
      descriptors.filterMap (OvmfDescriptor.region newType) := by
  induction descriptors with
  | nil => rfl
  | cons descriptor descriptors ih =>
      have hsize : descriptor.size.toNat ≠ 0 ↔ descriptor.size ≠ 0 :=
        not_congr (UInt32.toNat_inj (b := 0))
      rw [List.flatMap_cons, List.append_assoc, List.length_cons, readRegions,
        readEntry_encode]
      dsimp only
      by_cases hzero : descriptor.size ≠ 0
      · have hregion : descriptor.region newType =
            some ⟨descriptor.base.toNat, descriptor.size.toNat,
              newType descriptor.kind.toNat⟩ := if_pos hzero
        rw [if_pos (hsize.mpr hzero), readRegions_append, ih,
          List.filterMap_cons_some hregion]
        rfl
      · have hregion : descriptor.region newType = none := if_neg hzero
        rw [if_neg (mt hsize.mp hzero), ih,
          List.filterMap_cons_none hregion]

/-- `data` points, by its distance from the end of the image, to the head of
a list and all of its descriptors. -/
def PointsToList (firmware data : Bytes)
    (descriptors : List OvmfDescriptor) : Prop :=
  ∃ (listbase : Nat) (more head rest : Bytes),
    listbase < 2 ^ 32 ∧ listbase ≤ firmware.length ∧
      data = Bytes.ofNatLE 4 listbase ++ more ∧ head.length = 12 ∧
      descriptors.length < 2 ^ 32 ∧
      firmware.drop (firmware.length - listbase) =
        head ++ (Bytes.ofNatLE 4 descriptors.length ++
          (descriptors.flatMap OvmfDescriptor.encode ++ rest))

/-- What an entry of the table says. -/
inductive OvmfContent where
  | sevReset (addr : UInt32)
  | sevList (descriptors : List OvmfDescriptor)
  | igvmParam (descriptors : List OvmfDescriptor)
  | other
deriving DecidableEq, Repr

def OvmfContent.regions : OvmfContent → List OvmfRegion
  | .sevList descriptors =>
      descriptors.filterMap (OvmfDescriptor.region .newSev)
  | .igvmParam descriptors =>
      descriptors.filterMap (OvmfDescriptor.region .newIgvm)
  | _ => []

def OvmfContent.sevResetAddr : OvmfContent → Option UInt32
  | .sevReset addr => some addr
  | _ => none

/-- An entry's content, by its GUID. -/
inductive OvmfEntry.Holds (firmware : Bytes) :
    OvmfEntry → OvmfContent → Prop where
  | sevReset {entry : OvmfEntry} (addr : UInt32) (more : Bytes)
      (hguid : entry.guid = ovmfMetaSevReset)
      (hdata : entry.data = Bytes.ofNatLE 4 addr.toNat ++ more) :
      Holds firmware entry (.sevReset addr)
  | sevList {entry : OvmfEntry} {descriptors : List OvmfDescriptor}
      (hguid : entry.guid = ovmfMetaSevList)
      (hlist : PointsToList firmware entry.data descriptors) :
      Holds firmware entry (.sevList descriptors)
  | igvmParam {entry : OvmfEntry} {descriptors : List OvmfDescriptor}
      (hguid : entry.guid = ovmfMetaIgvmParam)
      (hlist : PointsToList firmware entry.data descriptors) :
      Holds firmware entry (.igvmParam descriptors)
  | other {entry : OvmfEntry} (hreset : entry.guid ≠ ovmfMetaSevReset)
      (hsev : entry.guid ≠ ovmfMetaSevList)
      (hparam : entry.guid ≠ ovmfMetaIgvmParam) :
      Holds firmware entry .other

/-- The kinds that SEV lists have. -/
def OvmfRegionType.isSev : OvmfRegionType → Bool
  | .sevMemory | .sevSecrets | .sevCpuid | .sevSvsmCca | .sevHashes => true
  | _ => false

/-- The kinds that IGVM parameter lists have. -/
def OvmfRegionType.isIgvm : OvmfRegionType → Bool
  | .igvmParamArea | .igvmParamMemoryMap | .igvmParamVpCount | .igvmHobArea =>
      true
  | _ => false

theorem isIgvm_newSev (t : Nat) :
    (OvmfRegionType.newSev t).isIgvm = false := by
  unfold OvmfRegionType.newSev
  split <;> rfl

theorem isSev_newIgvm (t : Nat) :
    (OvmfRegionType.newIgvm t).isSev = false := by
  unfold OvmfRegionType.newIgvm
  split <;> rfl

/-- A region has the kind that its list's type function gives it. -/
theorem etype_of_mem_regions {newType : Nat → OvmfRegionType}
    {descriptors : List OvmfDescriptor} {region : OvmfRegion}
    (hmem : region ∈ descriptors.filterMap
      (OvmfDescriptor.region newType)) :
    ∃ t, region.etype = newType t := by
  obtain ⟨descriptor, -, hregion⟩ := List.mem_filterMap.mp hmem
  unfold OvmfDescriptor.region at hregion
  split at hregion
  · cases hregion
    exact ⟨_, rfl⟩
  · cases hregion

theorem PointsToList.blockRegions {firmware data : Bytes}
    {descriptors : List OvmfDescriptor}
    (hlist : PointsToList firmware data descriptors) {guid : Guid}
    {newType : Nat → OvmfRegionType} (htype : listType guid = some newType) :
    blockRegions firmware (guid, data) =
      descriptors.filterMap (OvmfDescriptor.region newType) := by
  obtain ⟨listbase, more, head, rest, hbase, hinside, rfl, hhead, hcount,
    hlist⟩ := hlist
  have hat : listAt firmware (Bytes.ofNatLE 4 listbase ++ more) =
      some (head ++ (Bytes.ofNatLE 4 descriptors.length ++
        (descriptors.flatMap OvmfDescriptor.encode ++ rest))) := by
    rw [listAt, readU32_ofNatLE hbase]
    simp only [Nat.not_lt.mpr hinside, if_false, hlist]
  have hmark := Bytes.length_ofNatLE 4 descriptors.length
  have hentries : listEntries (head ++
      (Bytes.ofNatLE 4 descriptors.length ++
        (descriptors.flatMap OvmfDescriptor.encode ++ rest))) =
      descriptors.length := by
    rw [listEntries, Bytes.slice, List.drop_left' hhead,
      List.take_left' hmark, Bytes.toNatLE_ofNatLE_of_lt hcount]
  have hitems : (head ++ (Bytes.ofNatLE 4 descriptors.length ++
      (descriptors.flatMap OvmfDescriptor.encode ++ rest))).drop 16 =
      descriptors.flatMap OvmfDescriptor.encode ++ rest := by
    rw [← List.append_assoc]
    exact List.drop_left' (by rw [List.length_append, hhead, hmark])
  have hlong : ¬ (head ++ (Bytes.ofNatLE 4 descriptors.length ++
      (descriptors.flatMap OvmfDescriptor.encode ++ rest))).length < 16 := by
    simp only [List.length_append]
    omega
  simp only [Igvm.blockRegions, htype, hat, if_neg hlong, hentries, hitems]
  exact readRegions_encode newType descriptors rest

theorem OvmfEntry.Holds.blockRegions {firmware : Bytes} {entry : OvmfEntry}
    {content : OvmfContent} (hholds : entry.Holds firmware content) :
    blockRegions firmware (entry.guid, entry.data) = content.regions := by
  cases hholds with
  | sevReset addr more hguid _ =>
      have hnone : listType entry.guid = none := by
        rw [hguid]
        decide
      simp only [Igvm.blockRegions, hnone, OvmfContent.regions]
  | sevList hguid hlist => exact hlist.blockRegions (if_pos hguid)
  | igvmParam hguid hlist =>
      have htype : listType entry.guid = some .newIgvm := by
        rw [hguid]
        rfl
      exact hlist.blockRegions htype
  | other _ hsev hparam =>
      have hnone : listType entry.guid = none := by
        rw [listType, if_neg hsev, if_neg hparam]
      simp only [Igvm.blockRegions, hnone, OvmfContent.regions]

theorem OvmfEntry.Holds.blockReset {firmware : Bytes} {entry : OvmfEntry}
    {content : OvmfContent} (hholds : entry.Holds firmware content) :
    blockReset (entry.guid, entry.data) = content.sevResetAddr := by
  cases hholds with
  | sevReset addr more hguid hdata =>
      have hread : readU32 entry.data = some (addr.toNat, more) := by
        rw [hdata]
        exact readU32_ofNatLE addr.toNat_lt more
      simp only [Igvm.blockReset, hguid, if_true, hread, Option.map_some,
        UInt32.ofNat_toNat, OvmfContent.sevResetAddr]
  | sevList hguid _ =>
      have hne : entry.guid ≠ ovmfMetaSevReset := by
        rw [hguid]
        decide
      exact if_neg hne
  | igvmParam hguid _ =>
      have hne : entry.guid ≠ ovmfMetaSevReset := by
        rw [hguid]
        decide
      exact if_neg hne
  | other hreset _ _ => exact if_neg hreset

/-- Every entry says something, once its data are long enough for an address
or point to a list. -/
theorem OvmfEntry.exists_holds {firmware : Bytes} (entry : OvmfEntry)
    (hreset : entry.guid = ovmfMetaSevReset → 4 ≤ entry.data.length)
    (hlist : entry.guid = ovmfMetaSevList ∨ entry.guid = ovmfMetaIgvmParam →
      ∃ descriptors, PointsToList firmware entry.data descriptors) :
    ∃ content, entry.Holds firmware content := by
  by_cases hguid : entry.guid = ovmfMetaSevReset
  · have hfront : (entry.data.take 4).length = 4 := by
      rw [List.length_take, Nat.min_eq_left (hreset hguid)]
    have haddr : Bytes.toNatLE (entry.data.take 4) < 2 ^ 32 := by
      have hlt := Bytes.toNatLE_lt (entry.data.take 4)
      rwa [hfront] at hlt
    refine ⟨_, .sevReset (.ofNat (Bytes.toNatLE (entry.data.take 4)))
      (entry.data.drop 4) hguid ?_⟩
    have hencode := Bytes.ofNatLE_toNatLE (entry.data.take 4)
    rw [hfront] at hencode
    rw [UInt32.toNat_ofNat_of_lt' haddr, hencode, List.take_append_drop]
  · by_cases hsev : entry.guid = ovmfMetaSevList
    · obtain ⟨descriptors, hpoints⟩ := hlist (.inl hsev)
      exact ⟨_, .sevList hsev hpoints⟩
    · by_cases hparam : entry.guid = ovmfMetaIgvmParam
      · obtain ⟨descriptors, hpoints⟩ := hlist (.inr hparam)
        exact ⟨_, .igvmParam hparam hpoints⟩
      · exact ⟨_, .other hguid hsev hparam⟩

theorem exists_contents {firmware : Bytes} {entries : List OvmfEntry}
    (hall : ∀ entry ∈ entries, ∃ content, entry.Holds firmware content) :
    ∃ contents, List.Forall₂ (OvmfEntry.Holds firmware) entries contents := by
  induction entries with
  | nil => exact ⟨[], .nil⟩
  | cons entry entries ih =>
      obtain ⟨content, hholds⟩ := hall entry List.mem_cons_self
      obtain ⟨contents, hrest⟩ := ih fun e he =>
        hall e (List.mem_cons_of_mem entry he)
      exact ⟨content :: contents, .cons hholds hrest⟩

theorem tableBlocks_flatMap {firmware : Bytes} {entries : List OvmfEntry}
    {contents : List OvmfContent}
    (hholds : List.Forall₂ (OvmfEntry.Holds firmware) entries contents) :
    (entries.map fun entry => (entry.guid, entry.data)).flatMap
        (blockRegions firmware) = contents.flatMap OvmfContent.regions ∧
      (entries.map fun entry => (entry.guid, entry.data)).filterMap
        blockReset = contents.filterMap OvmfContent.sevResetAddr := by
  induction hholds with
  | nil => exact ⟨rfl, rfl⟩
  | cons hholds _ ih =>
      simp only [List.map_cons, List.flatMap_cons, List.filterMap_cons,
        hholds.blockRegions, hholds.blockReset, ih.1, ih.2, and_self]

/-- SEV kinds come from SEV lists, IGVM kinds from IGVM parameter lists. -/
theorem kinds_of_mem_regions {contents : List OvmfContent}
    {region : OvmfRegion}
    (hmem : region ∈ contents.flatMap OvmfContent.regions) :
    (region.etype.isSev = true → ∃ descriptors,
        OvmfContent.sevList descriptors ∈ contents ∧
          region ∈ (OvmfContent.sevList descriptors).regions) ∧
      (region.etype.isIgvm = true → ∃ descriptors,
        OvmfContent.igvmParam descriptors ∈ contents ∧
          region ∈ (OvmfContent.igvmParam descriptors).regions) := by
  obtain ⟨content, hcontent, hregion⟩ := List.mem_flatMap.mp hmem
  cases content with
  | sevList descriptors =>
      obtain ⟨t, ht⟩ := etype_of_mem_regions hregion
      refine ⟨fun _ => ⟨descriptors, hcontent, hregion⟩, ?_⟩
      rw [ht, isIgvm_newSev]
      intro h
      cases h
  | igvmParam descriptors =>
      obtain ⟨t, ht⟩ := etype_of_mem_regions hregion
      refine ⟨?_, fun _ => ⟨descriptors, hcontent, hregion⟩⟩
      rw [ht, isSev_newIgvm]
      intro h
      cases h
  | sevReset addr => cases hregion
  | other => cases hregion

/-- The parse of a well-formed table is exact: the regions are those of the
lists in the order of the walk, the address is the last one visited, and the
walk of any bytes whatsoever ends. -/
theorem OvmfMeta.new_of_table (image : OvmfImage)
    (hreset : ∀ entry ∈ image.entries, entry.guid = ovmfMetaSevReset →
      4 ≤ entry.data.length)
    (hlists : ∀ entry ∈ image.entries,
      entry.guid = ovmfMetaSevList ∨ entry.guid = ovmfMetaIgvmParam →
        ∃ descriptors,
          PointsToList image.firmware entry.data descriptors) :
    (∃ contents,
      List.Forall₂ (OvmfEntry.Holds image.firmware) image.entries contents ∧
      OvmfMeta.new image.firmware =
        some ⟨image.firmware, contents.flatMap OvmfContent.regions,
          (contents.filterMap OvmfContent.sevResetAddr).getLast?⟩ ∧
      ∀ region ∈ contents.flatMap OvmfContent.regions,
        (region.etype.isSev = true → ∃ descriptors,
          OvmfContent.sevList descriptors ∈ contents ∧
            region ∈ (OvmfContent.sevList descriptors).regions) ∧
        (region.etype.isIgvm = true → ∃ descriptors,
          OvmfContent.igvmParam descriptors ∈ contents ∧
            region ∈ (OvmfContent.igvmParam descriptors).regions)) ∧
    ∀ blob : Bytes, ∃ blocks, Walk nextBlk blob blocks ∧
      blocks.length * ovmfMetaBlockSize ≤ blob.length ∧
      ∀ (turns : Nat) (ovmfmeta : OvmfMeta), blob.length ≤ turns →
        OvmfMeta.parseBlocks turns ovmfmeta blob =
          blocks.foldl (fun m (block : OvmfBlock) =>
            m.parseBlk block.1 block.2) ovmfmeta := by
  refine ⟨?_, fun blob => ?_⟩
  · obtain ⟨contents, hholds⟩ := exists_contents fun entry hentry =>
      entry.exists_holds (hreset entry hentry) (hlists entry hentry)
    have htable := tableBlocks_flatMap hholds
    have hlong : ¬ image.firmware.length < 0x20 := by
      simp only [OvmfImage.firmware, List.length_append, image.tail_length]
      omega
    refine ⟨contents, hholds, ?_, fun region => kinds_of_mem_regions⟩
    rw [OvmfMeta.new_eq, if_neg hlong, image.metaBlk_footer,
      tableBlocks_firmware, htable.1, htable.2]
    rfl
  · obtain ⟨hwalk, hlength⟩ := walk_visitedBlocks blob
    refine ⟨visitedBlocks blob, hwalk, hlength, ?_⟩
    intro turns ovmfmeta hturns
    rw [parseBlocks_eq_foldl, hwalk.walked_eq]
    exact le_trans (le_trans (Nat.le_mul_of_pos_right _ (by decide)) hlength)
      hturns

/-- A SEV list of two descriptors, the second without a size, and an IGVM
list of one. -/
def sampleLists : Bytes :=
  List.replicate 12 0 ++ Bytes.ofNatLE 4 2 ++
    OvmfDescriptor.encode ⟨0x800000, 0x1000, 3⟩ ++
    OvmfDescriptor.encode ⟨0x900000, 0, 1⟩ ++
    (List.replicate 12 0 ++ Bytes.ofNatLE 4 1 ++
      OvmfDescriptor.encode ⟨0x810000, 0x2000, 0x100⟩)

/-- A table of four entries, one of them unknown. -/
def sampleOvmf : OvmfImage where
  front := sampleLists
  entries :=
    [⟨ovmfMetaSevList, Bytes.ofNatLE 4 205, by decide, by decide⟩,
      ⟨List.replicate 16 7, [1, 2, 3], by decide, by decide⟩,
      ⟨ovmfMetaSevReset, Bytes.ofNatLE 4 0xFFFFF, by decide, by decide⟩,
      ⟨ovmfMetaIgvmParam, Bytes.ofNatLE 4 165, by decide, by decide⟩]
  tail := List.replicate 32 0
  table_fits := by decide
  tail_length := by decide

example : OvmfMeta.new sampleOvmf.firmware =
    some ⟨sampleOvmf.firmware, [⟨0x800000, 0x1000, .sevCpuid⟩,
      ⟨0x810000, 0x2000, .igvmParamArea⟩], some 0xFFFFF⟩ := by
  decide +kernel

theorem OvmfMeta.new_sampleOvmf :
    ∃ contents, List.Forall₂ (OvmfEntry.Holds sampleOvmf.firmware)
        sampleOvmf.entries contents ∧
      OvmfMeta.new sampleOvmf.firmware =
        some ⟨sampleOvmf.firmware, contents.flatMap OvmfContent.regions,
          (contents.filterMap OvmfContent.sevResetAddr).getLast?⟩ := by
  have hreset : ∀ entry ∈ sampleOvmf.entries,
      entry.guid = ovmfMetaSevReset → 4 ≤ entry.data.length := by
    decide
  have hsev : PointsToList sampleOvmf.firmware (Bytes.ofNatLE 4 205)
      [⟨0x800000, 0x1000, 3⟩, ⟨0x900000, 0, 1⟩] :=
    ⟨205, [], List.replicate 12 0, sampleOvmf.firmware.drop 40, by decide,
      by decide +kernel, rfl, rfl, by decide, by decide +kernel⟩
  have hparam : PointsToList sampleOvmf.firmware (Bytes.ofNatLE 4 165)
      [⟨0x810000, 0x2000, 0x100⟩] :=
    ⟨165, [], List.replicate 12 0, sampleOvmf.firmware.drop 68, by decide,
      by decide +kernel, rfl, rfl, by decide, by decide +kernel⟩
  have hlists : ∀ entry ∈ sampleOvmf.entries,
      entry.guid = ovmfMetaSevList ∨ entry.guid = ovmfMetaIgvmParam →
        ∃ descriptors,
          PointsToList sampleOvmf.firmware entry.data descriptors := by
    intro entry hentry hguid
    simp only [sampleOvmf, List.mem_cons, List.not_mem_nil, or_false]
      at hentry
    rcases hentry with rfl | rfl | rfl | rfl
    · exact ⟨_, hsev⟩
    · exact absurd hguid (by decide)
    · exact absurd hguid (by decide)
    · exact ⟨_, hparam⟩
  obtain ⟨⟨contents, hholds, hnew, -⟩, -⟩ :=
    OvmfMeta.new_of_table sampleOvmf hreset hlists
  exact ⟨contents, hholds, hnew⟩

end Layout

end Igvm

end Kettle
