/-
The metadata that OVMF keeps at the tail of its image: GUID-tagged blocks read
backwards from the footer, and the region lists they point to.
-/
import Kettle.Igvm.File

namespace Kettle

namespace Igvm

/-- A GUID in its 16 wire bytes.  The SEV_SECRET and SEV_HASHES blocks are
recognised and ignored like any unknown block. -/
abbrev Guid := Bytes

/-- The footer of the metadata. -/
def ovmfMetaList : Guid :=
  [0xDE, 0x82, 0xB5, 0x96, 0xB2, 0x1F, 0xF7, 0x45,
    0xBA, 0xEA, 0xA3, 0x66, 0xC5, 0x5A, 0x08, 0x2D]

/-- The AP reset address block. -/
def ovmfMetaSevReset : Guid :=
  [0xDE, 0x71, 0xF7, 0x00, 0x7E, 0x1A, 0xCB, 0x4F,
    0x89, 0x0E, 0x68, 0xC7, 0x7E, 0x2F, 0xB4, 0x4E]

/-- The SEV region list. -/
def ovmfMetaSevList : Guid :=
  [0x66, 0x65, 0x88, 0xDC, 0x4A, 0x98, 0x98, 0x47,
    0xA7, 0x5E, 0x55, 0x85, 0xA7, 0xBF, 0x67, 0xCC]

/-- The IGVM parameter area list. -/
def ovmfMetaIgvmParam : Guid :=
  [0x0E, 0xA7, 0x4F, 0x78, 0x76, 0x31, 0x77, 0x46,
    0x8A, 0x20, 0x04, 0xB6, 0x86, 0x99, 0xE3, 0x74]

inductive OvmfRegionType where
  | undefined
  | sevMemory
  | sevSecrets
  | sevCpuid
  | sevSvsmCca
  | sevHashes
  | igvmParamArea
  | igvmParamMemoryMap
  | igvmParamVpCount
  | igvmHobArea
deriving DecidableEq, Repr

def OvmfRegionType.newSev (t : Nat) : OvmfRegionType :=
  match t with
  | 0x01 => .sevMemory
  | 0x02 => .sevSecrets
  | 0x03 => .sevCpuid
  | 0x04 => .sevSvsmCca
  | 0x10 => .sevHashes
  | _ => .undefined

def OvmfRegionType.newIgvm (t : Nat) : OvmfRegionType :=
  match t with
  | 0x100 => .igvmParamArea
  | 0x101 => .igvmParamMemoryMap
  | 0x102 => .igvmParamVpCount
  | 0x200 => .igvmHobArea
  | _ => .undefined

/-- `memory` is a (base, size) pair of `u32` values. -/
structure OvmfRegion where
  base : Nat
  size : Nat
  etype : OvmfRegionType
deriving DecidableEq, Repr

structure OvmfMeta where
  firmware : Bytes
  regions : List OvmfRegion
  sevResetAddr : Option UInt32
deriving DecidableEq, Repr

/-- `size_of::<OvmfMetaBlock>()`: a `u16` and a GUID. -/
def ovmfMetaBlockSize : Nat := 18

/-- The block at the end of `blob`: its GUID, its data and what is before. -/
def metaBlk (blob : Bytes) : Option (Guid × Bytes × Bytes) :=
  if blob.length < ovmfMetaBlockSize then none
  else
    let data := blob.take (blob.length - ovmfMetaBlockSize)
    let tail := blob.drop (blob.length - ovmfMetaBlockSize)
    let size := Bytes.toNatLE (tail.take 2)
    if size < ovmfMetaBlockSize then none
    else
      let dsize := size - ovmfMetaBlockSize
      if data.length < dsize then none
      else
        let start := data.length - dsize
        some (tail.drop 2, data.drop start, data.take start)

/-- A little-endian `u32` at the front and what follows it. -/
def readU32 (buf : Bytes) : Option (Nat × Bytes) :=
  if buf.length < 4 then none
  else some (Bytes.toNatLE (buf.take 4), buf.drop 4)

/-- `OvmfMetaSevIgvmEntry`: base, size and kind. -/
def readEntry (items : Bytes) : Option ((Nat × Nat × Nat) × Bytes) :=
  if items.length < 12 then none
  else
    some ((Bytes.toNatLE (items.slice 0 4), Bytes.toNatLE (items.slice 4 4),
      Bytes.toNatLE (items.slice 8 4)), items.drop 12)

/-- The entry loop: it stops early when the items run out, and keeps what it
has read until then. -/
def readRegions (newType : Nat → OvmfRegionType) :
    Nat → Bytes → List OvmfRegion → List OvmfRegion
  | 0, _, regions => regions
  | entries + 1, items, regions =>
      match readEntry items with
      | none => regions
      | some ((base, size, kind), rest) =>
          if size ≠ 0 then
            readRegions newType entries rest
              (regions ++ [⟨base, size, newType kind⟩])
          else readRegions newType entries rest regions

/-- The region list that a block points to, by its distance from the end of
the firmware.  The head is four `u32`, the last of them the entry count. -/
def OvmfMeta.readList (ovmfmeta : OvmfMeta)
    (newType : Nat → OvmfRegionType) (blk : Bytes) : OvmfMeta :=
  match readU32 blk with
  | none => ovmfmeta
  | some (listbase, _) =>
      if ovmfmeta.firmware.length < listbase then ovmfmeta
      else
        let list :=
          ovmfmeta.firmware.drop (ovmfmeta.firmware.length - listbase)
        if list.length < 16 then ovmfmeta
        else
          { ovmfmeta with
            regions := readRegions newType
              (Bytes.toNatLE (Bytes.slice list 12 4)) (list.drop 16)
              ovmfmeta.regions }

def OvmfMeta.parseBlk (ovmfmeta : OvmfMeta) (guid : Guid) (blk : Bytes) :
    OvmfMeta :=
  if guid = ovmfMetaSevReset then
    match readU32 blk with
    | none => ovmfmeta
    | some (addr, _) => { ovmfmeta with sevResetAddr := some (.ofNat addr) }
  else if guid = ovmfMetaSevList then
    ovmfmeta.readList .newSev blk
  else if guid = ovmfMetaIgvmParam then
    ovmfmeta.readList .newIgvm blk
  else ovmfmeta

/-- `while let Some(..) = meta_blk(m1)`.  A block takes 18 bytes, so that as
many turns as there are bytes are enough. -/
def OvmfMeta.parseBlocks : Nat → OvmfMeta → Bytes → OvmfMeta
  | 0, ovmfmeta, _ => ovmfmeta
  | turns + 1, ovmfmeta, blocks =>
      match metaBlk blocks with
      | none => ovmfmeta
      | some (guid, blk, rest) =>
          OvmfMeta.parseBlocks turns (ovmfmeta.parseBlk guid blk) rest

def OvmfMeta.new (firmware : Bytes) : Option OvmfMeta :=
  if firmware.length < 0x20 then none
  else
    match metaBlk (firmware.take (firmware.length - 0x20)) with
    | none => none
    | some (guid, blocks, _) =>
        let ovmfmeta : OvmfMeta := ⟨firmware, [], none⟩
        if guid = ovmfMetaList then
          some (ovmfmeta.parseBlocks blocks.length blocks)
        else some ovmfmeta

/-- A block written at the end of a blob is read back. -/
theorem metaBlk_append (front data : Bytes) {guid : Guid}
    (hguid : guid.length = 16)
    (hdata : data.length + ovmfMetaBlockSize < 2 ^ 16) :
    metaBlk (front ++ (data ++
        (Bytes.ofNatLE 2 (data.length + ovmfMetaBlockSize) ++ guid))) =
      some (guid, data, front) := by
  have hsize : Bytes.toNatLE
      (Bytes.ofNatLE 2 (data.length + ovmfMetaBlockSize)) =
        data.length + ovmfMetaBlockSize :=
    Bytes.toNatLE_ofNatLE_of_lt hdata
  have hmark : (Bytes.ofNatLE 2 (data.length + ovmfMetaBlockSize)).length =
      2 := Bytes.length_ofNatLE _ _
  generalize Bytes.ofNatLE 2 (data.length + ovmfMetaBlockSize) = mark at *
  have hlength : (front ++ (data ++ (mark ++ guid))).length -
      ovmfMetaBlockSize = (front ++ data).length := by
    simp only [List.length_append, hmark, hguid, ovmfMetaBlockSize]
    omega
  have hlong : ¬ (front ++ (data ++ (mark ++ guid))).length <
      ovmfMetaBlockSize := by
    simp only [List.length_append, hmark, hguid, ovmfMetaBlockSize]
    omega
  have hsplit : front ++ (data ++ (mark ++ guid)) =
      (front ++ data) ++ (mark ++ guid) := by
    rw [List.append_assoc]
  have hfront : (front ++ data).length - data.length = front.length := by
    rw [List.length_append, Nat.add_sub_cancel]
  have hfits : ¬ (front ++ data).length < data.length := by
    rw [List.length_append]
    omega
  unfold metaBlk
  rw [if_neg hlong]
  simp only [hlength]
  simp only [hsplit, List.take_left, List.drop_left, List.take_left' hmark,
    List.drop_left' hmark, hsize, Nat.add_sub_cancel, hfront, hfits,
    if_false]
  rw [if_neg (by omega)]

/-- Every region starts at a `u32` address. -/
def OvmfMeta.BasesFit (ovmfmeta : OvmfMeta) : Prop :=
  ∀ r ∈ ovmfmeta.regions, r.base < 2 ^ 32

theorem readRegions_basesFit (newType : Nat → OvmfRegionType)
    (entries : Nat) (items : Bytes) {regions : List OvmfRegion}
    (hregions : ∀ r ∈ regions, r.base < 2 ^ 32) :
    ∀ r ∈ readRegions newType entries items regions, r.base < 2 ^ 32 := by
  induction entries generalizing items regions with
  | zero => exact hregions
  | succ entries ih =>
      unfold readRegions
      cases hentry : readEntry items with
      | none => exact hregions
      | some entry =>
          obtain ⟨⟨base, size, kind⟩, rest⟩ := entry
          have hbase : base < 2 ^ 32 := by
            unfold readEntry at hentry
            split at hentry
            · cases hentry
            · rename_i hlen
              obtain ⟨hfields, -⟩ := Prod.mk.inj (Option.some.inj hentry)
              obtain ⟨rfl, -⟩ := Prod.mk.inj hfields
              have hlt := Bytes.toNatLE_lt (items.slice 0 4)
              rwa [Bytes.length_slice (by omega)] at hlt
          by_cases hsize : size ≠ 0
          · simp only [hsize, ne_eq, not_false_eq_true, if_true]
            apply ih
            intro r hr
            rcases List.mem_append.mp hr with hold | hnew
            · exact hregions r hold
            · rw [List.mem_singleton.mp hnew]
              exact hbase
          · simp only [hsize, if_false]
            exact ih rest hregions

theorem OvmfMeta.BasesFit.readList {ovmfmeta : OvmfMeta}
    (hfit : ovmfmeta.BasesFit) (newType : Nat → OvmfRegionType)
    (blk : Bytes) : (ovmfmeta.readList newType blk).BasesFit := by
  unfold OvmfMeta.readList
  split
  · exact hfit
  · dsimp only
    split
    · exact hfit
    · split
      · exact hfit
      · exact readRegions_basesFit newType _ _ hfit

theorem OvmfMeta.BasesFit.parseBlk {ovmfmeta : OvmfMeta}
    (hfit : ovmfmeta.BasesFit) (guid : Guid) (blk : Bytes) :
    (ovmfmeta.parseBlk guid blk).BasesFit := by
  unfold OvmfMeta.parseBlk
  split
  · split
    · exact hfit
    · exact hfit
  · split
    · exact hfit.readList .newSev blk
    · split
      · exact hfit.readList .newIgvm blk
      · exact hfit

theorem OvmfMeta.BasesFit.parseBlocks {ovmfmeta : OvmfMeta}
    (hfit : ovmfmeta.BasesFit) (turns : Nat) (blocks : Bytes) :
    (OvmfMeta.parseBlocks turns ovmfmeta blocks).BasesFit := by
  induction turns generalizing ovmfmeta blocks with
  | zero => exact hfit
  | succ turns ih =>
      unfold OvmfMeta.parseBlocks
      split
      · exact hfit
      · exact ih (hfit.parseBlk _ _) _

theorem OvmfMeta.new_basesFit {firmware : Bytes} {ovmfmeta : OvmfMeta}
    (hnew : OvmfMeta.new firmware = some ovmfmeta) : ovmfmeta.BasesFit := by
  have hempty : OvmfMeta.BasesFit ⟨firmware, [], none⟩ := by
    intro r hr
    cases hr
  unfold OvmfMeta.new at hnew
  split at hnew
  · cases hnew
  · split at hnew
    · cases hnew
    · dsimp only at hnew
      split at hnew
      · cases hnew
        exact hempty.parseBlocks _ _
      · cases hnew
        exact hempty

end Igvm

end Kettle
