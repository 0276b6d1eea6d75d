/-
The PCR slots that a command names: collections of slots as the flags of a
word, limited to the octets that the size of the select gives, and the
selections of a bank.
-/
import Kettle.Lib.BitFlags
import Kettle.Lib.Bytes
import Kettle.Lib.Result

namespace Kettle

namespace Vtpm

inductive WrapperErrorKind where
  | wrongParamSize
  | paramsMissing
  | inconsistentParams
  | unsupportedParam
  | invalidParam
  | wrongValueFromTpm
  | missingAuthSession
  | invalidHandleState
  | internalError
deriving DecidableEq, Repr

/-- An error of the wrapper, or a response code of the TPM. -/
inductive Error where
  | wrapper (kind : WrapperErrorKind)
  | tss2 (code : UInt32)
deriving DecidableEq, Repr

inductive HashingAlgorithm where
  | sha1
  | sha256
  | sha384
  | sha512
  | sm3_256
  | sha3_256
  | sha3_384
  | sha3_512
  | null
deriving DecidableEq, Repr

namespace HashingAlgorithm

/-- `TPMI_ALG_HASH`. -/
def code : HashingAlgorithm → UInt16
  | sha1 => 0x0004
  | sha256 => 0x000B
  | sha384 => 0x000C
  | sha512 => 0x000D
  | sm3_256 => 0x0012
  | sha3_256 => 0x0027
  | sha3_384 => 0x0028
  | sha3_512 => 0x0029
  | null => 0x0010

def all : List HashingAlgorithm :=
  [sha1, sha256, sha384, sha512, sm3_256, sha3_256, sha3_384, sha3_512, null]

/-- Codes of other algorithms are rejected like unknown ones. -/
def ofCode? (value : UInt16) : Option HashingAlgorithm :=
  all.find? fun algorithm => algorithm.code = value

@[simp] theorem ofCode?_code (algorithm : HashingAlgorithm) :
    ofCode? algorithm.code = some algorithm := by
  cases algorithm <;> decide

theorem code_of_ofCode? {value : UInt16} {algorithm : HashingAlgorithm}
    (hcode : ofCode? value = some algorithm) : algorithm.code = value := by
  simpa using List.find?_some hcode

end HashingAlgorithm

/-- `Slot0` to `Slot31`. -/
abbrev PcrSlot := Fin 32

/-- The value of a slot is the flag of its number. -/
def PcrSlot.value (slot : PcrSlot) : Nat := 2 ^ slot.val

/-- `TPM2_PCR_SELECT_MAX`. -/
def pcrSelectMax : Nat := 4

inductive PcrSelectSize where
  | oneOctet
  | twoOctets
  | threeOctets
  | fourOctets
deriving DecidableEq, Repr

namespace PcrSelectSize

def octets : PcrSelectSize → Nat
  | oneOctet => 1
  | twoOctets => 2
  | threeOctets => 3
  | fourOctets => 4

/-- The default of a select, for a maximum of four octets. -/
def default : PcrSelectSize :=
  match pcrSelectMax with
  | 1 => oneOctet
  | 2 => twoOctets
  | _ => threeOctets

def ofOctets? : Nat → Option PcrSelectSize
  | 1 => some oneOctet
  | 2 => some twoOctets
  | 3 => some threeOctets
  | 4 => some fourOctets
  | _ => none

/-- `try_from` of a `u8`. -/
def ofU8 (value : UInt8) : Except Error PcrSelectSize :=
  if pcrSelectMax < value.toNat then .error (.wrapper .invalidParam)
  else match ofOctets? value.toNat with
    | some size => .ok size
    | none => .error (.wrapper .invalidParam)

/-- `u8::try_from`. -/
def toU8 (size : PcrSelectSize) : Except Error UInt8 :=
  if pcrSelectMax < size.octets then .error (.wrapper .invalidParam)
  else .ok (.ofNat size.octets)

/-- `calculate_max_pcr_slots_value`. -/
def maxSlotsValue : PcrSelectSize → Nat
  | oneOctet => 0x000000FF
  | twoOctets => 0x0000FFFF
  | threeOctets => 0x00FFFFFF
  | fourOctets => 0xFFFFFFFF

theorem octets_le (size : PcrSelectSize) : size.octets ≤ pcrSelectMax := by
  cases size <;> decide

theorem toU8_eq_ok (size : PcrSelectSize) :
    size.toU8 = .ok (.ofNat size.octets) :=
  if_neg (not_lt.mpr size.octets_le)

theorem ofU8_octets (size : PcrSelectSize) :
    ofU8 (.ofNat size.octets) = .ok size := by
  cases size <;> rfl

theorem maxSlotsValue_lt (size : PcrSelectSize) :
    size.maxSlotsValue < 256 ^ size.octets := by
  cases size <;> decide

theorem ofU8_eq_ok_iff {value : UInt8} {size : PcrSelectSize} :
    ofU8 value = .ok size ↔ value.toNat = size.octets := by
  constructor
  · intro hok
    unfold ofU8 at hok
    split at hok
    · cases hok
    · split at hok
      · rename_i found hfound
        cases hok
        unfold ofOctets? at hfound
        split at hfound <;> cases hfound <;> assumption
      · cases hok
  · intro hvalue
    have hbyte : value = .ofNat size.octets := by
      rw [← hvalue, UInt8.ofNat_toNat]
    rw [hbyte, ofU8_octets]

end PcrSelectSize

/-- The slots as flags; none lies outside the octets of the select. -/
structure PcrSlotCollection where
  pcrSelectSize : PcrSelectSize
  pcrSlots : BitVec 32
  fits : pcrSlots.toNat < 256 ^ pcrSelectSize.octets
deriving DecidableEq

namespace PcrSlotCollection

theorem pow_octets (count : Nat) : 256 ^ count = 2 ^ (8 * count) := by
  rw [Nat.pow_mul]

/-- A word fits when every slot of it lies in the octets. -/
theorem fits_iff {bits : BitVec 32} {size : PcrSelectSize} :
    bits.toNat < 256 ^ size.octets ↔
      ∀ slot, BitFlags.isSet bits slot = true →
        slot.val < 8 * size.octets := by
  rw [pow_octets, BitFlags.toNat_lt_two_pow_iff]

/-- Whether the slot can be named with a select of that size. -/
def inOctets (size : PcrSelectSize) (slot : PcrSlot) : Bool :=
  decide (slot.value ≤ size.maxSlotsValue)

theorem inOctets_iff {size : PcrSelectSize} {slot : PcrSlot} :
    inOctets size slot = true ↔ slot.val < 8 * size.octets := by
  unfold inOctets
  rw [decide_eq_true_iff]
  constructor
  · intro hle
    have hlt := lt_of_le_of_lt hle size.maxSlotsValue_lt
    rw [pow_octets] at hlt
    exact (Nat.pow_lt_pow_iff_right (by decide)).mp hlt
  · intro hlt
    have hmax : size.maxSlotsValue + 1 = 2 ^ (8 * size.octets) := by
      cases size <;> decide
    have hpow : slot.value < 2 ^ (8 * size.octets) :=
      Nat.pow_lt_pow_right (by decide) hlt
    omega

theorem fits_ofPositions {size : PcrSelectSize} {slots : List PcrSlot}
    (hall : slots.all (inOctets size) = true) :
    (BitFlags.ofPositions slots).toNat < 256 ^ size.octets := by
  refine fits_iff.mpr fun slot hslot => ?_
  rw [BitFlags.isSet_ofPositions, decide_eq_true_iff] at hslot
  exact inOctets_iff.mp (List.all_eq_true.mp hall slot hslot)

theorem fits_and_not (collection : PcrSlotCollection) (other : BitVec 32) :
    (collection.pcrSlots &&& ~~~other).toNat <
      256 ^ collection.pcrSelectSize.octets := by
  refine fits_iff.mpr fun slot hslot => ?_
  rw [BitFlags.isSet_and, Bool.and_eq_true] at hslot
  exact fits_iff.mp collection.fits slot hslot.1

theorem fits_or {left right : PcrSlotCollection}
    (hsize : left.pcrSelectSize = right.pcrSelectSize) :
    (left.pcrSlots ||| right.pcrSlots).toNat <
      256 ^ left.pcrSelectSize.octets := by
  refine fits_iff.mpr fun slot hslot => ?_
  rw [BitFlags.isSet_or, Bool.or_eq_true] at hslot
  rcases hslot with hleft | hright
  · exact fits_iff.mp left.fits slot hleft
  · rw [hsize]
    exact fits_iff.mp right.fits slot hright

/-- `create`; the size is never above the maximum. -/
def create (size : PcrSelectSize) (slots : List PcrSlot) :
    Except Error PcrSlotCollection := do
  let _ ← size.toU8
  if hall : slots.all (inOctets size) = true then
    .ok ⟨size, BitFlags.ofPositions slots, fits_ofPositions hall⟩
  else .error (.wrapper .inconsistentParams)

def contains (collection : PcrSlotCollection) (slots : BitVec 32) : Bool :=
  collection.pcrSlots &&& slots = slots

def isEmpty (collection : PcrSlotCollection) : Bool :=
  collection.pcrSlots = 0

/-- `collection`. -/
def slots (collection : PcrSlotCollection) : List PcrSlot :=
  BitFlags.positions collection.pcrSlots

/-- `remove`, of one slot or of several. -/
def remove (collection : PcrSlotCollection) (slots : BitVec 32) :
    PcrSlotCollection :=
  ⟨collection.pcrSelectSize, collection.pcrSlots &&& ~~~slots,
    collection.fits_and_not slots⟩

def removeExact (collection : PcrSlotCollection) (slot : PcrSlot) :
    Except Error PcrSlotCollection :=
  if collection.contains (BitFlags.flag slot) then
    .ok (collection.remove (BitFlags.flag slot))
  else .error (.wrapper .invalidParam)

def mergeExact (collection other : PcrSlotCollection) :
    Except Error PcrSlotCollection :=
  if hsize : collection.pcrSelectSize = other.pcrSelectSize then
    if collection.pcrSlots &&& other.pcrSlots ≠ 0 then
      .error (.wrapper .invalidParam)
    else
      .ok ⟨collection.pcrSelectSize, collection.pcrSlots ||| other.pcrSlots,
        fits_or hsize⟩
  else .error (.wrapper .invalidParam)

def subtractExact (collection other : PcrSlotCollection) :
    Except Error PcrSlotCollection :=
  if collection.pcrSelectSize ≠ other.pcrSelectSize then
    .error (.wrapper .invalidParam)
  else if collection.contains other.pcrSlots then
    .ok (collection.remove other.pcrSlots)
  else .error (.wrapper .invalidParam)

/-- The octets above the size of the select are zeroed. -/
def maskOctets (size : PcrSelectSize) (octets : ByteVec 4) : Bytes :=
  Bytes.zeroPad pcrSelectMax (octets.toList.take size.octets)

/-- Every flag of the word is a slot, so that the parser never fails. -/
def parseOctets (octets : ByteVec 4) (size : PcrSelectSize) : BitVec 32 :=
  .ofNat 32 (Bytes.toNatLE (maskOctets size octets))

theorem toNatLE_maskOctets (size : PcrSelectSize) (octets : ByteVec 4) :
    Bytes.toNatLE (maskOctets size octets) =
      Bytes.toNatLE octets.toList % 256 ^ size.octets := by
  have hlen : (octets.toList.take size.octets).length ≤ pcrSelectMax := by
    rw [List.length_take]
    exact le_trans (Nat.min_le_left _ _) size.octets_le
  rw [maskOctets, Bytes.toNatLE_zeroPad hlen, Bytes.toNatLE_take]

theorem toNat_parseOctets (octets : ByteVec 4) (size : PcrSelectSize) :
    (parseOctets octets size).toNat =
      Bytes.toNatLE octets.toList % 256 ^ size.octets := by
  have hlt : Bytes.toNatLE octets.toList < 256 ^ 4 := by
    have := Bytes.toNatLE_lt octets.toList
    rwa [octets.toList_length] at this
  rw [parseOctets, BitVec.toNat_ofNat, toNatLE_maskOctets]
  exact Nat.mod_eq_of_lt (lt_of_le_of_lt (Nat.mod_le _ _) hlt)

theorem fits_parseOctets (octets : ByteVec 4) (size : PcrSelectSize) :
    (parseOctets octets size).toNat < 256 ^ size.octets := by
  rw [toNat_parseOctets]
  exact Nat.mod_lt _ (Nat.pow_pos (by decide))

/-- `try_from` of a size and its octets. -/
def ofOctets (sizeOfSelect : UInt8) (octets : ByteVec 4) :
    Except Error PcrSlotCollection := do
  let size ← PcrSelectSize.ofU8 sizeOfSelect
  .ok ⟨size, parseOctets octets size, fits_parseOctets octets size⟩

/-- The size and the octets of a collection. -/
def toOctets (collection : PcrSlotCollection) : UInt8 × ByteVec 4 :=
  (.ofNat collection.pcrSelectSize.octets,
    Bytes.zeroPadVec 4
      ((Bytes.ofNatLE 4 collection.pcrSlots.toNat).take
        collection.pcrSelectSize.octets))

/-- A collection is read back as it was written. -/
theorem ofOctets_toOctets (collection : PcrSlotCollection) :
    ofOctets collection.toOctets.1 collection.toOctets.2 =
      .ok collection := by
  obtain ⟨size, bits, hfits⟩ := collection
  have hword : parseOctets (toOctets ⟨size, bits, hfits⟩).2 size = bits := by
    refine BitVec.eq_of_toNat_eq ?_
    have hlen : ((Bytes.ofNatLE 4 bits.toNat).take size.octets).length ≤ 4 := by
      rw [List.length_take, Bytes.length_ofNatLE]
      exact Nat.min_le_right _ _
    rw [toNat_parseOctets, toOctets, Bytes.zeroPadVec_toList,
      Bytes.toNatLE_zeroPad hlen, Bytes.toNatLE_take,
      Bytes.toNatLE_ofNatLE_of_lt bits.isLt, Nat.mod_mod,
      Nat.mod_eq_of_lt hfits]
  simp only [ofOctets, toOctets, PcrSelectSize.ofU8_octets, ok_bind] at hword ⊢
  simp only [hword]

/-- What is read is written back with the octets above its size zeroed. -/
theorem toOctets_ofOctets {sizeOfSelect : UInt8} {octets : ByteVec 4}
    {collection : PcrSlotCollection}
    (hok : ofOctets sizeOfSelect octets = .ok collection) :
    collection.toOctets = (sizeOfSelect,
      Bytes.zeroPadVec 4 (octets.toList.take sizeOfSelect.toNat)) := by
  obtain ⟨size, hsize, hcollection⟩ := bind_eq_ok_iff.mp hok
  have hvalue := PcrSelectSize.ofU8_eq_ok_iff.mp hsize
  cases hcollection
  have hbytes : (Bytes.ofNatLE 4 (parseOctets octets size).toNat).take
      size.octets = octets.toList.take size.octets := by
    refine Bytes.eq_of_toNatLE_eq ?_ ?_
    · rw [List.length_take, List.length_take, Bytes.length_ofNatLE,
        octets.toList_length]
    · rw [Bytes.toNatLE_take, Bytes.toNatLE_take,
        Bytes.toNatLE_ofNatLE_of_lt (parseOctets octets size).isLt,
        toNat_parseOctets, Nat.mod_mod]
  rw [toOctets, hbytes, ← hvalue, UInt8.ofNat_toNat]

theorem exists_ofOctets_iff {sizeOfSelect : UInt8} (octets : ByteVec 4) :
    (∃ collection, ofOctets sizeOfSelect octets = .ok collection) ↔
      1 ≤ sizeOfSelect.toNat ∧ sizeOfSelect.toNat ≤ pcrSelectMax := by
  have hsize : (∃ size, PcrSelectSize.ofU8 sizeOfSelect = .ok size) ↔
      1 ≤ sizeOfSelect.toNat ∧ sizeOfSelect.toNat ≤ pcrSelectMax := by
    simp only [PcrSelectSize.ofU8_eq_ok_iff]
    constructor
    · rintro ⟨size, hvalue⟩
      rw [hvalue]
      cases size <;> decide
    · rintro ⟨hone, hmax⟩
      obtain hvalue | hvalue | hvalue | hvalue : sizeOfSelect.toNat = 1 ∨
          sizeOfSelect.toNat = 2 ∨ sizeOfSelect.toNat = 3 ∨
          sizeOfSelect.toNat = 4 := by
        unfold pcrSelectMax at hmax
        omega
      · exact ⟨.oneOctet, hvalue⟩
      · exact ⟨.twoOctets, hvalue⟩
      · exact ⟨.threeOctets, hvalue⟩
      · exact ⟨.fourOctets, hvalue⟩
  rw [← hsize]
  constructor
  · rintro ⟨collection, hok⟩
    obtain ⟨size, hok, -⟩ := bind_eq_ok_iff.mp hok
    exact ⟨size, hok⟩
  · rintro ⟨size, hok⟩
    exact ⟨_, bind_eq_ok_iff.mpr ⟨size, hok, rfl⟩⟩

end PcrSlotCollection

structure PcrSelection where
  hashingAlgorithm : HashingAlgorithm
  pcrSlotCollection : PcrSlotCollection
deriving DecidableEq

/-- `TPMS_PCR_SELECTION`. -/
structure TpmsPcrSelection where
  hash : UInt16
  sizeofSelect : UInt8
  pcrSelect : ByteVec 4
deriving DecidableEq

namespace PcrSelection

def create (hashingAlgorithm : HashingAlgorithm) (size : PcrSelectSize)
    (slots : List PcrSlot) : Except Error PcrSelection := do
  let collection ← PcrSlotCollection.create size slots
  .ok ⟨hashingAlgorithm, collection⟩

def selected (selection : PcrSelection) : List PcrSlot :=
  selection.pcrSlotCollection.slots

def isSelected (selection : PcrSelection) (slot : PcrSlot) : Bool :=
  selection.pcrSlotCollection.contains (BitFlags.flag slot)

def isEmpty (selection : PcrSelection) : Bool :=
  selection.pcrSlotCollection.isEmpty

def deselectExact (selection : PcrSelection) (slot : PcrSlot) :
    Except Error PcrSelection := do
  let collection ← selection.pcrSlotCollection.removeExact slot
  .ok { selection with pcrSlotCollection := collection }

def deselect (selection : PcrSelection) (slot : PcrSlot) : PcrSelection :=
  { selection with
    pcrSlotCollection :=
      selection.pcrSlotCollection.remove (BitFlags.flag slot) }

def mergeExact (selection other : PcrSelection) :
    Except Error PcrSelection :=
  if selection.hashingAlgorithm ≠ other.hashingAlgorithm then
    .error (.wrapper .invalidParam)
  else do
    let collection ← selection.pcrSlotCollection.mergeExact
      other.pcrSlotCollection
    .ok { selection with pcrSlotCollection := collection }

def subtractExact (selection other : PcrSelection) :
    Except Error PcrSelection :=
  if selection.hashingAlgorithm ≠ other.hashingAlgorithm then
    .error (.wrapper .inconsistentParams)
  else do
    let collection ← selection.pcrSlotCollection.subtractExact
      other.pcrSlotCollection
    .ok { selection with pcrSlotCollection := collection }

def ofTpms (tpms : TpmsPcrSelection) : Except Error PcrSelection :=
  match HashingAlgorithm.ofCode? tpms.hash with
  | none => .error (.wrapper .invalidParam)
  | some hashingAlgorithm => do
      let collection ← PcrSlotCollection.ofOctets tpms.sizeofSelect
        tpms.pcrSelect
      .ok ⟨hashingAlgorithm, collection⟩

def toTpms (selection : PcrSelection) : TpmsPcrSelection where
  hash := selection.hashingAlgorithm.code
  sizeofSelect := selection.pcrSlotCollection.toOctets.1
  pcrSelect := selection.pcrSlotCollection.toOctets.2

theorem ofTpms_toTpms (selection : PcrSelection) :
    ofTpms selection.toTpms = .ok selection := by
  unfold ofTpms toTpms
  simp only [HashingAlgorithm.ofCode?_code,
    PcrSlotCollection.ofOctets_toOctets, ok_bind]

end PcrSelection

/-- The octets above the size of the select, which no reader looks at, are
zero. -/
def TpmsPcrSelection.masked (tpms : TpmsPcrSelection) : TpmsPcrSelection :=
  { tpms with
    pcrSelect := Bytes.zeroPadVec 4
      (tpms.pcrSelect.toList.take tpms.sizeofSelect.toNat) }

/-- A known algorithm, and a select of one to four octets. -/
def TpmsPcrSelection.Valid (tpms : TpmsPcrSelection) : Prop :=
  (HashingAlgorithm.ofCode? tpms.hash).isSome = true ∧
    1 ≤ tpms.sizeofSelect.toNat ∧ tpms.sizeofSelect.toNat ≤ pcrSelectMax

namespace PcrSelection

theorem toTpms_ofTpms {tpms : TpmsPcrSelection} {selection : PcrSelection}
    (hok : ofTpms tpms = .ok selection) : selection.toTpms = tpms.masked := by
  unfold ofTpms at hok
  split at hok
  · cases hok
  · rename_i hashingAlgorithm hcode
    obtain ⟨collection, hcollection, hselection⟩ := bind_eq_ok_iff.mp hok
    cases hselection
    unfold toTpms TpmsPcrSelection.masked
    simp only [PcrSlotCollection.toOctets_ofOctets hcollection,
      HashingAlgorithm.code_of_ofCode? hcode]

theorem exists_ofTpms_iff {tpms : TpmsPcrSelection} :
    (∃ selection, ofTpms tpms = .ok selection) ↔ tpms.Valid := by
  unfold ofTpms TpmsPcrSelection.Valid
  cases HashingAlgorithm.ofCode? tpms.hash with
  | none => simp
  | some hashingAlgorithm =>
      rw [← PcrSlotCollection.exists_ofOctets_iff tpms.pcrSelect]
      simp only [Option.isSome_some, true_and, bind_eq_ok_iff]
      constructor
      · rintro ⟨-, collection, hok, -⟩
        exact ⟨collection, hok⟩
      · rintro ⟨collection, hok⟩
        exact ⟨_, collection, hok, rfl⟩

end PcrSelection

end Vtpm

end Kettle
