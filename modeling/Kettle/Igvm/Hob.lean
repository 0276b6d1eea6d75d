/-
The HOB list that tells OVMF where the kernel, shim and certificate blobs are:
one 0x30-byte entry a blob and an end marker.
-/
import Kettle.Igvm.Extract

namespace Kettle

namespace Igvm

/-- The reserved field is always zero. -/
structure EfiHobHeader where
  hobType : UInt16
  hobLength : UInt16
deriving DecidableEq, Repr

def EfiHobHeader.asBytes (hdr : EfiHobHeader) : Bytes :=
  Bytes.ofNatLE 2 hdr.hobType.toNat ++ Bytes.ofNatLE 2 hdr.hobLength.toNat ++
    Bytes.ofNatLE 4 0

def EfiHobHeader.endOfList : EfiHobHeader := ⟨0xFFFF, 8⟩

inductive IgvmDataType where
  | pk
  | kek
  | db
  | dbx
  | shim
  | kernel
deriving DecidableEq, Repr

def IgvmDataType.code : IgvmDataType → Nat
  | .pk => 0x100
  | .kek => 0x101
  | .db => 0x102
  | .dbx => 0x103
  | .shim => 0x200
  | .kernel => 0x201

/-- `address` and `length` are `u64`; the flags are always zero. -/
structure EfiIgvmDataHob where
  hdr : EfiHobHeader
  address : Nat
  length : Nat
  dataType : IgvmDataType
deriving DecidableEq, Repr

def EfiIgvmDataHob.new (address length : Nat) (dataType : IgvmDataType) :
    EfiIgvmDataHob :=
  ⟨⟨0x0004, 0x30⟩, address, length, dataType⟩

def EfiIgvmDataHob.asBytes (hob : EfiIgvmDataHob) : Bytes :=
  hob.hdr.asBytes ++ efiIgvmDataHobGuid ++ Bytes.ofNatLE 8 hob.address ++
    Bytes.ofNatLE 8 hob.length ++ Bytes.ofNatLE 4 hob.dataType.code ++
    Bytes.ofNatLE 4 0

@[simp] theorem EfiIgvmDataHob.length_asBytes (hob : EfiIgvmDataHob) :
    hob.asBytes.length = 0x30 := by
  simp [EfiIgvmDataHob.asBytes, EfiHobHeader.asBytes, efiIgvmDataHobGuid]

/-- The extraction reads back what the entry of a kernel says, and passes over
every other entry. -/
theorem EfiIgvmDataHob.kernelHobAt_asBytes (hob : EfiIgvmDataHob) :
    kernelHobAt hob.asBytes 8 =
      if hob.dataType = .kernel then
        some (hob.address % 2 ^ 64, hob.length % 2 ^ 64)
      else none := by
  have hguid : hob.asBytes.slice 8 16 = efiIgvmDataHobGuid := rfl
  have htype : u32At hob.asBytes 0x28 = some hob.dataType.code := by
    have hbytes : hob.asBytes.range? 0x28 0x2c =
        some (Bytes.ofNatLE 4 hob.dataType.code) := rfl
    rw [u32At, hbytes, Option.map_some, Bytes.toNatLE_ofNatLE_of_lt]
    cases hob.dataType <;> decide
  have haddress : hob.asBytes.slice 0x18 8 = Bytes.ofNatLE 8 hob.address :=
    rfl
  have hlength : hob.asBytes.slice 0x20 8 = Bytes.ofNatLE 8 hob.length := rfl
  have hcode : hob.dataType.code = hobDataTypeKernel ↔
      hob.dataType = .kernel := by
    cases hob.dataType <;> decide
  have hwidth : (256 : Nat) ^ 8 = 2 ^ 64 := by norm_num
  simp only [kernelHobAt, hguid, Nat.le_refl, true_and, if_true, Nat.sub_self,
    Nat.zero_add, htype, Option.getD_some, haddress, hlength, hcode,
    Bytes.toNatLE_ofNatLE, hwidth]

structure IgvmDataEntry where
  hob : EfiIgvmDataHob
  addr : Nat
  blob : Bytes
  measured : Bool
deriving DecidableEq, Repr

/-- The blobs placed so far; `base` is where the next one goes. -/
structure IgvmDataList where
  base : Nat
  data : List IgvmDataEntry
deriving DecidableEq, Repr

def IgvmDataList.new (base : Nat) : IgvmDataList := ⟨base, []⟩

/-- `size.next_multiple_of(PAGE_SIZE_4K)`. -/
def roundUp (size : Nat) : Nat :=
  (size + (pageSize - 1)) / pageSize * pageSize

def IgvmDataList.add (list : IgvmDataList) (blob : Bytes)
    (dataType : IgvmDataType) (measured : Bool) : IgvmDataList where
  base := (list.base + roundUp blob.length) % 2 ^ 64
  data := list.data ++
    [⟨.new list.base blob.length dataType, list.base, blob, measured⟩]

def IgvmDataList.hobs (list : IgvmDataList) : Bytes :=
  list.data.flatMap (·.hob.asBytes) ++ EfiHobHeader.endOfList.asBytes

def IgvmDataList.blobs (list : IgvmDataList) (measured : Bool) :
    List (Nat × Bytes) :=
  (list.data.filter (·.measured == measured)).map
    (fun entry => (entry.addr, entry.blob))

end Igvm

end Kettle
