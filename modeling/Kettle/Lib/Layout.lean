/-
Records of a fixed size, without padding: any bytes of that size are a value,
and bytes and values correspond one to one, field after field.
-/
import Kettle.Lib.Bytes
import Mathlib.Logic.Equiv.Prod

universe u v

namespace Kettle

/-- The values of a type, laid out in so many bytes. -/
structure Layout (α : Type u) where
  size : Nat
  toVec : α ≃ ByteVec size

namespace Layout

variable {α : Type u} {β : Type v}

def write (layout : Layout α) (value : α) : Bytes :=
  (layout.toVec value).toList

/-- Exactly the bytes of a value are read. -/
def read? (layout : Layout α) (bytes : Bytes) : Option α :=
  if hlen : bytes.length = layout.size then
    some (layout.toVec.symm ⟨bytes, hlen⟩)
  else none

@[simp] theorem length_write (layout : Layout α) (value : α) :
    (layout.write value).length = layout.size :=
  (layout.toVec value).toList_length

theorem read?_eq_some_iff {layout : Layout α} {bytes : Bytes} {value : α} :
    layout.read? bytes = some value ↔ layout.write value = bytes := by
  unfold read? write
  constructor
  · intro hread
    split at hread
    · cases hread
      exact congrArg List.Vector.toList (layout.toVec.apply_symm_apply _)
    · cases hread
  · rintro rfl
    rw [dif_pos (layout.toVec value).toList_length]
    exact congrArg some (layout.toVec.symm_apply_apply value)

/-- What is written is read back. -/
@[simp] theorem read?_write (layout : Layout α) (value : α) :
    layout.read? (layout.write value) = some value :=
  read?_eq_some_iff.mpr rfl

/-- Bytes of the right size are those of some value. -/
theorem exists_read? {layout : Layout α} {bytes : Bytes}
    (hlen : bytes.length = layout.size) :
    ∃ value, layout.read? bytes = some value :=
  ⟨_, dif_pos hlen⟩

/-- Bytes as they are. -/
def vec (size : Nat) : Layout (ByteVec size) := ⟨size, Equiv.refl _⟩

@[simp] theorem write_vec {size : Nat} (bytes : ByteVec size) :
    (vec size).write bytes = bytes.toList := rfl

theorem length_ofNatLE_toNat (value : UInt32) :
    (Bytes.ofNatLE 4 value.toNat).length = 4 :=
  Bytes.length_ofNatLE 4 value.toNat

def wordBytes (value : UInt32) : ByteVec 4 :=
  ⟨Bytes.ofNatLE 4 value.toNat, length_ofNatLE_toNat value⟩

def ofWordBytes (bytes : ByteVec 4) : UInt32 :=
  .ofNat (Bytes.toNatLE bytes.toList)

theorem ofWordBytes_wordBytes (value : UInt32) :
    ofWordBytes (wordBytes value) = value := by
  have hlt : value.toNat < 256 ^ 4 := value.toNat_lt
  have hread := Bytes.toNatLE_ofNatLE_of_lt hlt
  rw [← UInt32.toNat_inj]
  exact (UInt32.toNat_ofNat_of_lt' (hread.trans_lt hlt)).trans hread

theorem wordBytes_ofWordBytes (bytes : ByteVec 4) :
    wordBytes (ofWordBytes bytes) = bytes := by
  have hlen : bytes.toList.length = 4 := bytes.toList_length
  have hlt := Bytes.toNatLE_lt bytes.toList
  have hsame := Bytes.ofNatLE_toNatLE bytes.toList
  rw [hlen] at hlt hsame
  apply List.Vector.toList_injective
  rw [← hsame]
  exact congrArg (Bytes.ofNatLE 4) (UInt32.toNat_ofNat_of_lt' hlt)

/-- A little-endian word. -/
def u32 : Layout UInt32 where
  size := 4
  toVec := ⟨wordBytes, ofWordBytes, ofWordBytes_wordBytes,
    wordBytes_ofWordBytes⟩

@[simp] theorem write_u32 (value : UInt32) :
    u32.write value = Bytes.ofNatLE 4 value.toNat := rfl

theorem head_cons_nil (bytes : ByteVec 1) :
    bytes.head ::ᵥ List.Vector.nil = bytes :=
  bytes.singleton_tail ▸ bytes.cons_head_tail

/-- One byte. -/
def u8 : Layout UInt8 where
  size := 1
  toVec := ⟨fun value => value ::ᵥ .nil, List.Vector.head, fun _ => rfl,
    head_cons_nil⟩

section Halves

variable {front back : Nat}

theorem length_take_front (bytes : ByteVec (front + back)) :
    (bytes.toList.take front).length = front := by
  rw [List.length_take, bytes.toList_length]
  exact Nat.min_eq_left (Nat.le_add_right front back)

theorem length_drop_front (bytes : ByteVec (front + back)) :
    (bytes.toList.drop front).length = back := by
  rw [List.length_drop, bytes.toList_length]
  exact Nat.add_sub_cancel_left front back

def cut (bytes : ByteVec (front + back)) : ByteVec front × ByteVec back :=
  (⟨bytes.toList.take front, length_take_front bytes⟩,
    ⟨bytes.toList.drop front, length_drop_front bytes⟩)

theorem cut_append (parts : ByteVec front × ByteVec back) :
    cut (parts.1 ++ parts.2) = parts := by
  obtain ⟨left, right⟩ := parts
  have hlen : left.toList.length = front := left.toList_length
  have happend := List.Vector.toList_append left right
  refine Prod.ext (List.Vector.toList_injective ?_)
    (List.Vector.toList_injective ?_)
  · exact (congrArg (List.take front) happend).trans (List.take_left' hlen)
  · exact (congrArg (List.drop front) happend).trans (List.drop_left' hlen)

theorem append_cut (bytes : ByteVec (front + back)) :
    (cut bytes).1 ++ (cut bytes).2 = bytes := by
  apply List.Vector.toList_injective
  rw [List.Vector.toList_append]
  exact List.take_append_drop front bytes.toList

end Halves

/-- The two parts of some bytes. -/
def halves (front back : Nat) :
    ByteVec front × ByteVec back ≃ ByteVec (front + back) :=
  ⟨fun parts => parts.1 ++ parts.2, cut, cut_append, append_cut⟩

/-- One value after another. -/
def pair (first : Layout α) (second : Layout β) : Layout (α × β) where
  size := first.size + second.size
  toVec := (Equiv.prodCongr first.toVec second.toVec).trans
    (halves first.size second.size)

@[simp] theorem write_pair (first : Layout α) (second : Layout β)
    (value : α × β) :
    (first.pair second).write value =
      first.write value.1 ++ second.write value.2 :=
  List.Vector.toList_append _ _

/-- A record by the fields that it is made of. -/
def record (fields : β ≃ α) (layout : Layout α) : Layout β where
  size := layout.size
  toVec := fields.trans layout.toVec

@[simp] theorem write_record (fields : β ≃ α) (layout : Layout α)
    (value : β) : (layout.record fields).write value =
      layout.write (fields value) := rfl

/-- A vector by its first element and the others. -/
def headTail (count : Nat) :
    List.Vector α (count + 1) ≃ α × List.Vector α count :=
  ⟨fun values => (values.head, values.tail),
    fun parts => parts.1 ::ᵥ parts.2, List.Vector.cons_head_tail,
    fun _ => rfl⟩

/-- The only vector without elements. -/
def noElements : List.Vector α 0 ≃ ByteVec 0 :=
  ⟨fun _ => .nil, fun _ => .nil, fun values => values.eq_nil.symm,
    fun bytes => bytes.eq_nil.symm⟩

/-- Elements in a row. -/
def array (layout : Layout α) : (count : Nat) → Layout (List.Vector α count)
  | 0 => ⟨0, noElements⟩
  | count + 1 => (layout.pair (layout.array count)).record (headTail count)

end Layout

end Kettle
