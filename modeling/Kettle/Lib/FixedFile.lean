/-
Files of a fixed size that are read and written at a position, a limited
number of bytes at a time.
-/
import Kettle.Lib.Bytes

namespace Kettle

namespace Bytes

/-- The bytes from a position on are replaced, as many as there are new
ones. -/
def splice (bytes : Bytes) (position : Nat) (part : Bytes) : Bytes :=
  bytes.take position ++ part ++ bytes.drop (position + part.length)

@[simp] theorem splice_nil (bytes : Bytes) (position : Nat) :
    bytes.splice position [] = bytes := by
  rw [splice, List.append_nil]
  exact List.take_append_drop position bytes

theorem length_splice {bytes part : Bytes} {position : Nat}
    (hle : position + part.length ≤ bytes.length) :
    (bytes.splice position part).length = bytes.length := by
  simp only [splice, List.length_append, List.length_take,
    List.length_drop]
  omega

/-- All bytes are replaced. -/
theorem splice_all {bytes part : Bytes} (hlen : part.length = bytes.length) :
    bytes.splice 0 part = part := by
  rw [splice, Nat.zero_add, hlen, List.drop_length, List.append_nil]
  rfl

end Bytes

structure FixedFile where
  bytes : Bytes
  position : Nat
deriving DecidableEq

namespace FixedFile

/-- How many bytes are moved at once. -/
def share (limit room : Nat) (file : FixedFile) : Nat :=
  min limit (min room (file.bytes.length - file.position))

def read (limit room : Nat) (file : FixedFile) : Bytes × FixedFile :=
  (file.bytes.slice file.position (file.share limit room),
    { file with position := file.position + file.share limit room })

def write (limit : Nat) (data : Bytes) (file : FixedFile) :
    Nat × FixedFile :=
  let size := file.share limit data.length
  (size, ⟨file.bytes.splice file.position (data.take size),
    file.position + size⟩)

def seek (position : Nat) (file : FixedFile) : FixedFile :=
  { file with position := position }

variable {limit room : Nat} {file : FixedFile}

theorem share_le (limit room : Nat) (file : FixedFile) :
    file.share limit room ≤ file.bytes.length - file.position :=
  (Nat.min_le_right _ _).trans (Nat.min_le_right _ _)

theorem share_eq_zero_of_le (limit room : Nat)
    (hend : file.bytes.length ≤ file.position) :
    file.share limit room = 0 :=
  Nat.eq_zero_of_le_zero
    ((share_le limit room file).trans_eq (Nat.sub_eq_zero_of_le hend))

theorem share_pos (hlimit : 0 < limit) (hroom : 0 < room)
    (hleft : file.position < file.bytes.length) :
    0 < file.share limit room :=
  lt_min hlimit (lt_min hroom (Nat.sub_pos_of_lt hleft))

theorem length_read (limit room : Nat) (file : FixedFile) :
    (file.read limit room).1.length = file.share limit room := by
  have hle := share_le limit room file
  rw [read]
  by_cases hend : file.bytes.length ≤ file.position
  · rw [share_eq_zero_of_le limit room hend]
    rfl
  · exact Bytes.length_slice (by omega)

theorem length_bytes_write (limit : Nat) (data : Bytes) (file : FixedFile) :
    (file.write limit data).2.bytes.length = file.bytes.length := by
  have hle := share_le limit data.length file
  have hroom : file.share limit data.length ≤ data.length :=
    (Nat.min_le_right _ _).trans (Nat.min_le_left _ _)
  by_cases hend : file.bytes.length ≤ file.position
  · rw [write, share_eq_zero_of_le limit _ hend, List.take_zero,
      Bytes.splice_nil]
  · refine Bytes.length_splice ?_
    rw [List.length_take, Nat.min_eq_left hroom]
    omega

/-- What is read and what is left to read are what was left. -/
theorem read_append_drop (limit room : Nat) (file : FixedFile) :
    (file.read limit room).1 ++
        file.bytes.drop (file.read limit room).2.position =
      file.bytes.drop file.position := by
  rw [read, Bytes.slice, ← List.drop_drop]
  exact List.take_append_drop _ _

end FixedFile

end Kettle
