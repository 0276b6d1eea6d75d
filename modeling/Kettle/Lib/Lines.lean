/-
Bytes that are read line by line, as they arrive.  A line ends with a newline,
before which a carriage return is left out; bytes after the last newline are a
line of their own, as they are.
-/
import Kettle.Lib.Bytes

namespace Kettle

namespace Lines

def newline : UInt8 := 10

def carriageReturn : UInt8 := 13

/-- A line without the carriage return at its end. -/
def chomp (line : Bytes) : Bytes :=
  if line.getLast? = some carriageReturn then line.dropLast else line

/-- The lines of the bytes when one has begun. -/
def linesFrom : Bytes → Bytes → List Bytes
  | [], [] => []
  | begun@(_ :: _), [] => [begun]
  | begun, b :: rest =>
      if b = newline then chomp begun :: linesFrom [] rest
      else linesFrom (begun ++ [b]) rest

def linesOf (bytes : Bytes) : List Bytes := linesFrom [] bytes

variable {begun front rest : Bytes}

theorem linesFrom_append (hfront : newline ∉ front) :
    linesFrom begun (front ++ rest) = linesFrom (begun ++ front) rest := by
  induction front generalizing begun with
  | nil => rw [List.nil_append, List.append_nil]
  | cons b front ih =>
      rw [List.mem_cons, not_or] at hfront
      rw [List.cons_append, linesFrom, if_neg (Ne.symm hfront.1),
        ih hfront.2, List.append_assoc, List.singleton_append]

/-- The first line ends at the first newline. -/
theorem linesOf_append_newline (hfront : newline ∉ front) :
    linesOf (front ++ newline :: rest) = chomp front :: linesOf rest := by
  rw [linesOf, linesFrom_append hfront, List.nil_append, linesFrom,
    if_pos rfl]
  rfl

@[simp] theorem linesOf_nil : linesOf [] = [] := rfl

/-- Bytes without a newline are one line. -/
theorem linesOf_of_notMem (hfront : newline ∉ front)
    (hnonempty : front ≠ []) : linesOf front = [front] := by
  have happend := @linesFrom_append [] front [] hfront
  rw [List.append_nil, List.nil_append] at happend
  rw [linesOf, happend]
  cases front with
  | nil => exact absurd rfl hnonempty
  | cons b rest => rfl

end Lines

end Kettle
