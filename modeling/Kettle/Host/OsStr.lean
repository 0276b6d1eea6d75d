/-
The names of files.  The system takes any bytes; what is shown, recorded and
compared of a name is its lossy text.
-/
import Kettle.Lib.Utf8

namespace Kettle

/-- `std::str::from_utf8`. -/
def fromUtf8 (bytes : Bytes) : Option String :=
  String.fromUTF8? ⟨bytes.toArray⟩

/-- What is read as a text are the bytes of that text. -/
theorem fromUtf8_eq_some_iff {bytes : Bytes} {text : String} :
    fromUtf8 bytes = some text ↔ text.toUTF8.data.toList = bytes := by
  unfold fromUtf8 String.fromUTF8?
  constructor
  · intro hsome
    split at hsome
    · cases hsome
      simp [String.fromUTF8]
    · cases hsome
  · rintro rfl
    split
    · rename_i hvalid
      simp [String.fromUTF8]
    · rename_i hnot
      exact absurd text.isValidUTF8 hnot

/-- A name is text, or bytes that are no text. -/
inductive OsStr where
  | text (name : String)
  | raw (bytes : Bytes) (notUtf8 : fromUtf8 bytes = none)
deriving DecidableEq, Repr

instance : Coe String OsStr := ⟨OsStr.text⟩

namespace OsStr

/-- `to_string_lossy`. -/
def toStringLossy : OsStr → String
  | text name => name
  | raw bytes _ => String.ofList (Utf8.fromUtf8Lossy bytes)

@[simp] theorem toStringLossy_text (name : String) :
    (text name).toStringLossy = name := rfl

/-- What follows the last dot of a name that does not only start with it. -/
def extensionIn {α : Type} [DecidableEq α] (dot : α) (name : List α) :
    List α :=
  if dot ∈ name.drop 1 then name.rtakeWhile (· ≠ dot) else []

/-- `Path::extension` as a `str`; none counts as empty. -/
def extension : OsStr → String
  | text name => String.ofList (extensionIn '.' name.toList)
  | raw bytes _ => (fromUtf8 (extensionIn 0x2e bytes)).getD ""

end OsStr

end Kettle
