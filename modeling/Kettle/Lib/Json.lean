/-
JSON values, and how structs are read from them and written: by field name
from an object, by position from an array, unknown names being ignored.  The
text of a value is a parameter with the laws that callers rely on.
-/
import Kettle.Lib.AssocMap
import Kettle.Lib.Bytes

namespace Kettle

/-- A number is an integer of 64 bits, signed or not, or a finite double. -/
inductive JsonNumber where
  | integer (value : Int) (range : -2 ^ 63 ≤ value ∧ value < 2 ^ 64)
  | float (bits : UInt64) (finite : bits.toNat / 2 ^ 52 % 2 ^ 11 ≠ 2047)
deriving DecidableEq, Repr

def JsonNumber.isInteger : JsonNumber → Bool
  | .integer _ _ => true
  | .float _ _ => false

inductive Json where
  | null
  | boolean (flag : Bool)
  | number (value : JsonNumber)
  | string (text : String)
  | array (values : List Json)
  | object (entries : List (String × Json))

namespace Json

def isNull : Json → Bool
  | null => true
  | _ => false

@[simp] theorem isNull_null : null.isNull = true := rfl

@[simp] theorem isNull_string (text : String) :
    (string text).isNull = false := rfl

section Accessors

def asStr : Json → Option String
  | string text => some text
  | _ => none

def asArray : Json → Option (List Json)
  | array values => some values
  | _ => none

/-- A map keeps the order of its names, and the last value of each. -/
def asObject : Json → Option (AssocMap String Json)
  | object entries => some (AssocMap.ofEntries entries)
  | _ => none

def get? (value : Json) (name : String) : Option Json :=
  value.asObject.bind (·.get? name)

/-- A string under a name. -/
def getStr? (value : Json) (name : String) : Option String :=
  (value.get? name).bind asStr

/-- An object under a name. -/
def getObject? (value : Json) (name : String) :
    Option (AssocMap String Json) :=
  (value.get? name).bind asObject

end Accessors

/-- The value under a name, when the name is there once. -/
@[simp] def entry (entries : List (String × Json)) (name : String) : Option Json :=
  (entries.find? fun entry => entry.1 = name).map (·.2)

/-- No field is given twice. -/
@[simp] def distinctFields (names : List String) (entries : List (String × Json)) :
    Bool :=
  names.all fun name => entries.countP (fun entry => entry.1 = name) ≤ 1

/-- The fields of a struct whose names are `names`, in order. -/
@[simp] def fields (names : List String) : Json → Option (String → Option Json)
  | object entries =>
      if distinctFields names entries then some (entry entries) else none
  | array values =>
      if values.length = names.length then some (entry (names.zip values))
      else none
  | _ => none

/-- The variants of an untagged enum are not read by position. -/
@[simp] def variantFields (names : List String) :
    Json → Option (String → Option Json)
  | object entries => (object entries).fields names
  | _ => none

section Readers

variable {α : Type} (read : Json → Option α)

@[simp] def required (get : String → Option Json) (name : String) : Option α :=
  (get name).bind read

/-- An `Option` field may be missing or null. -/
@[simp] def nullable (get : String → Option Json) (name : String) :
    Option (Option α) :=
  match get name with
  | none => some none
  | some value => if value.isNull then some none else (read value).map some

def readList : Json → Option (List α)
  | array values => values.mapM read
  | _ => none

@[simp] def readString : Json → Option String
  | string text => some text
  | _ => none

@[simp] def readNumber : Json → Option JsonNumber
  | number value => some value
  | _ => none

end Readers

section Writers

variable {α : Type} (write : α → Json)

/-- `skip_serializing_if = "Option::is_none"`. -/
@[simp] def skipNone (name : String) : Option α → List (String × Json)
  | none => []
  | some value => [(name, write value)]

def writeList (values : List α) : Json := array (values.map write)

@[simp] def writeOption : Option α → Json
  | none => null
  | some value => write value

end Writers

@[simp] theorem isNull_writeList {α : Type} (write : α → Json)
    (values : List α) : (writeList write values).isNull = false := rfl

theorem readList_writeList {α : Type} {read : Json → Option α}
    {write : α → Json} (hread : ∀ value, read (write value) = some value)
    (values : List α) : readList read (writeList write values) = some values := by
  have hmapM : (values.map write).mapM read = some values := by
    induction values with
    | nil => rfl
    | cons value rest ih =>
        rw [List.map_cons, List.mapM_cons, hread, ih]
        rfl
  exact hmapM

/-- Integers only, nested at most `depth` deep. -/
inductive Plain : Nat → Json → Prop
  | null {depth : Nat} : Plain depth null
  | boolean {depth : Nat} (flag : Bool) : Plain depth (boolean flag)
  | integer {depth : Nat} {value : JsonNumber} :
      value.isInteger = true → Plain depth (number value)
  | string {depth : Nat} (text : String) : Plain depth (string text)
  | array {depth : Nat} {values : List Json} :
      (∀ value ∈ values, Plain depth value) →
      Plain (depth + 1) (array values)
  | object {depth : Nat} {entries : List (String × Json)} :
      (∀ entry ∈ entries, Plain depth entry.2) →
      Plain (depth + 1) (object entries)

@[simp] theorem plain_string {depth : Nat} (text : String) :
    Plain depth (string text) := .string text

@[simp] theorem plain_object_iff {depth : Nat}
    {entries : List (String × Json)} :
    Plain (depth + 1) (object entries) ↔
      ∀ entry ∈ entries, Plain depth entry.2 := by
  constructor
  · rintro ⟨⟩
    assumption
  · exact .object

theorem plain_writeList {α : Type} {write : α → Json} {depth : Nat}
    (hwrite : ∀ value, Plain depth (write value)) (values : List α) :
    Plain (depth + 1) (writeList write values) := by
  apply Plain.array
  intro value hvalue
  obtain ⟨original, -, rfl⟩ := List.mem_map.mp hvalue
  exact hwrite original

end Json

/-- The text of JSON values, as `to_string_pretty` writes it and as
`from_slice` reads it.  The reader gives up 128 levels down, and need not
read a float back. -/
structure JsonText where
  render : Json → Bytes
  parse : Bytes → Option Json
  render_injective : Function.Injective render
  parse_render : ∀ value, Json.Plain 127 value →
    parse (render value) = some value

end Kettle
