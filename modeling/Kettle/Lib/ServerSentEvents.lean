/-
Streams of messages as lines of text.  A message is the values of its data
lines, and an empty line ends it; other fields, and comments, are skipped.  A
reader goes byte by byte, so that what it has read stays read wherever the
stream breaks off.
-/
import Kettle.Lib.Lines

namespace Kettle

namespace SseReader

open Lines (newline carriageReturn)

def colon : UInt8 := 58

def space : UInt8 := 32

/-- The name of the field of a message. -/
def dataName : Bytes := [100, 97, 116, 97]

end SseReader

structure SseReader where
  line : Bytes
  /-- The last byte was a carriage return, which a newline may belong to. -/
  afterReturn : Bool
  data : List Bytes
  messages : List Bytes
deriving DecidableEq

namespace SseReader

open Lines (newline carriageReturn)

def start : SseReader := ⟨[], false, [], []⟩

/-- A field's value without the space before it. -/
def dropSpace : Bytes → Bytes
  | [] => []
  | b :: rest => if b = space then rest else b :: rest

/-- A line that has a colon, or that is a name alone. -/
def field (line : Bytes) : Bytes × Bytes :=
  (line.takeWhile (· ≠ colon),
    dropSpace ((line.dropWhile (· ≠ colon)).drop 1))

def dispatch (reader : SseReader) : SseReader :=
  if reader.data = [] then reader
  else { reader with
    data := []
    messages := reader.messages ++
      [List.intercalate [newline] reader.data] }

def endLine (reader : SseReader) : SseReader :=
  if reader.line = [] then reader.dispatch
  else if (field reader.line).1 = dataName then
    { reader with line := [], data := reader.data ++ [(field reader.line).2] }
  else { reader with line := [] }

def step (reader : SseReader) (b : UInt8) : SseReader :=
  if b = newline then
    if reader.afterReturn then { reader with afterReturn := false }
    else reader.endLine
  else if b = carriageReturn then
    { reader.endLine with afterReturn := true }
  else { reader with line := reader.line ++ [b], afterReturn := false }

def read (reader : SseReader) (bytes : Bytes) : SseReader :=
  bytes.foldl step reader

/-- The messages of the bytes that have arrived. -/
def messagesOf (bytes : Bytes) : List Bytes := (start.read bytes).messages

theorem read_append (reader : SseReader) (front back : Bytes) :
    reader.read (front ++ back) = (reader.read front).read back :=
  List.foldl_append

theorem messages_dispatch (reader : SseReader) :
    reader.messages <+: reader.dispatch.messages := by
  unfold dispatch
  split
  · exact List.prefix_refl _
  · exact List.prefix_append _ _

theorem messages_endLine (reader : SseReader) :
    reader.messages <+: reader.endLine.messages := by
  unfold endLine
  split
  · exact messages_dispatch reader
  · split
    · exact List.prefix_refl _
    · exact List.prefix_refl _

theorem messages_step (reader : SseReader) (b : UInt8) :
    reader.messages <+: (reader.step b).messages := by
  unfold step
  split
  · split
    · exact List.prefix_refl _
    · exact messages_endLine reader
  · split
    · exact messages_endLine reader
    · exact List.prefix_refl _

/-- What has been read stays read. -/
theorem messages_read (reader : SseReader) (bytes : Bytes) :
    reader.messages <+: (reader.read bytes).messages := by
  induction bytes generalizing reader with
  | nil => exact List.prefix_refl _
  | cons b rest ih => exact (messages_step reader b).trans (ih _)

theorem messagesOf_prefix {front bytes : Bytes} (hfront : front <+: bytes) :
    messagesOf front <+: messagesOf bytes := by
  obtain ⟨back, rfl⟩ := hfront
  unfold messagesOf
  rw [read_append]
  exact messages_read _ back

/-- Between two messages. -/
def idle (messages : List Bytes) : SseReader := ⟨[], false, [], messages⟩

/-- Neither kind of line end. -/
def OnOneLine (bytes : Bytes) : Prop :=
  newline ∉ bytes ∧ carriageReturn ∉ bytes

theorem onOneLine_append {front back : Bytes} :
    OnOneLine (front ++ back) ↔ OnOneLine front ∧ OnOneLine back := by
  simp only [OnOneLine, List.mem_append, not_or]
  tauto

theorem read_onOneLine {bytes : Bytes} (hline : OnOneLine bytes)
    (line : Bytes) (data messages : List Bytes) :
    read ⟨line, false, data, messages⟩ bytes =
      ⟨line ++ bytes, false, data, messages⟩ := by
  induction bytes generalizing line with
  | nil => rw [List.append_nil]; rfl
  | cons b rest ih =>
      have hb : b ≠ newline ∧ b ≠ carriageReturn :=
        ⟨fun heq => hline.1 (heq ▸ List.mem_cons_self),
          fun heq => hline.2 (heq ▸ List.mem_cons_self)⟩
      have hrest : OnOneLine rest :=
        ⟨fun hmem => hline.1 (List.mem_cons_of_mem b hmem),
          fun hmem => hline.2 (List.mem_cons_of_mem b hmem)⟩
      change read (step _ b) rest = _
      rw [step, if_neg hb.1, if_neg hb.2, ih hrest, List.append_assoc]
      rfl

theorem step_newline {reader : SseReader}
    (hreturn : reader.afterReturn = false) :
    reader.step newline = reader.endLine := by
  rw [step, if_pos rfl, hreturn]
  rfl

/-- A line that is not empty, and an empty one. -/
theorem read_line {line : Bytes} (hline : OnOneLine line)
    (hnonempty : line ≠ []) (messages : List Bytes) :
    (idle messages).read (line ++ [newline, newline]) =
      if (field line).1 = dataName then
        idle (messages ++ [(field line).2])
      else idle messages := by
  rw [read_append, idle, read_onOneLine hline, List.nil_append]
  change step (step _ newline) newline = _
  have hfirst : step ⟨line, false, [], messages⟩ newline =
      endLine ⟨line, false, [], messages⟩ := step_newline rfl
  rw [hfirst, endLine, if_neg hnonempty]
  split
  · rw [step_newline rfl]
    exact congrArg idle (congrArg (messages ++ [·]) (List.append_nil _))
  · rfl

/-- `data: ` in front of a text. -/
def dataLine (text : Bytes) : Bytes := dataName ++ [colon, space] ++ text

theorem field_dataLine (text : Bytes) :
    field (dataLine text) = (dataName, text) := rfl

/-- A message of one line is read as it is. -/
theorem read_message {text : Bytes} (htext : OnOneLine text)
    (messages : List Bytes) :
    (idle messages).read (dataLine text ++ [newline, newline]) =
      idle (messages ++ [text]) := by
  have hline : OnOneLine (dataLine text) :=
    onOneLine_append.mpr ⟨by unfold OnOneLine; decide, htext⟩
  rw [read_line hline nofun, field_dataLine, if_pos rfl]

theorem read_comment {comment : Bytes} (hcomment : OnOneLine comment)
    (messages : List Bytes) :
    (idle messages).read (colon :: comment ++ [newline, newline]) =
      idle messages := by
  have hline : OnOneLine (colon :: comment) :=
    (@onOneLine_append [colon] comment).mpr
      ⟨by unfold OnOneLine; decide, hcomment⟩
  rw [read_line hline nofun]
  exact if_neg (by rw [field, List.takeWhile_cons]; simp [dataName])

end SseReader

end Kettle
