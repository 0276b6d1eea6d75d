/-
Files of NV indices.  An open index is read and written at an offset, no more
bytes at once than the TPM has a buffer for; all of it is read in as many
reads as that takes.
-/
import Kettle.Lib.FixedFile
import Kettle.Vtpm.Context

namespace Kettle

namespace Vtpm

/-- `TPM2_PT_NV_BUFFER_MAX`. -/
def nvBufferMax : UInt32 := 300

inductive NvOpenOptions where
  | newIndex (nvPublic : NvPublic) (authHandle : NvAuth)
  | existingIndex (nvIndexHandle : NvIndexTpmHandle) (authHandle : NvAuth)

/-- What is open, beside the context that it is open in. -/
structure NvReaderWriter where
  authHandle : NvAuth
  bufferSize : Nat
  nvIdx : UInt32
  dataSize : Nat
  offset : Nat

/-- An error of the file's operations. -/
inductive IoError where
  | other (error : Error)
  | invalidInput
deriving DecidableEq, Repr

namespace IoError

/-- An error of the TPM is handed on by `read_full`. -/
def toError : IoError → Error
  | .other error => error
  | .invalidInput => .wrapper .invalidParam

end IoError

inductive SeekFrom where
  | start (offset : UInt64)
  | fromEnd (offset : Int64)
  | current (offset : Int64)
deriving DecidableEq

/-- `Provision::try_from`. -/
def provision : NvAuth → Except Error Provision
  | .owner => .ok .owner
  | .platform => .ok .platform
  | .nvIndex _ => .error (.wrapper .invalidParam)

section Operations

variable {σ : Type} (esys : Esys σ)

def maxNvBufferSize : Command Error (Context σ) Nat := do
  let value ← Context.getTpmProperty esys nvBufferMax
  Command.ret ((value.map UInt32.toNat).getD maxNvBufferMaxSize)

namespace NvOpenOptions

def openIndex : NvOpenOptions → Command Error (Context σ) NvReaderWriter
  | .existingIndex nvIndexHandle authHandle => do
      let bufferSize ← maxNvBufferSize esys
      let nvIdx ← Context.executeWithoutSession
        (Context.trFromTpmPublic esys nvIndexHandle.value)
      let nvPublic ← Context.executeWithoutSession
        (Context.nvReadPublic esys nvIdx)
      Command.ret ⟨authHandle, bufferSize, nvIdx, nvPublic.1.dataSize, 0⟩
  | .newIndex nvPublic authHandle => do
      let bufferSize ← maxNvBufferSize esys
      let nvAuth ← Command.ofExcept (provision authHandle)
      let nvIdx ← Context.nvDefineSpace esys nvAuth none nvPublic
      Command.ret ⟨authHandle, bufferSize, nvIdx, nvPublic.dataSize, 0⟩

end NvOpenOptions

namespace NvReaderWriter

abbrev Op (σ α : Type) :=
  Command IoError (Context σ × NvReaderWriter) α

def onContext {α : Type} (cmd : Command Error (Context σ) α) : Op σ α :=
  (cmd.mapErr .other).zoom Prod.fst fun both ctx => (ctx, both.2)

/-- `self.offset += size`. -/
def advance (size : Nat) : Op σ Unit :=
  Command.update fun both =>
    (both.1, { both.2 with offset := both.2.offset + size })

/-- The bytes that are copied into a buffer with some room. -/
def read (room : Nat) : Op σ Bytes := do
  let (_, rw) ← Command.read
  if rw.dataSize ≤ rw.offset then Command.ret []
  else
    let desiredSize := min room (rw.dataSize - rw.offset)
    let size : UInt16 := .ofNat (min rw.bufferSize desiredSize)
    let res ← onContext (Context.nvRead esys rw.authHandle rw.nvIdx size
      (.ofNat rw.offset))
    -- `copy_from_slice` wants equal lengths
    if res.length ≠ size.toNat then Command.panic
    else
      advance size.toNat
      Command.ret res

def write (buf : Bytes) : Op σ Nat := do
  let (_, rw) ← Command.read
  if rw.dataSize < rw.offset then Command.ret 0
  else
    let desiredSize := min buf.length (rw.dataSize - rw.offset)
    let size : UInt16 := .ofNat (min rw.bufferSize desiredSize)
    let data ← (Command.ofExcept (maxNvBuffer (buf.take size.toNat))).mapErr
      .other
    onContext (Context.nvWrite esys rw.authHandle rw.nvIdx data
      (.ofNat rw.offset))
    advance size.toNat
    Command.ret size.toNat

/-- Where a seek goes, of positions that are 64-bit integers. -/
def newOffset (dataSize offset : Nat) (pos : SeekFrom) : Option Nat :=
  let (base, change) :=
    match pos with
    | .start offset => (offset.toNat, 0)
    | .fromEnd change => (dataSize, change.toInt)
    | .current change => (offset, change.toInt)
  if 2 ^ 63 ≤ base then none
  else if 2 ^ 63 ≤ (base : Int) + change then none
  else if (base : Int) + change < 0 then none
  else some ((base : Int) + change).toNat

def seek (pos : SeekFrom) : Op σ Nat := do
  let (_, rw) ← Command.read
  match newOffset rw.dataSize rw.offset pos with
  | none => Command.fail .invalidInput
  | some offset =>
      Command.update fun both => (both.1, { both.2 with offset := offset })
      Command.ret offset

/-- `Drop for NvReaderWriter`. -/
def drop : Op σ Unit := do
  let (_, rw) ← Command.read
  onContext (Context.executeWithoutSession (Context.trClose esys rw.nvIdx))

/-- `read_to_end`, into buffers with some room in each turn, until a read
returns nothing. -/
def readToEnd (rooms : Nat → Nat) : Nat → Nat → Bytes → Op σ Bytes
  | 0, _, _ => Command.panic
  | fuel + 1, turn, result => do
      let part ← read esys (rooms turn)
      if part.length = 0 then Command.ret result
      else readToEnd rooms fuel (turn + 1) (result ++ part)

end NvReaderWriter

/-- The data is read in no more turns than it has bytes, and one that reads
nothing. -/
def readFull (rooms : Nat → Nat) (authHandle : NvAuth)
    (nvIndexHandle : NvIndexTpmHandle) :
    Command Error (Context σ) Bytes := do
  let rw ← NvOpenOptions.openIndex esys
    (.existingIndex nvIndexHandle authHandle)
  Command.withLocal rw
    (((NvReaderWriter.readToEnd esys rooms (rw.dataSize + 1) 0 []).dropping
      (NvReaderWriter.drop esys)).mapErr IoError.toError)

end Operations

namespace NvReaderWriter

variable {σ : Type} {esys : Esys σ} {view : σ → NvView}

abbrev State (σ : Type) := Context σ × NvReaderWriter

/-- The open index is a file, of no more bytes than an offset counts. -/
structure Represents (view : σ → NvView) (index : NvIndexTpmHandle)
    (state : State σ) (file : FixedFile) : Prop where
  refers : (view state.1.esysContext).refers state.2.nvIdx = some index
  contents : (view state.1.esysContext).contents index = some file.bytes
  dataSize : state.2.dataSize = file.bytes.length
  offset : state.2.offset = file.position
  fits : file.bytes.length ≤ nvIndexMax

/-- The other indices, the sessions and what an open file keeps. -/
structure Frame (view : σ → NvView) (index : NvIndexTpmHandle)
    (before after : State σ) : Prop where
  contents : ∀ other, other ≠ index →
    (view after.1.esysContext).contents other =
      (view before.1.esysContext).contents other
  sessions : after.1.sessions = before.1.sessions
  properties : after.1.cachedTpmProperties = before.1.cachedTpmProperties
  bufferSize : after.2.bufferSize = before.2.bufferSize

theorem Frame.refl (index : NvIndexTpmHandle) (state : State σ) :
    Frame view index state state :=
  ⟨fun _ _ => rfl, rfl, rfl, rfl⟩

theorem Frame.trans {index : NvIndexTpmHandle} {first second third : State σ}
    (hfirst : Frame view index first second)
    (hsecond : Frame view index second third) :
    Frame view index first third :=
  ⟨fun other hother => (hsecond.contents other hother).trans
      (hfirst.contents other hother),
    hsecond.sessions.trans hfirst.sessions,
    hsecond.properties.trans hfirst.properties,
    hsecond.bufferSize.trans hfirst.bufferSize⟩

open Command

section Steps

variable {index : NvIndexTpmHandle} {state : State σ} {file : FixedFile}

/-- A command of the context that leaves the index and its handle leaves the
file. -/
theorem Represents.of_keeps {ctx : Context σ}
    (hfile : Represents view index state file)
    (hkeeps : Context.Keeps view state.1 ctx)
    (hrefers : (view ctx.esysContext).refers =
      (view state.1.esysContext).refers) :
    Represents view index (ctx, state.2) file where
  refers := hrefers ▸ hfile.refers
  contents := hkeeps.contents ▸ hfile.contents
  dataSize := hfile.dataSize
  offset := hfile.offset
  fits := hfile.fits

theorem Frame.of_keeps {ctx : Context σ}
    (hkeeps : Context.Keeps view state.1 ctx) :
    Frame view index state (ctx, state.2) :=
  ⟨fun _ _ => congrFun hkeeps.contents _, hkeeps.sessions,
    hkeeps.properties, rfl⟩

theorem ends_onContext {α : Type} {cmd : Command Error (Context σ) α}
    {post : α → State σ → Prop} {failed : IoError → State σ → Prop} :
    (onContext cmd).Ends state post failed ↔
      cmd.Ends state.1 (fun value ctx => post value (ctx, state.2))
        (fun error ctx => failed (.other error) (ctx, state.2)) := by
  unfold onContext
  rw [ends_zoom, ends_mapErr]

/-- The number of bytes and the offset are not cut to 16 bits. -/
theorem toNat_share (limit room : Nat)
    (hfits : file.bytes.length ≤ nvIndexMax)
    (hleft : file.position ≤ file.bytes.length) :
    (UInt16.ofNat (min limit (min room
        (file.bytes.length - file.position)))).toNat =
      file.share limit room ∧
    (UInt16.ofNat file.position).toNat = file.position := by
  have hshare := FixedFile.share_le limit room file
  have hmax : nvIndexMax = 2 ^ 16 - 1 := rfl
  constructor
  · exact UInt16.toNat_ofNat_of_lt' (by
      change file.share limit room < 2 ^ 16
      omega)
  · exact UInt16.toNat_ofNat_of_lt' (by
      change file.position < 2 ^ 16
      omega)

theorem ends_read {room : Nat} (hlaws : NvLaws esys view)
    (hfile : Represents view index state file) :
    (read esys room).Ends state
      (fun part after =>
        part = (file.read state.2.bufferSize room).1 ∧
        Represents view index after
          (file.read state.2.bufferSize room).2 ∧
        Frame view index state after)
      (fun error after => (∃ tpm, error = .other tpm) ∧
        Represents view index after file ∧
        Frame view index state after) := by
  unfold read
  rw [ends_bind, Command.ends_read]
  dsimp only
  split
  · rename_i hend
    rw [hfile.dataSize, hfile.offset] at hend
    have hnone := FixedFile.share_eq_zero_of_le state.2.bufferSize room hend
    refine ⟨?_, ⟨hfile.refers, hfile.contents, hfile.dataSize, ?_,
      hfile.fits⟩, .refl index state⟩
    · exact (List.length_eq_zero_iff.mp ((FixedFile.length_read _ _ _).trans
        hnone)).symm
    · rw [hfile.offset, FixedFile.read, hnone]
      rfl
  · rename_i hmore
    rw [hfile.dataSize, hfile.offset] at hmore
    obtain ⟨hsize, hoffset⟩ := toNat_share state.2.bufferSize room
      hfile.fits (Nat.not_le.mp hmore).le
    rw [hfile.dataSize, hfile.offset, ends_bind, ends_onContext]
    refine (Context.ends_nvRead hlaws hfile.refers hfile.contents).mono
      (fun part ctx hread => ?_) (fun error ctx hfailed => ?_)
    · obtain ⟨hkeeps, hrefers, hinside, rfl⟩ := hread
      rw [hsize, hoffset] at *
      rw [if_neg (not_not_intro (Bytes.length_slice hinside))]
      refine ⟨rfl, ⟨hrefers ▸ hfile.refers, hkeeps.contents ▸ hfile.contents,
        hfile.dataSize, congrArg (· + _) hfile.offset, hfile.fits⟩,
        fun _ _ => congrFun hkeeps.contents _, hkeeps.sessions,
        hkeeps.properties, rfl⟩
    · exact ⟨⟨error, rfl⟩, hfile.of_keeps hfailed.1 hfailed.2,
        .of_keeps hfailed.1⟩

theorem maxNvBuffer_eq_ok {bytes data : Bytes}
    (hok : maxNvBuffer bytes = .ok data) : data = bytes := by
  unfold maxNvBuffer at hok
  split at hok
  · cases hok
  · cases hok
    rfl

theorem ends_write {buf : Bytes} (hlaws : NvLaws esys view)
    (hfile : Represents view index state file) :
    (write esys buf).Ends state
      (fun size after =>
        size = (file.write state.2.bufferSize buf).1 ∧
        Represents view index after
          (file.write state.2.bufferSize buf).2 ∧
        Frame view index state after)
      (fun error after => (∃ tpm, error = .other tpm) ∧
        Represents view index after file ∧
        Frame view index state after) := by
  unfold write
  rw [ends_bind, Command.ends_read]
  dsimp only
  split
  · rename_i hend
    rw [hfile.dataSize, hfile.offset] at hend
    have hnone := FixedFile.share_eq_zero_of_le state.2.bufferSize
      buf.length hend.le
    have hsame : file.write state.2.bufferSize buf = (0, file) := by
      rw [FixedFile.write, hnone, List.take_zero, Bytes.splice_nil]
      rfl
    rw [hsame]
    exact ⟨rfl, hfile, .refl index state⟩
  · rename_i hmore
    rw [hfile.dataSize, hfile.offset] at hmore
    obtain ⟨hsize, hoffset⟩ := toNat_share state.2.bufferSize buf.length
      hfile.fits (Nat.not_lt.mp hmore)
    have hlen := FixedFile.length_bytes_write state.2.bufferSize buf file
    rw [hfile.dataSize, hfile.offset, ends_bind, ends_mapErr, ends_ofExcept,
      hsize]
    cases hdata : maxNvBuffer
        (buf.take (file.share state.2.bufferSize buf.length)) with
    | error error => exact ⟨⟨error, rfl⟩, hfile, .refl index state⟩
    | ok data =>
        rw [maxNvBuffer_eq_ok hdata]
        dsimp only
        rw [ends_bind, ends_onContext]
        refine (Context.ends_nvWrite hlaws hfile.refers hfile.contents).mono
          (fun _ ctx hwritten => ?_) (fun error ctx hfailed => ?_)
        · obtain ⟨hsessions, hproperties, hrefers, -, hcontents⟩ := hwritten
          rw [hoffset] at hcontents
          refine ⟨rfl, ⟨hrefers ▸ hfile.refers, ?_, ?_,
            congrArg (· + _) hfile.offset, ?_⟩, fun other hother => ?_,
            hsessions, hproperties, rfl⟩
          · rw [hcontents]
            exact Function.update_self index _ _
          · exact hfile.dataSize.trans hlen.symm
          · exact hlen ▸ hfile.fits
          · rw [hcontents]
            exact Function.update_of_ne hother _ _
        · exact ⟨⟨error, rfl⟩, hfile.of_keeps hfailed.1 hfailed.2,
            .of_keeps hfailed.1⟩

theorem ends_seek {pos : SeekFrom}
    (hfile : Represents view index state file) :
    (seek pos).Ends state
      (fun offset after =>
        newOffset file.bytes.length file.position pos = some offset ∧
        Represents view index after (file.seek offset) ∧
        Frame view index state after)
      (fun error after => error = .invalidInput ∧
        newOffset file.bytes.length file.position pos = none ∧
        Represents view index after file ∧
        Frame view index state after) := by
  unfold seek
  rw [ends_bind, Command.ends_read]
  dsimp only
  rw [hfile.dataSize, hfile.offset]
  cases hoffset : newOffset file.bytes.length file.position pos with
  | none => exact ⟨rfl, rfl, hfile, .refl index state⟩
  | some offset =>
      exact ⟨rfl, ⟨hfile.refers, hfile.contents, hfile.dataSize, rfl,
        hfile.fits⟩, fun _ _ => rfl, rfl, rfl, rfl⟩

end Steps

/-- What a client does with an open index. -/
inductive FileOp where
  | read (room : Nat)
  | write (buf : Bytes)
  | seek (pos : SeekFrom)

inductive FileReply where
  | bytes (part : Bytes)
  | count (size : Nat)
  | position (offset : Nat)
deriving DecidableEq

def runOp (esys : Esys σ) : FileOp → Op σ FileReply
  | .read room => do
      let part ← read esys room
      Command.ret (.bytes part)
  | .write buf => do
      let size ← write esys buf
      Command.ret (.count size)
  | .seek pos => do
      let offset ← seek pos
      Command.ret (.position offset)

/-- A client goes on after an error. -/
def runOps (esys : Esys σ) (ops : List FileOp) :
    Op σ (List (Except IoError FileReply)) :=
  Command.forEach (fun op => (runOp esys op).attempt) ops

/-- How the file answers.  The TPM may refuse to move bytes; a seek is
refused when there is no such position.  In both cases nothing changes. -/
inductive FileStep (limit : Nat) : FixedFile → FileOp →
    Except IoError FileReply → FixedFile → Prop
  | read (file : FixedFile) (room : Nat) :
      FileStep limit file (.read room)
        (.ok (.bytes (file.read limit room).1)) (file.read limit room).2
  | readFailed (file : FixedFile) (room : Nat) (error : Error) :
      FileStep limit file (.read room) (.error (.other error)) file
  | write (file : FixedFile) (buf : Bytes) :
      FileStep limit file (.write buf)
        (.ok (.count (file.write limit buf).1)) (file.write limit buf).2
  | writeFailed (file : FixedFile) (buf : Bytes) (error : Error) :
      FileStep limit file (.write buf) (.error (.other error)) file
  | seek (file : FixedFile) (pos : SeekFrom) (offset : Nat)
      (hoffset : newOffset file.bytes.length file.position pos =
        some offset) :
      FileStep limit file (.seek pos) (.ok (.position offset))
        (file.seek offset)
  | seekFailed (file : FixedFile) (pos : SeekFrom)
      (hoffset : newOffset file.bytes.length file.position pos = none) :
      FileStep limit file (.seek pos) (.error .invalidInput) file

inductive FileRun (limit : Nat) : FixedFile → List FileOp →
    List (Except IoError FileReply) → FixedFile → Prop
  | nil (file : FixedFile) : FileRun limit file [] [] file
  | cons {first second third : FixedFile} {op : FileOp}
      {reply : Except IoError FileReply} {ops : List FileOp}
      {replies : List (Except IoError FileReply)}
      (hstep : FileStep limit first op reply second)
      (hrun : FileRun limit second ops replies third) :
      FileRun limit first (op :: ops) (reply :: replies) third

section Run

variable {index : NvIndexTpmHandle} {state : State σ} {file : FixedFile}

theorem ends_runOp (hlaws : NvLaws esys view)
    (hfile : Represents view index state file) (op : FileOp) :
    (runOp esys op).attempt.Ends state
      (fun reply after => ∃ file',
        FileStep state.2.bufferSize file op reply file' ∧
        Represents view index after file' ∧ Frame view index state after)
      (fun _ _ => False) := by
  rw [ends_attempt]
  cases op with
  | read room =>
      unfold runOp
      rw [ends_bind]
      refine (ends_read hlaws hfile).mono (fun part after hpart => ?_)
        (fun error after hfailed => ?_)
      · obtain ⟨rfl, hafter⟩ := hpart
        exact ⟨_, .read file room, hafter⟩
      · obtain ⟨⟨tpm, rfl⟩, hafter⟩ := hfailed
        exact ⟨file, .readFailed file room tpm, hafter⟩
  | write buf =>
      unfold runOp
      rw [ends_bind]
      refine (ends_write hlaws hfile).mono (fun size after hsize => ?_)
        (fun error after hfailed => ?_)
      · obtain ⟨rfl, hafter⟩ := hsize
        exact ⟨_, .write file buf, hafter⟩
      · obtain ⟨⟨tpm, rfl⟩, hafter⟩ := hfailed
        exact ⟨file, .writeFailed file buf tpm, hafter⟩
  | seek pos =>
      unfold runOp
      rw [ends_bind]
      refine (ends_seek hfile).mono (fun offset after hoffset => ?_)
        (fun error after hfailed => ?_)
      · exact ⟨_, .seek file pos offset hoffset.1, hoffset.2⟩
      · obtain ⟨rfl, hnone, hafter⟩ := hfailed
        exact ⟨file, .seekFailed file pos hnone, hafter⟩

theorem ends_runOps (hlaws : NvLaws esys view)
    (hfile : Represents view index state file) (ops : List FileOp) :
    (runOps esys ops).Ends state
      (fun replies after => ∃ file',
        FileRun state.2.bufferSize file ops replies file' ∧
        Represents view index after file' ∧ Frame view index state after)
      (fun _ _ => False) := by
  induction ops generalizing state file with
  | nil => exact ⟨file, .nil file, hfile, .refl index state⟩
  | cons op rest ih =>
      unfold runOps forEach
      rw [ends_andThen]
      refine (ends_runOp hlaws hfile op).mono (fun reply after hop => ?_)
        (fun _ _ => id)
      obtain ⟨file', hstep, hfile', hframe⟩ := hop
      rw [ends_andThen]
      refine (ih hfile').mono (fun replies last hrest => ?_) (fun _ _ => id)
      obtain ⟨file'', hrun, hfile'', hframe'⟩ := hrest
      exact ⟨file'', .cons hstep (hframe.bufferSize ▸ hrun), hfile'',
        hframe.trans hframe'⟩

/-- An open index is a file of its size: whatever is done with it, the
replies are those of the file, which is then in the index; and nothing else
has changed. -/
theorem runOps_simulates (hlaws : NvLaws esys view)
    (hfile : Represents view index state file) (ops : List FileOp) :
    ∃ replies after file', runOps esys ops state = (.ok replies, after) ∧
      FileRun state.2.bufferSize file ops replies file' ∧
      Represents view index after file' ∧ Frame view index state after := by
  have hends := ends_runOps hlaws hfile ops
  unfold Ends at hends
  match hrun : runOps esys ops state with
  | (.ok replies, after) =>
      rw [hrun] at hends
      obtain ⟨file', hfile'⟩ := hends
      exact ⟨replies, after, file', rfl, hfile'⟩
  | (.err error, after) =>
      rw [hrun] at hends
      exact hends.elim
  | (.panic, after) =>
      rw [hrun] at hends
      exact hends.elim

/-- An index of five bytes, in a TPM in memory. -/
def fiveHandle : NvIndexTpmHandle := ⟨0x01400001, by decide⟩

def fiveContext : Context Memory where
  esysContext := AssocMap.empty.insert fiveHandle [1, 2, 3, 4, 5]
  sessions := (some .password, none, none)
  handleManager := .new
  cachedTpmProperties := .empty

/-- It is open at its second byte, and two bytes are moved at once. -/
def fiveOpen : State Memory :=
  (fiveContext, ⟨.owner, 2, fiveHandle.value, 5, 1⟩)

theorem runOps_simulates_five :
    (runOps plainEsys [.read 4, .write [9], .seek (.fromEnd (-5)), .read 8]
        fiveOpen).1 =
      .ok [.ok (.bytes [2, 3]), .ok (.count 1), .ok (.position 0),
        .ok (.bytes [1, 2])] ∧
      ∃ replies after file',
        runOps plainEsys
          [.read 4, .write [9], .seek (.fromEnd (-5)), .read 8] fiveOpen =
            (.ok replies, after) ∧
        FileRun 2 ⟨[1, 2, 3, 4, 5], 1⟩
          [.read 4, .write [9], .seek (.fromEnd (-5)), .read 8] replies
          file' ∧
        Represents Memory.view fiveHandle after file' ∧
        Frame Memory.view fiveHandle fiveOpen after :=
  have hfive : Represents Memory.view fiveHandle fiveOpen
      ⟨[1, 2, 3, 4, 5], 1⟩ := ⟨rfl, rfl, rfl, rfl, by decide⟩
  ⟨by rfl, runOps_simulates plainLaws hfive _⟩

/-- Reads that go on until nothing is read have read what was left, unless
the TPM has no buffer at all. -/
theorem ends_readToEnd (hlaws : NvLaws esys view) {rooms : Nat → Nat}
    (hrooms : ∀ turn, 0 < rooms turn) {fuel turn : Nat} {result : Bytes}
    (hfile : Represents view index state file)
    (hfuel : file.bytes.length - file.position < fuel) :
    (readToEnd esys rooms fuel turn result).Ends state
      (fun bytes after => bytes = result ++
          (if state.2.bufferSize = 0 then []
            else file.bytes.drop file.position) ∧
        (∃ file', file'.bytes = file.bytes ∧
          Represents view index after file') ∧
        Frame view index state after)
      (fun _ after =>
        (∃ file', file'.bytes = file.bytes ∧
          Represents view index after file') ∧
        Frame view index state after) := by
  induction fuel generalizing state file turn result with
  | zero => exact absurd hfuel (Nat.not_lt_zero _)
  | succ fuel ih =>
      unfold readToEnd
      rw [ends_bind]
      refine (ends_read hlaws hfile).mono (fun part after hread => ?_)
        (fun error after hfailed => ⟨⟨file, rfl, hfailed.2.1⟩,
          hfailed.2.2⟩)
      obtain ⟨rfl, hfile', hframe⟩ := hread
      have hlen := file.length_read state.2.bufferSize (rooms turn)
      have hdrop := file.read_append_drop state.2.bufferSize (rooms turn)
      split
      · -- nothing was read: the end, or a buffer of no bytes
        rename_i hnone
        refine ⟨?_, ⟨(file.read state.2.bufferSize (rooms turn)).2, rfl,
          hfile'⟩, hframe⟩
        split
        · exact (List.append_nil result).symm
        · rename_i hbuffer
          have hend : file.bytes.length ≤ file.position := by
            by_contra hleft
            have hpos := FixedFile.share_pos (Nat.pos_of_ne_zero hbuffer)
              (hrooms turn) (Nat.not_le.mp hleft)
            omega
          rw [List.drop_eq_nil_of_le hend, List.append_nil]
      · rename_i hsome
        have hbuffer : state.2.bufferSize ≠ 0 := by
          rintro hzero
          rw [hlen, FixedFile.share, hzero, Nat.zero_min] at hsome
          exact hsome rfl
        have hshare := file.share_le state.2.bufferSize (rooms turn)
        have hmore : (file.read state.2.bufferSize (rooms turn)).2.bytes.length -
            (file.read state.2.bufferSize (rooms turn)).2.position < fuel := by
          change file.bytes.length - (file.position + _) < fuel
          omega
        refine (ih hfile' hmore).mono (fun bytes last hbytes => ?_)
          (fun error last hfailed => ⟨hfailed.1, hframe.trans hfailed.2⟩)
        obtain ⟨rfl, hlast, hframe'⟩ := hbytes
        refine ⟨?_, hlast, hframe.trans hframe'⟩
        rw [hframe.bufferSize, if_neg hbuffer, if_neg hbuffer,
          List.append_assoc]
        exact congrArg _ hdrop

/-- Closing the handle leaves the indices. -/
theorem finishes_drop (hlaws : NvLaws esys view) (state : State σ) :
    (drop esys).Finishes state
      fun after => Context.Keeps view state.1 after.1 := by
  unfold drop Finishes
  rw [ends_bind, Command.ends_read, ends_onContext]
  exact (Context.ends_executeWithoutSession (fun _ _ => True)
    (fun ctx _ => Ends.mono (Context.ends_trClose hlaws _)
      (fun _ _ hkeeps => ⟨hkeeps, trivial⟩) (fun _ _ => id)) rfl).mono
    (fun _ _ hkeeps => hkeeps.1) (fun _ _ => id)

end Run

end NvReaderWriter

section ReadFull

open Command

variable {σ : Type} {esys : Esys σ} {view : σ → NvView}
variable {ctx : Context σ}

/-- The size of the buffer that the TPM has said to have, which is the
largest that a command can hold when it has not. -/
def Context.bufferSize (ctx : Context σ) : Nat :=
  ((ctx.cachedTpmProperties.get? nvBufferMax).map UInt32.toNat).getD
    maxNvBufferMaxSize

theorem ends_openIndex (hlaws : NvLaws esys view)
    (index : NvIndexTpmHandle) (authHandle : NvAuth) :
    (NvOpenOptions.openIndex esys
        (.existingIndex index authHandle)).Ends ctx
      (fun rw after => Context.KeepsIndices view ctx after ∧
        rw.bufferSize = after.bufferSize ∧ ∃ data,
          (view ctx.esysContext).contents index = some data ∧
          NvReaderWriter.Represents view index (after, rw) ⟨data, 0⟩)
      (fun _ after => Context.KeepsIndices view ctx after) := by
  unfold NvOpenOptions.openIndex maxNvBufferSize
  rw [ends_bind, ends_bind]
  refine (Context.ends_getTpmProperty hlaws nvBufferMax).mono
    (fun value first hfirst => ?_) (fun _ _ => id)
  rw [ends_ret, ends_bind]
  refine (Context.ends_executeWithoutSession
    (fun object nvView => nvView.refers object = some index)
    (fun ctx _ => Context.ends_trFromTpmPublic hlaws index) rfl).mono
    (fun object second hsecond => ?_)
    (fun _ second hsecond => hfirst.1.trans hsecond.toKeepsIndices)
  rw [ends_bind]
  have htwo := hfirst.1.trans hsecond.1.toKeepsIndices
  refine (Context.ends_executeWithoutSession
    (fun nvPublic nvView =>
      nvView.refers = (view second.esysContext).refers ∧
      ∃ data, (view second.esysContext).contents index = some data ∧
        data.length = nvPublic.1.dataSize)
    (fun ctx hctx => (Context.ends_nvReadPublic hlaws
      (hctx.symm ▸ hsecond.2)).mono
      (fun nvPublic after hread => ?_) (fun _ _ => id)) rfl).mono
    (fun nvPublic third hthird => ?_)
    (fun _ third hthird => htwo.trans hthird.toKeepsIndices)
  · obtain ⟨hkeeps, hrefers, -, data, hdata, hlen⟩ := hread
    rw [hctx] at hrefers hdata
    exact ⟨hkeeps, hrefers, data, hdata, hlen⟩
  · obtain ⟨hkeeps, hrefers, data, hdata, hlen⟩ := hthird
    refine ⟨htwo.trans hkeeps.toKeepsIndices, ?_, data,
      htwo.contents ▸ hdata, ?_⟩
    · rw [Context.bufferSize, hkeeps.properties, hsecond.1.properties,
        hfirst.2]
    · exact ⟨hrefers ▸ hsecond.2, hkeeps.contents ▸ hdata, hlen.symm, rfl,
        hlen ▸ nvPublic.1.dataSize_le⟩

/-- The file itself is read only: no index has changed. -/
theorem keepsIndices_of_frame {index : NvIndexTpmHandle}
    {before after : NvReaderWriter.State σ} {file file' : FixedFile}
    (hframe : NvReaderWriter.Frame view index before after)
    (hbefore : NvReaderWriter.Represents view index before file)
    (hafter : NvReaderWriter.Represents view index after file')
    (hbytes : file'.bytes = file.bytes) :
    Context.KeepsIndices view before.1 after.1 := by
  refine ⟨funext fun other => ?_, hframe.sessions⟩
  by_cases hother : other = index
  · rw [hother, hafter.contents, hbefore.contents, hbytes]
  · exact hframe.contents other hother

theorem ends_readFull (hlaws : NvLaws esys view) {rooms : Nat → Nat}
    (hrooms : ∀ turn, 0 < rooms turn) (authHandle : NvAuth)
    (index : NvIndexTpmHandle) (ctx : Context σ) :
    (readFull esys rooms authHandle index).Ends ctx
      (fun bytes after => Context.KeepsIndices view ctx after ∧
        ∃ data, (view ctx.esysContext).contents index = some data ∧
          bytes = if after.bufferSize = 0 then [] else data)
      (fun _ after => Context.KeepsIndices view ctx after) := by
  unfold readFull
  rw [ends_bind]
  refine (ends_openIndex hlaws index authHandle).mono
    (fun rw opened hopened => ?_) (fun _ _ => id)
  obtain ⟨hkeeps, hbuffer, data, hdata, hfile⟩ := hopened
  rw [ends_withLocal, ends_mapErr, ends_dropping]
  refine (NvReaderWriter.ends_readToEnd hlaws hrooms hfile
    (by rw [hfile.dataSize]; exact Nat.lt_succ_self _)).mono
    (fun bytes after hbytes => ?_) (fun error after hfailed => ?_)
  · obtain ⟨rfl, ⟨file, hsame, hlast⟩, hframe⟩ := hbytes
    refine (NvReaderWriter.finishes_drop hlaws after).mono
      fun dropped hdrop => ?_
    refine ⟨hkeeps.trans ((keepsIndices_of_frame hframe hfile hlast
      hsame).trans hdrop.toKeepsIndices), data, hdata, ?_⟩
    rw [List.nil_append, hbuffer, Context.bufferSize, Context.bufferSize,
      hdrop.properties, hframe.properties]
    rfl
  · obtain ⟨⟨file, hsame, hlast⟩, hframe⟩ := hfailed
    exact (NvReaderWriter.finishes_drop hlaws after).mono
      fun dropped hdrop => hkeeps.trans ((keepsIndices_of_frame hframe hfile
        hlast hsame).trans hdrop.toKeepsIndices)

/-- All of an index is read, whatever room the buffers have, or nothing of it
when the TPM claims to have no buffer.  No index changes, the sessions are
those of before, and nothing panics, also when the TPM refuses a read. -/
theorem readFull_reads (hlaws : NvLaws esys view) {rooms : Nat → Nat}
    (hrooms : ∀ turn, 0 < rooms turn) (authHandle : NvAuth)
    (index : NvIndexTpmHandle) (ctx : Context σ) :
    (readFull esys rooms authHandle index ctx).1 ≠ .panic ∧
      Context.KeepsIndices view ctx
        (readFull esys rooms authHandle index ctx).2 ∧
      ∀ bytes after,
        readFull esys rooms authHandle index ctx = (.ok bytes, after) →
        ∃ data, (view ctx.esysContext).contents index = some data ∧
          bytes = if after.bufferSize = 0 then [] else data := by
  have hends := ends_readFull hlaws hrooms authHandle index ctx
  refine ⟨hends.ne_panic, ?_, fun bytes after hread =>
    ((ends_iff.mp hends).2.1 bytes after hread).2⟩
  exact Finishes.after (hends.mono (fun _ _ hread => hread.1) fun _ _ => id)

theorem readFull_reads_five :
    (readFull plainEsys (fun _ => 32) .owner NvReaderWriter.fiveHandle
        NvReaderWriter.fiveContext).1 = .ok [1, 2, 3, 4, 5] ∧
      (readFull plainEsys (fun _ => 32) .owner NvReaderWriter.fiveHandle
          NvReaderWriter.fiveContext).1 ≠ .panic ∧
      Context.KeepsIndices Memory.view NvReaderWriter.fiveContext
        (readFull plainEsys (fun _ => 32) .owner NvReaderWriter.fiveHandle
          NvReaderWriter.fiveContext).2 ∧
      ∀ bytes after,
        readFull plainEsys (fun _ => 32) .owner NvReaderWriter.fiveHandle
          NvReaderWriter.fiveContext = (.ok bytes, after) →
        ∃ data, (Memory.view
            NvReaderWriter.fiveContext.esysContext).contents
              NvReaderWriter.fiveHandle = some data ∧
          bytes = if after.bufferSize = 0 then [] else data :=
  ⟨by rfl, readFull_reads plainLaws (fun _ => by decide) .owner
    NvReaderWriter.fiveHandle NvReaderWriter.fiveContext⟩

end ReadFull

end Vtpm

end Kettle
