/-
A build command with its output read as it runs.  Two threads read the lines
of its two pipes, each at its own pace, and offer every line as an event; what
the command printed on its standard output is kept.
-/
import Kettle.Host.OsStr
import Kettle.Lib.Interleave
import Kettle.Lib.Lines
import Kettle.Lib.Transition
import Kettle.Server.Runner

namespace Kettle

namespace Toolchain

open Lines Server

/-- How much a pipe holds. -/
def pipeCapacity : Nat := 65536

/-- Where a reader thread stands.  A line that was read is not yet an event. -/
inductive ReaderPhase where
  | reading
  | emitting (line : String)
  | finished
  | failed
deriving DecidableEq, Repr

/-- A pipe with the thread that reads it. -/
structure LineReader where
  /-- All bytes that were ever put into the pipe. -/
  written : Bytes
  unread : Bytes
  closed : Bool
  /-- Bytes in the thread's buffer. -/
  pending : Bytes
  phase : ReaderPhase
  /-- The lines that were read. -/
  lines : List String
  /-- Whether reading itself has failed. -/
  broken : Bool
deriving DecidableEq, Repr

def LineReader.new : LineReader :=
  ⟨[], [], false, [], .reading, [], false⟩

/-- What a step of a thread means for the others. -/
inductive ReaderLabel where
  | silent
  | line (text : String)
  | emit (text : String)

/-- What the command does with a pipe; one without a reader takes nothing. -/
inductive WriterStep : LineReader → LineReader → Prop
  | write {reader : LineReader} (bytes : Bytes) :
      reader.closed = false → reader.phase ≠ .failed →
      reader.unread.length + bytes.length ≤ pipeCapacity →
      WriterStep reader
        { reader with
          written := reader.written ++ bytes
          unread := reader.unread ++ bytes }
  | close {reader : LineReader} :
      WriterStep reader { reader with closed := true }

/-- A thread's turn: `BufReader::lines` with what is done for each line. -/
inductive ThreadStep : LineReader → ReaderLabel → LineReader → Prop
  | read {reader : LineReader} {bytes rest : Bytes} :
      reader.phase = .reading → newline ∉ reader.pending →
      reader.unread = bytes ++ rest → bytes ≠ [] →
      ThreadStep reader .silent
        { reader with pending := reader.pending ++ bytes, unread := rest }
  | readFails {reader : LineReader} :
      reader.phase = .reading → newline ∉ reader.pending →
      ThreadStep reader .silent
        { reader with phase := .failed, broken := true }
  | line {reader : LineReader} {front rest : Bytes} {text : String} :
      reader.phase = .reading →
      reader.pending = front ++ newline :: rest → newline ∉ front →
      fromUtf8 (chomp front) = some text →
      ThreadStep reader (.line text)
        { reader with
          pending := rest
          phase := .emitting text
          lines := reader.lines ++ [text] }
  | lineInvalid {reader : LineReader} {front rest : Bytes} :
      reader.phase = .reading →
      reader.pending = front ++ newline :: rest → newline ∉ front →
      fromUtf8 (chomp front) = none →
      ThreadStep reader .silent { reader with phase := .failed }
  /-- At the end, what is left in the buffer is a line. -/
  | lastLine {reader : LineReader} {text : String} :
      reader.phase = .reading → newline ∉ reader.pending →
      reader.pending ≠ [] → reader.unread = [] → reader.closed = true →
      fromUtf8 reader.pending = some text →
      ThreadStep reader (.line text)
        { reader with
          pending := []
          phase := .emitting text
          lines := reader.lines ++ [text] }
  | lastInvalid {reader : LineReader} :
      reader.phase = .reading → newline ∉ reader.pending →
      reader.pending ≠ [] → reader.unread = [] → reader.closed = true →
      fromUtf8 reader.pending = none →
      ThreadStep reader .silent { reader with phase := .failed }
  | finish {reader : LineReader} :
      reader.phase = .reading → reader.pending = [] →
      reader.unread = [] → reader.closed = true →
      ThreadStep reader .silent { reader with phase := .finished }
  | emit {reader : LineReader} {text : String} :
      reader.phase = .emitting text →
      ThreadStep reader (.emit text) { reader with phase := .reading }

/-- `std::process::ExitStatus`; a command may be ended by a signal. -/
inductive ExitStatus where
  | exited (code : Int)
  | signaled
deriving DecidableEq, Repr

def ExitStatus.success (status : ExitStatus) : Bool :=
  status = .exited 0

/-- `{:?}` of `code()`. -/
def ExitStatus.shown : ExitStatus → String
  | exited code => s!"Some({code})"
  | signaled => "None"

/-- The channel behind an `EventSink`, with what came out of it. -/
structure EventChannel where
  queue : List Event
  received : List Event
  receiverGone : Bool

/-- A sink without a channel drops all events. -/
abbrev EventSink := Option EventChannel

/-- Whether an event that is offered now is taken. -/
def EventSink.hasRoom : EventSink → Bool
  | none => false
  | some channel => decide (channel.queue.length < channelCapacity) &&
      !channel.receiverGone

/-- `try_emit` drops an event that finds the channel full, or no receiver. -/
def EventSink.tryEmit (sink : EventSink) (event : Event) : EventSink :=
  sink.map fun channel =>
    if channel.queue.length < channelCapacity ∧
        channel.receiverGone = false then
      { channel with queue := channel.queue ++ [event] }
    else channel

/-- The events that the sink has taken, in order. -/
def EventSink.taken : EventSink → List Event
  | none => []
  | some channel => channel.received ++ channel.queue

/-- A line that was offered, with the sink as it was then. -/
structure Offer where
  line : String
  sink : EventSink

def Offer.event (offer : Offer) : Event := .build offer.line

/-- The offers that were taken. -/
def Offer.taken (offers : List Offer) : List Offer :=
  offers.filter (·.sink.hasRoom)

structure StreamRun where
  stdout : LineReader
  stderr : LineReader
  stdoutBuf : Bytes
  status : Option ExitStatus
  sink : EventSink
  /-- All that was offered to the sink, in order. -/
  offered : List Offer

/-- A line as it is kept, with a newline. -/
def lineBytes (line : String) : Bytes :=
  line.toUTF8.data.toList ++ [newline]

namespace StreamRun

def keep (run : StreamRun) (line : String) : StreamRun :=
  { run with stdoutBuf := run.stdoutBuf ++ lineBytes line }

def tryEmit (run : StreamRun) (line : String) : StreamRun :=
  { run with
    sink := run.sink.tryEmit (.build line)
    offered := run.offered ++ [⟨line, run.sink⟩] }

def afterStdout (run : StreamRun) : ReaderLabel → StreamRun
  | .silent => run
  | .line text => run.keep text
  | .emit text => run.tryEmit text

def afterStderr (run : StreamRun) : ReaderLabel → StreamRun
  | .silent => run
  | .line _ => run
  | .emit text => run.tryEmit text

end StreamRun

inductive StreamStep : StreamRun → StreamRun → Prop
  | writeStdout {run : StreamRun} {after : LineReader} :
      WriterStep run.stdout after →
      StreamStep run { run with stdout := after }
  | writeStderr {run : StreamRun} {after : LineReader} :
      WriterStep run.stderr after →
      StreamStep run { run with stderr := after }
  | exit {run : StreamRun} (status : ExitStatus) :
      run.status = none →
      StreamStep run { run with status := some status }
  | stdout {run : StreamRun} {label : ReaderLabel} {after : LineReader} :
      ThreadStep run.stdout label after →
      StreamStep run
        ({ run with stdout := after }.afterStdout label)
  | stderr {run : StreamRun} {label : ReaderLabel} {after : LineReader} :
      ThreadStep run.stderr label after →
      StreamStep run
        ({ run with stderr := after }.afterStderr label)
  | receive {run : StreamRun} {channel : EventChannel} {event : Event}
      {rest : List Event} :
      run.sink = some channel → channel.queue = event :: rest →
      StreamStep run
        { run with
          sink := some { channel with
            queue := rest
            received := channel.received ++ [event] } }
  | receiverGoes {run : StreamRun} {channel : EventChannel} :
      run.sink = some channel →
      StreamStep run
        { run with sink := some { channel with receiverGone := true } }

/-- The command and the two threads, once they are started with a sink. -/
def streamRuns (start : EventSink) : Transition StreamRun where
  initial run := run = ⟨.new, .new, [], none, start, []⟩
  step := StreamStep

/-- What joining a thread returns. -/
def LineReader.joined? (reader : LineReader) : Option (Except Unit Unit) :=
  match reader.phase with
  | .finished => some (.ok ())
  | .failed => some (.error ())
  | _ => none

/-- What `stream_command` returns, once the command has exited and both
threads are joined. -/
def StreamRun.result (run : StreamRun) : Option (Except String Bytes) := do
  let status ← run.status
  let stdoutResult ← run.stdout.joined?
  let stderrResult ← run.stderr.joined?
  match stdoutResult, stderrResult with
  | .error _, _ => some (.error "reading child stdout")
  | .ok _, .error _ => some (.error "reading child stderr")
  | .ok _, .ok _ =>
      if status.success then some (.ok run.stdoutBuf)
      else some (.error
        s!"child exited unsuccessfully (exit {status.shown})")

/-- The texts of all lines, if each line is text. -/
def linesText (bytes : Bytes) : Option (List String) :=
  (linesOf bytes).mapM fromUtf8

/-- What the lines of a pipe read as, unless a read has failed. -/
def LineReader.text (reader : LineReader) : Option (List String) :=
  if reader.broken then none else linesText reader.written

/-- What `stream_command` is meant to return: the lines of the standard output,
if both outputs can be read and the command succeeds. -/
def streamResult (status : ExitStatus) (stdout stderr : Option (List String)) :
    Except String Bytes :=
  match stdout, stderr with
  | none, _ => .error "reading child stdout"
  | some _, none => .error "reading child stderr"
  | some lines, some _ =>
      if status.success then .ok (lines.flatMap lineBytes)
      else .error s!"child exited unsuccessfully (exit {status.shown})"

/-- The text of a line that was read. -/
def Decodes (bytes : Bytes) (text : String) : Prop :=
  fromUtf8 bytes = some text

/-- The bytes that have gone through the buffer are the lines that were
read. -/
def Splits (reader : LineReader) (done : List Bytes) : Prop :=
  (∃ consumed, reader.written = consumed ++ (reader.pending ++ reader.unread) ∧
    ∀ rest, linesOf (consumed ++ rest) = done ++ linesOf rest) ∨
  (reader.closed = true ∧ reader.pending = [] ∧ reader.unread = [] ∧
    linesOf reader.written = done)

structure ReaderInvariant (reader : LineReader) : Prop where
  progress : reader.phase ≠ .failed → reader.broken = false ∧
    ∃ done, List.Forall₂ Decodes done reader.lines ∧ Splits reader done
  finished : reader.phase = .finished → reader.closed = true ∧
    reader.pending = [] ∧ reader.unread = []
  failed : reader.phase = .failed → reader.broken = true ∨
    ∃ line ∈ linesOf reader.written, fromUtf8 line = none

section Reader

variable {reader after : LineReader} {label : ReaderLabel}
  {done : List Bytes}

theorem Splits.linesOf_eq (hsplits : Splits reader done)
    (hpending : reader.pending = []) (hunread : reader.unread = []) :
    linesOf reader.written = done := by
  rcases hsplits with ⟨consumed, hwritten, hlines⟩ | ⟨-, -, -, heq⟩
  · rw [hwritten, hpending, hunread, hlines]
    exact List.append_nil done
  · exact heq

/-- While there are bytes to read, none were left out. -/
theorem Splits.of_ne_nil (hsplits : Splits reader done)
    (hne : reader.pending ++ reader.unread ≠ []) :
    ∃ consumed,
      reader.written = consumed ++ (reader.pending ++ reader.unread) ∧
      ∀ rest, linesOf (consumed ++ rest) = done ++ linesOf rest := by
  rcases hsplits with hleft | ⟨-, hpending, hunread, -⟩
  · exact hleft
  · rw [hpending, hunread] at hne
    exact absurd rfl hne

theorem readerInvariant_new : ReaderInvariant .new where
  progress _ := ⟨rfl, [], .nil, Or.inl ⟨[], rfl, fun _ => rfl⟩⟩
  finished hphase := by cases hphase
  failed hphase := by cases hphase

theorem ReaderInvariant.writer (hinv : ReaderInvariant reader)
    (hstep : WriterStep reader after) : ReaderInvariant after := by
  cases hstep with
  | write bytes hopen hreader hroom =>
      refine ⟨fun hphase => ?_, fun hphase => ?_,
        fun hphase => absurd hphase hreader⟩
      · obtain ⟨hbroken, done, hdecodes, hsplits⟩ := hinv.progress hphase
        refine ⟨hbroken, done, hdecodes, Or.inl ?_⟩
        rcases hsplits with ⟨consumed, hwritten, hlines⟩ | ⟨hclosed, -⟩
        · exact ⟨consumed, by simp [hwritten], hlines⟩
        · rw [hopen] at hclosed
          cases hclosed
      · have hclosed := (hinv.finished hphase).1
        rw [hopen] at hclosed
        cases hclosed
  | close =>
      refine ⟨fun hphase => ?_, fun hphase => ⟨rfl, (hinv.finished hphase).2⟩,
        hinv.failed⟩
      obtain ⟨hbroken, done, hdecodes, hsplits⟩ := hinv.progress hphase
      exact ⟨hbroken, done, hdecodes,
        hsplits.imp_right fun hend => ⟨rfl, hend.2⟩⟩

theorem ReaderInvariant.thread (hinv : ReaderInvariant reader)
    (hstep : ThreadStep reader label after) : ReaderInvariant after := by
  have hprogress := hinv.progress
  cases hstep with
  | @read bytes rest hphase _ hunread hbytes =>
      obtain ⟨hbroken, done, hdecodes, hsplits⟩ :=
        hprogress (by rw [hphase]; exact nofun)
      refine ⟨fun _ => ⟨hbroken, done, hdecodes, Or.inl ?_⟩,
        fun hend => ?_, fun hend => ?_⟩
      · obtain ⟨consumed, hwritten, hlines⟩ :=
          hsplits.of_ne_nil (by simp [hunread, hbytes])
        exact ⟨consumed, by simp [hwritten, hunread], hlines⟩
      · rw [hphase] at hend
        cases hend
      · rw [hphase] at hend
        cases hend
  | readFails hphase _ =>
      exact ⟨fun hend => absurd rfl hend, nofun, fun _ => Or.inl rfl⟩
  | @line front rest text hphase hpending hfront htext =>
      obtain ⟨hbroken, done, hdecodes, hsplits⟩ :=
        hprogress (by rw [hphase]; exact nofun)
      refine ⟨fun _ => ⟨hbroken, done ++ [chomp front],
        List.rel_append hdecodes (.cons htext .nil), Or.inl ?_⟩, nofun, nofun⟩
      obtain ⟨consumed, hwritten, hlines⟩ :=
        hsplits.of_ne_nil (by simp [hpending])
      refine ⟨consumed ++ (front ++ [newline]), by simp [hwritten, hpending],
        fun more => ?_⟩
      rw [List.append_assoc, hlines, List.append_assoc,
        List.singleton_append, linesOf_append_newline hfront,
        List.append_assoc, List.singleton_append]
  | @lineInvalid front rest hphase hpending hfront htext =>
      obtain ⟨hbroken, done, hdecodes, hsplits⟩ :=
        hprogress (by rw [hphase]; exact nofun)
      refine ⟨fun hend => absurd rfl hend, nofun, fun _ => Or.inr
        ⟨chomp front, ?_, htext⟩⟩
      obtain ⟨consumed, hwritten, hlines⟩ :=
        hsplits.of_ne_nil (by simp [hpending])
      dsimp only
      rw [hwritten, hlines, hpending, List.append_assoc, List.cons_append,
        linesOf_append_newline hfront]
      exact List.mem_append_right _ List.mem_cons_self
  | @lastLine text hphase hnewline hnonempty hunread hclosed htext =>
      obtain ⟨hbroken, done, hdecodes, hsplits⟩ :=
        hprogress (by rw [hphase]; exact nofun)
      refine ⟨fun _ => ⟨hbroken, done ++ [reader.pending],
        List.rel_append hdecodes (.cons htext .nil),
        Or.inr ⟨hclosed, rfl, hunread, ?_⟩⟩, nofun, nofun⟩
      obtain ⟨consumed, hwritten, hlines⟩ :=
        hsplits.of_ne_nil (by simp [hnonempty])
      dsimp only
      rw [hwritten, hunread, List.append_nil, hlines,
        linesOf_of_notMem hnewline hnonempty]
  | lastInvalid hphase hnewline hnonempty hunread hclosed htext =>
      obtain ⟨hbroken, done, hdecodes, hsplits⟩ :=
        hprogress (by rw [hphase]; exact nofun)
      refine ⟨fun hend => absurd rfl hend, nofun, fun _ => Or.inr
        ⟨reader.pending, ?_, htext⟩⟩
      obtain ⟨consumed, hwritten, hlines⟩ :=
        hsplits.of_ne_nil (by simp [hnonempty])
      dsimp only
      rw [hwritten, hunread, List.append_nil, hlines,
        linesOf_of_notMem hnewline hnonempty]
      exact List.mem_append_right _ List.mem_cons_self
  | finish hphase hpending hunread hclosed =>
      exact ⟨fun _ => hprogress (by rw [hphase]; exact nofun),
        fun _ => ⟨hclosed, hpending, hunread⟩, nofun⟩
  | emit hphase =>
      exact ⟨fun _ => hprogress (by rw [hphase]; exact nofun), nofun, nofun⟩

theorem mapM_fromUtf8_eq_some_iff {lines : List Bytes}
    {texts : List String} :
    lines.mapM fromUtf8 = some texts ↔
      List.Forall₂ Decodes lines texts := by
  induction lines generalizing texts with
  | nil => simp [eq_comm]
  | cons line rest ih =>
      simp only [List.mapM_cons, Option.bind_eq_bind, Option.bind_eq_some_iff,
        ih, List.forall₂_cons_left_iff, Option.pure_def, Option.some.injEq]
      constructor
      · rintro ⟨text, htext, later, hlater, rfl⟩
        exact ⟨text, later, htext, hlater, rfl⟩
      · rintro ⟨text, later, htext, hlater, rfl⟩
        exact ⟨text, htext, later, hlater, rfl⟩

/-- A thread that has finished has read all lines. -/
theorem ReaderInvariant.text_of_finished (hinv : ReaderInvariant reader)
    (hphase : reader.phase = .finished) :
    reader.text = some reader.lines := by
  obtain ⟨hbroken, done, hdecodes, hsplits⟩ :=
    hinv.progress (by rw [hphase]; exact nofun)
  obtain ⟨-, hpending, hunread⟩ := hinv.finished hphase
  rw [LineReader.text, hbroken, if_neg (by decide), linesText,
    hsplits.linesOf_eq hpending hunread]
  exact mapM_fromUtf8_eq_some_iff.mpr hdecodes

/-- A thread that has failed has met what cannot be read. -/
theorem ReaderInvariant.text_of_failed (hinv : ReaderInvariant reader)
    (hphase : reader.phase = .failed) : reader.text = none := by
  rcases hinv.failed hphase with hbroken | ⟨line, hline, hnone⟩
  · rw [LineReader.text, if_pos hbroken]
  · unfold LineReader.text
    split
    · rfl
    · rw [Option.eq_none_iff_forall_ne_some]
      intro texts hsome
      obtain ⟨text, -, htext⟩ := exists_mem_of_forall₂
        (mapM_fromUtf8_eq_some_iff.mp hsome).flip hline
      have hdecodes : fromUtf8 line = some text := htext
      rw [hnone] at hdecodes
      cases hdecodes

end Reader

section Run

variable {start : EventSink} {run after : StreamRun}

/-- The lines of a thread that were offered: all but the one it holds. -/
def LineReader.heldBack (reader : LineReader) : List String :=
  match reader.phase with
  | .emitting line => [line]
  | _ => []

/-- What a turn changes in the lines of its thread. -/
def Turned (before : LineReader) (label : ReaderLabel)
    (after : LineReader) : Prop :=
  match label with
  | .silent => after.lines = before.lines ∧ before.heldBack = [] ∧
      after.heldBack = []
  | .line text => after.lines = before.lines ++ [text] ∧
      before.heldBack = [] ∧ after.heldBack = [text]
  | .emit text => after.lines = before.lines ∧ before.heldBack = [text] ∧
      after.heldBack = []

theorem ThreadStep.turned {before : LineReader} {label : ReaderLabel}
    {after : LineReader} (hstep : ThreadStep before label after) :
    Turned before label after := by
  cases hstep <;> simp_all [Turned, LineReader.heldBack]

theorem WriterStep.lines_eq {before after : LineReader}
    (hstep : WriterStep before after) :
    after.lines = before.lines ∧ after.heldBack = before.heldBack := by
  cases hstep <;> exact ⟨rfl, rfl⟩

/-- The lines of the two threads that have been offered. -/
def OfferedLines (stdout stderr : LineReader) (offered : List String) :
    Prop :=
  ∃ stdoutLines stderrLines, Interleaves stdoutLines stderrLines offered ∧
    stdout.lines = stdoutLines ++ stdout.heldBack ∧
    stderr.lines = stderrLines ++ stderr.heldBack

structure StreamInvariant (start : EventSink) (run : StreamRun) : Prop where
  stdout : ReaderInvariant run.stdout
  stderr : ReaderInvariant run.stderr
  kept : run.stdoutBuf = run.stdout.lines.flatMap lineBytes
  offered : OfferedLines run.stdout run.stderr (run.offered.map Offer.line)
  taken : run.sink.taken =
    start.taken ++ (Offer.taken run.offered).map Offer.event

theorem OfferedLines.swap {stdout stderr : LineReader}
    {offered : List String} (hlines : OfferedLines stdout stderr offered) :
    OfferedLines stderr stdout offered := by
  obtain ⟨left, right, hmerged, hleft, hright⟩ := hlines
  exact ⟨right, left, hmerged.swap, hright, hleft⟩

theorem OfferedLines.writer {before after other : LineReader}
    {offered : List String} (hlines : OfferedLines before other offered)
    (hstep : WriterStep before after) :
    OfferedLines after other offered := by
  obtain ⟨left, right, hmerged, hleft, hright⟩ := hlines
  obtain ⟨hsame, hheld⟩ := hstep.lines_eq
  exact ⟨left, right, hmerged, by rw [hsame, hheld, hleft], hright⟩

/-- The lines offered after a turn. -/
def ReaderLabel.offer (offered : List String) : ReaderLabel → List String
  | .emit text => offered ++ [text]
  | _ => offered

theorem OfferedLines.thread {before after other : LineReader}
    {label : ReaderLabel} {offered : List String}
    (hlines : OfferedLines before other offered)
    (hturned : Turned before label after) :
    OfferedLines after other (label.offer offered) := by
  obtain ⟨left, right, hmerged, hleft, hright⟩ := hlines
  cases label with
  | silent =>
      obtain ⟨hsame, hbefore, hafter⟩ := hturned
      exact ⟨left, right, hmerged, by rw [hsame, hafter, hleft, hbefore],
        hright⟩
  | line text =>
      obtain ⟨hsame, hbefore, hafter⟩ := hturned
      refine ⟨left, right, hmerged, ?_, hright⟩
      rw [hsame, hafter, hleft, hbefore, List.append_nil]
  | emit text =>
      obtain ⟨hsame, hbefore, hafter⟩ := hturned
      refine ⟨left ++ [text], right, hmerged.snoc_left text, ?_, hright⟩
      rw [hsame, hafter, hleft, hbefore, List.append_nil]

/-- An event is taken if there is room for it, and only then. -/
theorem taken_tryEmit (sink : EventSink) (event : Event) :
    (sink.tryEmit event).taken =
      sink.taken ++ if sink.hasRoom then [event] else [] := by
  cases sink with
  | none => rfl
  | some channel =>
      by_cases hroom : channel.queue.length < channelCapacity ∧
          channel.receiverGone = false
      · simp [EventSink.tryEmit, EventSink.hasRoom, EventSink.taken, hroom]
      · have hfull : EventSink.hasRoom (some channel) = false := by
          simpa [EventSink.hasRoom] using hroom
        simp [EventSink.tryEmit, EventSink.taken, hroom, hfull]

theorem StreamInvariant.taken_tryEmit (hinv : StreamInvariant start run)
    (line : String) :
    (run.tryEmit line).sink.taken = start.taken ++
      (Offer.taken (run.tryEmit line).offered).map Offer.event := by
  dsimp only [StreamRun.tryEmit]
  rw [Toolchain.taken_tryEmit, hinv.taken, Offer.taken, Offer.taken,
    List.filter_append, List.map_append, List.filter_singleton,
    List.append_assoc]
  dsimp only
  cases run.sink.hasRoom <;> rfl

theorem StreamRun.offered_tryEmit (run : StreamRun) (line : String) :
    (run.tryEmit line).offered.map Offer.line =
      run.offered.map Offer.line ++ [line] :=
  List.map_append

theorem StreamInvariant.afterStdout (hinv : StreamInvariant start run)
    {label : ReaderLabel} {next : LineReader}
    (hstep : ThreadStep run.stdout label next) :
    StreamInvariant start ({ run with stdout := next }.afterStdout label) := by
  have hoffered := hinv.offered.thread hstep.turned
  have hturned := hstep.turned
  have hreader := hinv.stdout.thread hstep
  cases label with
  | silent =>
      refine ⟨hreader, hinv.stderr, ?_, hoffered, hinv.taken⟩
      rw [StreamRun.afterStdout, hturned.1]
      exact hinv.kept
  | line text =>
      refine ⟨hreader, hinv.stderr, ?_, hoffered, hinv.taken⟩
      dsimp only [StreamRun.afterStdout, StreamRun.keep]
      rw [hturned.1, hinv.kept, List.flatMap_append, List.flatMap_singleton]
  | emit text =>
      refine ⟨hreader, hinv.stderr, ?_, ?_, hinv.taken_tryEmit text⟩
      · dsimp only [StreamRun.afterStdout, StreamRun.tryEmit]
        rw [hturned.1]
        exact hinv.kept
      · rw [StreamRun.afterStdout, StreamRun.offered_tryEmit]
        exact hoffered

theorem StreamInvariant.afterStderr (hinv : StreamInvariant start run)
    {label : ReaderLabel} {next : LineReader}
    (hstep : ThreadStep run.stderr label next) :
    StreamInvariant start ({ run with stderr := next }.afterStderr label) := by
  have hoffered := (hinv.offered.swap.thread hstep.turned).swap
  have hreader := hinv.stderr.thread hstep
  cases label with
  | silent => exact ⟨hinv.stdout, hreader, hinv.kept, hoffered, hinv.taken⟩
  | line text =>
      exact ⟨hinv.stdout, hreader, hinv.kept, hoffered, hinv.taken⟩
  | emit text =>
      refine ⟨hinv.stdout, hreader, hinv.kept, ?_, hinv.taken_tryEmit text⟩
      rw [StreamRun.afterStderr, StreamRun.offered_tryEmit]
      exact hoffered

theorem StreamInvariant.step (hinv : StreamInvariant start run)
    (hstep : StreamStep run after) : StreamInvariant start after := by
  cases hstep with
  | writeStdout hwrite =>
      refine ⟨hinv.stdout.writer hwrite, hinv.stderr, ?_,
        hinv.offered.writer hwrite, hinv.taken⟩
      rw [hwrite.lines_eq.1]
      exact hinv.kept
  | writeStderr hwrite =>
      exact ⟨hinv.stdout, hinv.stderr.writer hwrite, hinv.kept,
        (hinv.offered.swap.writer hwrite).swap, hinv.taken⟩
  | exit status _ =>
      exact ⟨hinv.stdout, hinv.stderr, hinv.kept, hinv.offered, hinv.taken⟩
  | stdout hthread => exact hinv.afterStdout hthread
  | stderr hthread => exact hinv.afterStderr hthread
  | @receive channel event rest hsink hqueue =>
      refine ⟨hinv.stdout, hinv.stderr, hinv.kept, hinv.offered, ?_⟩
      have htaken := hinv.taken
      rw [hsink, EventSink.taken, hqueue] at htaken
      simpa [EventSink.taken] using htaken
  | receiverGoes hsink =>
      refine ⟨hinv.stdout, hinv.stderr, hinv.kept, hinv.offered, ?_⟩
      have htaken := hinv.taken
      rw [hsink] at htaken
      exact htaken

theorem streamInvariant_inductive :
    (streamRuns start).Inductive (StreamInvariant start) where
  initial := by
    rintro run rfl
    exact ⟨readerInvariant_new, readerInvariant_new, rfl,
      ⟨[], [], .nil, rfl, rfl⟩, (List.append_nil _).symm⟩
  step _ _ hinv hstep := hinv.step hstep

theorem joined?_eq_some_iff {reader : LineReader}
    {result : Except Unit Unit} :
    reader.joined? = some result ↔
      reader.phase = .finished ∧ result = .ok () ∨
        reader.phase = .failed ∧ result = .error () := by
  unfold LineReader.joined?
  cases reader.phase <;> simp [eq_comm]

/-- Threads that were joined return what their pipes read as. -/
theorem ReaderInvariant.joined {reader : LineReader}
    (hinv : ReaderInvariant reader) {result : Except Unit Unit}
    (hjoined : reader.joined? = some result) :
    reader.phase = .finished ∧ result = .ok () ∧
        reader.text = some reader.lines ∨
      result = .error () ∧ reader.text = none := by
  rcases joined?_eq_some_iff.mp hjoined with ⟨hphase, rfl⟩ | ⟨hphase, rfl⟩
  · exact Or.inl ⟨hphase, rfl, hinv.text_of_finished hphase⟩
  · exact Or.inr ⟨rfl, hinv.text_of_failed hphase⟩

theorem StreamInvariant.result_eq (hinv : StreamInvariant start run)
    {result : Except String Bytes} (hresult : run.result = some result) :
    ∃ status, run.status = some status ∧
      result = streamResult status run.stdout.text run.stderr.text ∧
      ∀ stdout stderr, run.stdout.text = some stdout →
        run.stderr.text = some stderr →
        run.stdout.phase = .finished ∧ run.stderr.phase = .finished := by
  simp only [StreamRun.result, Option.bind_eq_bind,
    Option.bind_eq_some_iff] at hresult
  obtain ⟨status, hstatus, stdoutResult, hstdout, stderrResult, hstderr,
    hresult⟩ := hresult
  refine ⟨status, hstatus, ?_⟩
  rcases hinv.stdout.joined hstdout with ⟨hout, rfl, htext⟩ | ⟨rfl, htext⟩
  · rcases hinv.stderr.joined hstderr with ⟨herr, rfl, htext'⟩ | ⟨rfl, htext'⟩
    · rw [htext, htext', streamResult, ← hinv.kept]
      refine ⟨?_, fun _ _ _ _ => ⟨hout, herr⟩⟩
      dsimp only at hresult ⊢
      split at hresult <;> cases hresult <;> simp [*]
    · rw [htext, htext']
      cases hresult
      exact ⟨rfl, nofun⟩
  · rw [htext]
    cases hresult
    exact ⟨rfl, nofun⟩

/-- However the command and the threads take turns, and in whatever pieces
the output arrives, what is returned depends on nothing but the exit status,
the bytes of the two outputs and whether reading them failed.  The events taken
are those that were offered while the channel had room and its receiver was
there; and if both outputs can be read, the offers are the lines of both,
merged. -/
theorem streamRuns_result (hreachable : (streamRuns start).Reachable run)
    {result : Except String Bytes} (hresult : run.result = some result) :
    ∃ status, run.status = some status ∧
      result = streamResult status run.stdout.text run.stderr.text ∧
      run.sink.taken =
        start.taken ++ (Offer.taken run.offered).map Offer.event ∧
      ∀ stdout stderr, run.stdout.text = some stdout →
        run.stderr.text = some stderr →
        Interleaves stdout stderr (run.offered.map Offer.line) := by
  have hinv := streamInvariant_inductive.reachable hreachable
  obtain ⟨status, hstatus, heq, hphases⟩ := hinv.result_eq hresult
  refine ⟨status, hstatus, heq, hinv.taken,
    fun stdout stderr hstdout hstderr => ?_⟩
  obtain ⟨hout, herr⟩ := hphases stdout stderr hstdout hstderr
  rw [hinv.stdout.text_of_finished hout] at hstdout
  rw [hinv.stderr.text_of_finished herr] at hstderr
  cases hstdout
  cases hstderr
  obtain ⟨left, right, hmerged, hlines, hlines'⟩ := hinv.offered
  rw [LineReader.heldBack, hout, List.append_nil] at hlines
  rw [LineReader.heldBack, herr, List.append_nil] at hlines'
  rw [hlines, hlines']
  exact hmerged

/-- A command that printed the line `/a`, with a carriage return. -/
def printedRun : StreamRun :=
  ⟨⟨[47, 97, 13, 10], [], true, [], .finished, ["/a"], false⟩,
    ⟨[], [], true, [], .finished, [], false⟩, [47, 97, 10],
    some (.exited 0), some ⟨[.build "/a"], [], false⟩,
    [⟨"/a", some ⟨[], [], false⟩⟩]⟩

theorem reachable_printedRun :
    (streamRuns (some ⟨[], [], false⟩)).Reachable printedRun := by
  have hline : fromUtf8 (chomp [47, 97, 13]) = some "/a" := by decide
  have hsplit : ([47, 97, 13, 10] : Bytes) = [47, 97, 13] ++ newline :: [] :=
    rfl
  refine ⟨_, rfl, ?_⟩
  refine .head (.writeStdout (.write [47, 97] rfl nofun (by decide))) ?_
  refine .head (.stdout (.read rfl (List.not_mem_nil)
    (List.append_nil _).symm (List.cons_ne_nil _ _))) ?_
  refine .head (.writeStdout (.write [13, 10] rfl nofun (by decide))) ?_
  refine .head (.writeStdout .close) (.head (.writeStderr .close) ?_)
  refine .head (.exit (.exited 0) rfl) ?_
  refine .head (.stdout (.read rfl (by decide)
    (List.append_nil _).symm (List.cons_ne_nil _ _))) ?_
  refine .head (.stdout (.line rfl hsplit (by decide) hline)) ?_
  refine .head (.stdout (.emit rfl)) ?_
  refine .head (.stdout (.finish rfl rfl rfl rfl)) ?_
  exact .single (.stderr (.finish rfl rfl rfl rfl))

theorem streamRuns_result_printed :
    ∃ status, printedRun.status = some status ∧
      .ok [47, 97, 10] = streamResult status printedRun.stdout.text
        printedRun.stderr.text ∧
      printedRun.sink.taken =
        [] ++ (Offer.taken printedRun.offered).map Offer.event ∧
      ∀ stdout stderr, printedRun.stdout.text = some stdout →
        printedRun.stderr.text = some stderr →
        Interleaves stdout stderr (printedRun.offered.map Offer.line) :=
  streamRuns_result reachable_printedRun rfl

end Run

section Draining

/-- A thread with nothing to do, because it is done or waits for output. -/
def LineReader.Idle (reader : LineReader) : Prop :=
  reader.joined?.isSome = true ∨
    reader.closed = false ∧ reader.unread = []

/-- What is still to be done with what was written. -/
def LineReader.work (reader : LineReader) : Nat :=
  4 * reader.unread.length + 3 * reader.pending.length +
    match reader.phase with
    | .reading => 1
    | .emitting _ => 3
    | .finished | .failed => 0

theorem ThreadStep.work_lt {before after : LineReader} {label : ReaderLabel}
    (hstep : ThreadStep before label after) : after.work < before.work := by
  cases hstep with
  | read hphase _ hunread hbytes =>
      have hpos := List.length_pos_iff.mpr hbytes
      simp only [LineReader.work, hphase, hunread, List.length_append]
      omega
  | line hphase hpending _ _ =>
      simp only [LineReader.work, hphase, hpending, List.length_append,
        List.length_cons]
      omega
  | lastLine hphase _ hnonempty _ _ _ =>
      have hpos := List.length_pos_iff.mpr hnonempty
      simp only [LineReader.work, hphase, List.length_nil]
      omega
  | readFails hphase _ => simp [LineReader.work, hphase]
  | lineInvalid hphase _ _ _ => simp [LineReader.work, hphase]
  | lastInvalid hphase _ _ _ _ _ => simp [LineReader.work, hphase]
  | finish hphase _ _ _ => simp [LineReader.work, hphase]
  | emit hphase => simp [LineReader.work, hphase]

/-- What a turn leaves as it is. -/
structure SamePipe (before after : LineReader) : Prop where
  written : after.written = before.written
  closed : after.closed = before.closed
  broken : after.broken = before.broken

theorem SamePipe.trans {first second third : LineReader}
    (hfirst : SamePipe first second) (hsecond : SamePipe second third) :
    SamePipe first third :=
  ⟨hsecond.written.trans hfirst.written, hsecond.closed.trans hfirst.closed,
    hsecond.broken.trans hfirst.broken⟩

/-- A thread that is not idle can go on, without a failure to read. -/
theorem exists_threadStep {reader : LineReader} (hbusy : ¬ reader.Idle) :
    ∃ label after, ThreadStep reader label after ∧ SamePipe reader after := by
  cases hphase : reader.phase with
  | finished => exact absurd (Or.inl (by simp [LineReader.joined?, hphase])) hbusy
  | failed => exact absurd (Or.inl (by simp [LineReader.joined?, hphase])) hbusy
  | emitting line => exact ⟨_, _, .emit hphase, rfl, rfl, rfl⟩
  | reading =>
      by_cases hnewline : newline ∈ reader.pending
      · obtain ⟨front, rest, hpending, hfront⟩ :=
          List.eq_append_cons_of_mem hnewline
        cases htext : fromUtf8 (chomp front) with
        | some text =>
            exact ⟨_, _, .line hphase hpending hfront htext, rfl, rfl, rfl⟩
        | none =>
            exact ⟨_, _, .lineInvalid hphase hpending hfront htext, rfl, rfl,
              rfl⟩
      · by_cases hunread : reader.unread = []
        · have hclosed : reader.closed = true := by
            by_contra hopen
            exact hbusy (Or.inr ⟨Bool.eq_false_iff.mpr hopen, hunread⟩)
          by_cases hpending : reader.pending = []
          · exact ⟨_, _, .finish hphase hpending hunread hclosed, rfl, rfl,
              rfl⟩
          · cases htext : fromUtf8 reader.pending with
            | some text =>
                exact ⟨_, _, .lastLine hphase hnewline hpending hunread
                  hclosed htext, rfl, rfl, rfl⟩
            | none =>
                exact ⟨_, _, .lastInvalid hphase hnewline hpending hunread
                  hclosed htext, rfl, rfl, rfl⟩
        · exact ⟨_, _, .read hphase hnewline (List.append_nil _).symm hunread,
            rfl, rfl, rfl⟩

/-- Turns of the threads alone, with no failure to read. -/
inductive ThreadsStep : StreamRun → StreamRun → Prop
  | stdout {run : StreamRun} {label : ReaderLabel} {after : LineReader} :
      ThreadStep run.stdout label after → SamePipe run.stdout after →
      ThreadsStep run
        ({ run with stdout := after }.afterStdout label)
  | stderr {run : StreamRun} {label : ReaderLabel} {after : LineReader} :
      ThreadStep run.stderr label after → SamePipe run.stderr after →
      ThreadsStep run
        ({ run with stderr := after }.afterStderr label)

/-- The threads' turns from a run on. -/
def threadTurns (run : StreamRun) : Transition StreamRun where
  initial first := first = run
  step := ThreadsStep

structure SamePipes (before after : StreamRun) : Prop where
  status : after.status = before.status
  stdout : SamePipe before.stdout after.stdout
  stderr : SamePipe before.stderr after.stderr

@[simp] theorem afterStdout_readers (run : StreamRun) (label : ReaderLabel) :
    (run.afterStdout label).stdout = run.stdout ∧
      (run.afterStdout label).stderr = run.stderr ∧
      (run.afterStdout label).status = run.status := by
  cases label <;> exact ⟨rfl, rfl, rfl⟩

@[simp] theorem afterStderr_readers (run : StreamRun) (label : ReaderLabel) :
    (run.afterStderr label).stdout = run.stdout ∧
      (run.afterStderr label).stderr = run.stderr ∧
      (run.afterStderr label).status = run.status := by
  cases label <;> exact ⟨rfl, rfl, rfl⟩

def Drained (run : StreamRun) : Prop :=
  run.stdout.Idle ∧ run.stderr.Idle

theorem samePipes_preserved (run : StreamRun) :
    (threadTurns run).Preserved (SamePipes run) := by
  intro before after hsame hstep
  cases hstep with
  | stdout _ hpipe =>
      exact ⟨by simpa using hsame.status,
        by simpa using hsame.stdout.trans hpipe, by simpa using hsame.stderr⟩
  | stderr _ hpipe =>
      exact ⟨by simpa using hsame.status, by simpa using hsame.stdout,
        by simpa using hsame.stderr.trans hpipe⟩

theorem threadTurns_progress (run : StreamRun) :
    (threadTurns run).Progresses (SamePipes run) Drained
      fun run => run.stdout.work + run.stderr.work := by
  intro state _ hbusy
  by_cases hidle : state.stdout.Idle
  · obtain ⟨label, after, hstep, hpipe⟩ :=
      exists_threadStep fun hstderr => hbusy ⟨hidle, hstderr⟩
    refine ⟨_, .stderr hstep hpipe, ?_⟩
    have hless := hstep.work_lt
    simp only [afterStderr_readers]
    omega
  · obtain ⟨label, after, hstep, hpipe⟩ := exists_threadStep hidle
    refine ⟨_, .stdout hstep hpipe, ?_⟩
    have hless := hstep.work_lt
    simp only [afterStdout_readers]
    omega

theorem joined_of_idle {reader : LineReader} (hidle : reader.Idle)
    (hclosed : reader.closed = true) : ∃ result, reader.joined? = some result := by
  rcases hidle with hjoined | ⟨hopen, -⟩
  · exact Option.isSome_iff_exists.mp hjoined
  · rw [hclosed] at hopen
    cases hopen

/-- The threads' turns are steps of the run. -/
theorem threadTurns_streamRuns {run before after : StreamRun}
    (hreaches : (threadTurns run).Reaches before after)
    (start : EventSink) : (streamRuns start).Reaches before after := by
  refine hreaches.lift id fun before after hstep => ?_
  cases hstep with
  | stdout hthread _ => exact .stdout hthread
  | stderr hthread _ => exact .stderr hthread

/-- Once the command has exited and both threads are joined, there is a
result. -/
theorem result_isSome_of_joined {run : StreamRun} {status : ExitStatus}
    {left right : Except Unit Unit} (hstatus : run.status = some status)
    (hleft : run.stdout.joined? = some left)
    (hright : run.stderr.joined? = some right) :
    run.result.isSome = true := by
  simp only [StreamRun.result, hstatus, hleft, hright, Option.bind_eq_bind,
    Option.bind_some]
  cases left with
  | error _ => rfl
  | ok _ =>
      cases right with
      | error _ => rfl
      | ok _ =>
          dsimp only
          split
          · rfl
          · rfl

/-- From any state the two threads, and nothing else, empty both pipes, or
end: a command never waits for ever because a pipe is full.  Once it has exited
and the pipes are closed, there is a result. -/
theorem streamRuns_finish (start : EventSink) (run : StreamRun) :
    ∃ last, (threadTurns run).Reaches run last ∧
      (streamRuns start).Reaches run last ∧ SamePipes run last ∧
      Drained last ∧
      (run.status.isSome = true → run.stdout.closed = true →
        run.stderr.closed = true → last.result.isSome = true) := by
  obtain ⟨last, hreaches, hdrained⟩ := Transition.exists_final
    (samePipes_preserved run) (threadTurns_progress run) run
    ⟨rfl, ⟨rfl, rfl, rfl⟩, ⟨rfl, rfl, rfl⟩⟩
  have hsame := (samePipes_preserved run).along hreaches
    ⟨rfl, ⟨rfl, rfl, rfl⟩, ⟨rfl, rfl, rfl⟩⟩
  refine ⟨last, hreaches, threadTurns_streamRuns hreaches start, hsame,
    hdrained, fun hstatus hstdout hstderr => ?_⟩
  obtain ⟨status, hsome⟩ := Option.isSome_iff_exists.mp hstatus
  obtain ⟨left, hleft⟩ := joined_of_idle hdrained.1
    (hsame.stdout.closed.trans hstdout)
  obtain ⟨right, hright⟩ := joined_of_idle hdrained.2
    (hsame.stderr.closed.trans hstderr)
  exact result_isSome_of_joined (hsame.status.trans hsome) hleft hright

end Draining

end Toolchain

end Kettle
