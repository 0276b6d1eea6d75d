/-
What a stream of events delivers: all of the log, in two parts that may
overlap.
-/
import Kettle.Server.EventStream

namespace Kettle

namespace Server

/-- All that was logged has been broadcast, or is about to be. -/
structure WorldInvariant (world : EventWorld) : Prop where
  capacity : world.events.capacity = broadcastCapacity
  log : world.log = world.events.sent ++ world.pushing.toList
  complete : ∀ event ∈ world.log.dropLast, event.isComplete = false

/-- The stream has sent some of its snapshot, or all of it and some of the
messages that its receiver went past, the latest one among them. -/
structure Streaming (world : EventWorld) (stream : EventStream) (count : Nat)
    (live : List Event) : Prop where
  start_le : stream.start ≤ count
  count_le : count ≤ world.log.length
  parts : stream.delivered ++ stream.backlog = world.log.take count ++ live
  live_sub : List.Sublist live
    (world.events.passed stream.start stream.next)
  backlog_first : stream.backlog ≠ [] →
    live = [] ∧ stream.next = stream.start
  latest : stream.next = world.events.sent.length →
    stream.start < stream.next →
      live.getLast? = world.events.sent.getLast?

structure StreamInvariant (world : EventWorld) (stream : EventStream) :
    Prop where
  start_le : stream.start ≤ stream.next
  next_le : stream.next ≤ world.events.sent.length
  waiting : stream.snapshot = none →
    stream.next = stream.start ∧ stream.backlog = [] ∧ stream.delivered = []
  streaming : ∀ count, stream.snapshot = some count →
    ∃ live, Streaming world stream count live

structure EventInvariant (world : EventWorld) : Prop where
  worldInv : WorldInvariant world
  streamInv : ∀ stream ∈ world.streams, StreamInvariant world stream

theorem StreamInvariant.append {world : EventWorld} {stream : EventStream}
    (event : Event) (hinv : StreamInvariant world stream) :
    StreamInvariant
      { world with log := world.log ++ [event], pushing := some event }
      stream := by
  refine ⟨hinv.start_le, hinv.next_le, hinv.waiting, ?_⟩
  intro count hcount
  obtain ⟨live, hstream⟩ := hinv.streaming count hcount
  refine ⟨live, hstream.start_le, ?_, ?_, hstream.live_sub,
    hstream.backlog_first, hstream.latest⟩
  · exact hstream.count_le.trans (by simp)
  · rw [List.take_append_of_le_length hstream.count_le]
    exact hstream.parts

theorem StreamInvariant.broadcast {world : EventWorld} {stream : EventStream}
    (event : Event) (hinv : StreamInvariant world stream) :
    StreamInvariant
      { world with events := world.events.send event, pushing := none }
      stream := by
  have hlength : (world.events.send event).sent.length =
      world.events.sent.length + 1 := List.length_append
  refine ⟨hinv.start_le, ?_, hinv.waiting, ?_⟩
  · exact hlength ▸ Nat.le_succ_of_le hinv.next_le
  · intro count hcount
    obtain ⟨live, hstream⟩ := hinv.streaming count hcount
    refine ⟨live, hstream.start_le, hstream.count_le, hstream.parts, ?_,
      hstream.backlog_first, ?_⟩
    · rw [Broadcast.passed_send hinv.next_le]
      exact hstream.live_sub
    · intro hnext
      have hle := hinv.next_le
      rw [hlength] at hnext
      omega

/-- Other streams do not matter to a stream. -/
theorem StreamInvariant.other {world : EventWorld} {stream : EventStream}
    (hinv : StreamInvariant world stream) (streams : List EventStream) :
    StreamInvariant { world with streams := streams } stream := by
  refine ⟨hinv.start_le, hinv.next_le, hinv.waiting, ?_⟩
  intro count hcount
  obtain ⟨live, hstream⟩ := hinv.streaming count hcount
  exact ⟨live, hstream.start_le, hstream.count_le, hstream.parts,
    hstream.live_sub, hstream.backlog_first, hstream.latest⟩

theorem StreamInvariant.takeSnapshot {world : EventWorld}
    {stream : EventStream} (hworld : WorldInvariant world)
    (hinv : StreamInvariant world stream) (hnone : stream.snapshot = none) :
    StreamInvariant world
      { stream with
        snapshot := some world.log.length
        backlog := world.log } := by
  obtain ⟨hnext, -, hdelivered⟩ := hinv.waiting hnone
  refine ⟨hinv.start_le, hinv.next_le, (fun h => nomatch h), ?_⟩
  intro count hcount
  cases hcount
  refine ⟨[], ?_, le_rfl, ?_, List.nil_sublist _, ?_, ?_⟩
  · have hle := hinv.start_le.trans hinv.next_le
    refine hle.trans ?_
    rw [hworld.log, List.length_append]
    exact Nat.le_add_right _ _
  · rw [hdelivered, List.take_length, List.append_nil, List.nil_append]
  · exact fun _ => ⟨rfl, hnext⟩
  · intro _ hlt
    simp only at hlt
    omega

theorem StreamInvariant.sendBacklog {world : EventWorld}
    {stream : EventStream} {event : Event} {rest : List Event}
    (hinv : StreamInvariant world stream)
    (hbacklog : stream.backlog = event :: rest) :
    StreamInvariant world
      { stream with
        backlog := rest
        delivered := stream.delivered ++ [event] } := by
  refine ⟨hinv.start_le, hinv.next_le, ?_, ?_⟩
  · intro h
    have hempty := (hinv.waiting h).2.1
    rw [hbacklog] at hempty
    cases hempty
  · intro count hcount
    obtain ⟨live, hstream⟩ := hinv.streaming count hcount
    have hparts := hstream.parts
    rw [hbacklog] at hparts
    refine ⟨live, hstream.start_le, hstream.count_le, ?_,
      hstream.live_sub, ?_, hstream.latest⟩
    · rw [← hparts]
      simp
    · intro _
      exact hstream.backlog_first (by rw [hbacklog]; simp)

/-- A stream with a snapshot is not waiting for one. -/
theorem not_waiting {stream : EventStream} {p : Prop}
    (hsome : stream.snapshot.isSome = true) (hnone : stream.snapshot = none) :
    p := by
  rw [hnone] at hsome
  cases hsome

theorem StreamInvariant.receive {world : EventWorld} {stream : EventStream}
    {event : Event} {next : Nat} (hinv : StreamInvariant world stream)
    (hsome : stream.snapshot.isSome = true) (hbacklog : stream.backlog = [])
    (hrecv : world.events.recv stream.next = .message event next) :
    StreamInvariant world
      { stream with
        next := next
        delivered := stream.delivered ++ [event] } := by
  obtain ⟨hget, rfl, hlt⟩ := Broadcast.recv_message hrecv
  refine ⟨hinv.start_le.trans (Nat.le_succ _), hlt, not_waiting hsome, ?_⟩
  intro count hcount
  obtain ⟨live, hstream⟩ := hinv.streaming count hcount
  have hparts := hstream.parts
  rw [hbacklog, List.append_nil] at hparts
  refine ⟨live ++ [event], hstream.start_le, hstream.count_le, ?_, ?_, ?_, ?_⟩
  · simp only [hbacklog, hparts, List.append_nil, List.append_assoc]
  · rw [Broadcast.passed_succ hinv.start_le hget]
    exact hstream.live_sub.append (List.Sublist.refl _)
  · exact fun h => absurd hbacklog h
  · intro hnext _
    rw [List.getLast?_concat, List.getLast?_eq_getElem?, ← hnext]
    exact hget.symm

theorem StreamInvariant.lag {world : EventWorld} {stream : EventStream}
    {next : Nat} (hworld : WorldInvariant world)
    (hinv : StreamInvariant world stream)
    (hsome : stream.snapshot.isSome = true) (hbacklog : stream.backlog = [])
    (hrecv : world.events.recv stream.next = .lagged next) :
    StreamInvariant world { stream with next := next } := by
  have hpos : 0 < world.events.capacity := by
    rw [hworld.capacity]
    decide
  obtain ⟨-, hmore, hless⟩ := Broadcast.recv_lagged hpos hrecv
  refine ⟨hinv.start_le.trans hmore.le, hless.le, not_waiting hsome, ?_⟩
  intro count hcount
  obtain ⟨live, hstream⟩ := hinv.streaming count hcount
  refine ⟨live, hstream.start_le, hstream.count_le, hstream.parts,
    hstream.live_sub.trans (Broadcast.passed_mono hmore.le),
    fun h => absurd hbacklog h, ?_⟩
  intro hnext
  simp only at hnext
  omega

/-- A stream keeps its invariant in its own steps. -/
theorem StreamInvariant.step {world : EventWorld}
    {before after : EventStream} (hworld : WorldInvariant world)
    (hinv : StreamInvariant world before)
    (hstep : StreamStep world before after) :
    StreamInvariant world after := by
  cases hstep with
  | takeSnapshot hnone => exact hinv.takeSnapshot hworld hnone
  | sendBacklog hbacklog => exact hinv.sendBacklog hbacklog
  | receive hsome hbacklog hrecv => exact hinv.receive hsome hbacklog hrecv
  | lag hsome hbacklog hrecv => exact hinv.lag hworld hsome hbacklog hrecv

theorem worldInvariant_append {world : EventWorld} {event : Event}
    (hinv : WorldInvariant world) (hidle : world.pushing = none)
    (hopen : ∀ logged ∈ world.log, logged.isComplete = false) :
    WorldInvariant
      { world with log := world.log ++ [event], pushing := some event } := by
  refine ⟨hinv.capacity, ?_, ?_⟩
  · simp only [hinv.log, hidle, Option.toList_none, List.append_nil,
      Option.toList_some]
  · simp only [List.dropLast_concat]
    exact hopen

theorem worldInvariant_broadcast {world : EventWorld} {event : Event}
    (hinv : WorldInvariant world) (hpushing : world.pushing = some event) :
    WorldInvariant
      { world with events := world.events.send event, pushing := none } := by
  refine ⟨hinv.capacity, ?_, hinv.complete⟩
  simp only [hinv.log, hpushing, Broadcast.send, Option.toList_none,
    Option.toList_some, List.append_nil]

theorem eventInvariant_step {world next : EventWorld}
    (hinv : EventInvariant world) (hstep : EventStep world next) :
    EventInvariant next := by
  cases hstep with
  | append event hidle hopen =>
      exact ⟨worldInvariant_append hinv.worldInv hidle hopen,
        fun stream hstream => (hinv.streamInv stream hstream).append event⟩
  | broadcast hpushing =>
      exact ⟨worldInvariant_broadcast hinv.worldInv hpushing,
        fun stream hstream => (hinv.streamInv stream hstream).broadcast _⟩
  | subscribe =>
      refine ⟨⟨hinv.worldInv.capacity, hinv.worldInv.log,
        hinv.worldInv.complete⟩, ?_⟩
      intro stream hstream
      rcases List.mem_append.mp hstream with hold | hnew
      · exact (hinv.streamInv stream hold).other _
      · rw [List.mem_singleton.mp hnew]
        exact ⟨le_rfl, le_rfl, fun _ => ⟨rfl, rfl, rfl⟩, fun _ h => nomatch h⟩
  | stream hbefore hstream =>
      rename_i i before after
      have hmem := List.mem_of_getElem? hbefore
      have hafter := (hinv.streamInv before hmem).step hinv.worldInv hstream
      refine ⟨⟨hinv.worldInv.capacity, hinv.worldInv.log,
        hinv.worldInv.complete⟩, ?_⟩
      intro stream hset
      rcases List.mem_or_eq_of_mem_set hset with hold | rfl
      · exact (hinv.streamInv stream hold).other _
      · exact hafter.other _

theorem eventInvariant_inductive : eventStreams.Inductive EventInvariant where
  initial := by
    rintro _ rfl
    refine ⟨⟨rfl, rfl, fun event hevent => by cases hevent⟩, ?_⟩
    intro stream hstream
    cases hstream
  step _ _ hinv hstep := eventInvariant_step hinv hstep

/-- The receiver of a stream is never further behind than the channel
keeps. -/
def KeepsUp (i : Nat) (world : EventWorld) : Prop :=
  ∀ stream, world.streams[i]? = some stream →
    world.events.behind stream.next ≤ world.events.capacity

def keepingUp (i : Nat) : Transition EventWorld :=
  eventStreams.restrict fun _ after => KeepsUp i after

/-- All that the receiver went past has been sent on. -/
def NothingMissed (world : EventWorld) (stream : EventStream) : Prop :=
  ∀ count, stream.snapshot = some count →
    stream.delivered ++ stream.backlog = world.log.take count ++
      world.events.passed stream.start stream.next

structure KeptUp (i : Nat) (world : EventWorld) : Prop where
  inv : EventInvariant world
  keepsUp : KeepsUp i world
  nothingMissed : ∀ stream, world.streams[i]? = some stream →
    NothingMissed world stream

theorem nothingMissed_streamStep {world : EventWorld}
    {before after : EventStream} (hinv : StreamInvariant world before)
    (hbehind : world.events.behind before.next ≤ world.events.capacity)
    (hmissed : NothingMissed world before)
    (hcapacity : 0 < world.events.capacity)
    (hstep : StreamStep world before after) : NothingMissed world after := by
  intro count hcount
  cases hstep with
  | takeSnapshot hnone =>
      obtain ⟨hnext, -, hdelivered⟩ := hinv.waiting hnone
      cases hcount
      simp only [hnext, hdelivered, Broadcast.passed_self, List.nil_append,
        List.append_nil, List.take_length]
  | sendBacklog hbacklog =>
      rw [← hmissed count hcount, hbacklog]
      simp
  | receive hsome hbacklog hrecv =>
      obtain ⟨hget, rfl, -⟩ := Broadcast.recv_message hrecv
      have hparts := hmissed count hcount
      rw [hbacklog, List.append_nil] at hparts
      simp only [hbacklog, List.append_nil]
      rw [Broadcast.passed_succ hinv.start_le hget, hparts,
        List.append_assoc]
  | lag hsome hbacklog hrecv =>
      have hlag := (Broadcast.recv_lagged hcapacity hrecv).1
      omega

theorem keptUp_step {i : Nat} {world next : EventWorld}
    (hkept : KeptUp i world) (hstep : EventStep world next)
    (hkeeps : KeepsUp i next) : KeptUp i next := by
  refine ⟨eventInvariant_step hkept.inv hstep, hkeeps, ?_⟩
  intro stream hstream count hcount
  cases hstep with
  | append event hidle hopen =>
      have hold := hkept.nothingMissed stream hstream count hcount
      obtain ⟨live, hparts⟩ := (hkept.inv.streamInv stream
        (List.mem_of_getElem? hstream)).streaming count hcount
      rw [List.take_append_of_le_length hparts.count_le]
      exact hold
  | broadcast hpushing =>
      have hnext := (hkept.inv.streamInv stream
        (List.mem_of_getElem? hstream)).next_le
      rw [Broadcast.passed_send hnext]
      exact hkept.nothingMissed stream hstream count hcount
  | subscribe =>
      rcases Nat.lt_or_ge i world.streams.length with hlt | hge
      · simp only [List.getElem?_append_left hlt] at hstream
        exact hkept.nothingMissed stream hstream count hcount
      · simp only [List.getElem?_append_right hge] at hstream
        have hnew := List.mem_of_getElem? hstream
        rw [List.mem_singleton.mp hnew] at hcount
        cases hcount
  | stream hbefore hstreamStep =>
      rename_i j before after
      by_cases hij : j = i
      · subst hij
        have hlt := (List.getElem?_eq_some_iff.mp hbefore).1
        simp only [List.getElem?_set_self hlt, Option.some.injEq] at hstream
        subst hstream
        refine nothingMissed_streamStep
          (hkept.inv.streamInv before (List.mem_of_getElem? hbefore))
          (hkept.keepsUp before hbefore)
          (hkept.nothingMissed before hbefore) ?_ hstreamStep count hcount
        rw [hkept.inv.worldInv.capacity]
        decide
      · simp only [List.getElem?_set_ne hij] at hstream
        exact hkept.nothingMissed stream hstream count hcount

theorem keptUp_inductive (i : Nat) : (keepingUp i).Inductive (KeptUp i) where
  initial := by
    rintro _ rfl
    refine ⟨eventInvariant_inductive.initial _ rfl, ?_, ?_⟩
    · intro stream hstream
      cases hstream
    · intro stream hstream
      cases hstream
  step _ _ hkept hstep := keptUp_step hkept hstep.1 hstep.2

/-- The stream has sent all there is for it now. -/
def EventStream.Drained (stream : EventStream) (world : EventWorld) : Prop :=
  stream.snapshot.isSome = true ∧ stream.backlog = [] ∧
    stream.next = world.events.sent.length

/-- Nothing that is logged is lost on a stream that keeps up: it is delivered,
or in the backlog, or received later. -/
theorem log_sublist_of_keptUp {i : Nat} {world : EventWorld}
    {stream : EventStream} (hkept : KeptUp i world)
    (hstream : world.streams[i]? = some stream)
    (hsome : stream.snapshot.isSome = true) :
    List.Sublist world.log (stream.delivered ++ stream.backlog ++
      world.events.sent.drop stream.next ++ world.pushing.toList) := by
  obtain ⟨count, hcount⟩ := Option.isSome_iff_exists.mp hsome
  have hinv := hkept.inv.streamInv stream (List.mem_of_getElem? hstream)
  obtain ⟨live, hparts⟩ := hinv.streaming count hcount
  have hstart : stream.start ≤ world.events.sent.length :=
    hinv.start_le.trans hinv.next_le
  have hrest : world.events.sent.drop stream.start ++ world.pushing.toList =
      world.log.drop stream.start := by
    rw [hkept.inv.worldInv.log, List.drop_append_of_le_length hstart]
  rw [hkept.nothingMissed stream hstream count hcount, List.append_assoc,
    List.append_assoc, ← List.append_assoc (world.events.passed _ _),
    Broadcast.passed_append_drop hinv.start_le hinv.next_le, hrest]
  -- the backlog reaches at least to where the receiver started
  calc
    world.log = world.log.take stream.start ++ world.log.drop stream.start :=
      (List.take_append_drop _ _).symm
    List.Sublist _ (world.log.take count ++ world.log.drop stream.start) :=
      (List.take_sublist_take_left hparts.start_le).append
        (List.Sublist.refl _)

/-- The latest message reaches every stream, also one that has lagged. -/
theorem complete_mem_delivered {world : EventWorld} {stream : EventStream}
    {front : List Event} {result : BuildResult}
    (hinv : EventInvariant world) (hmem : stream ∈ world.streams)
    (hidle : world.pushing = none) (hdrained : stream.Drained world)
    (hlog : world.log = front ++ [.complete result]) :
    .complete result ∈ stream.delivered := by
  obtain ⟨hsome, hbacklog, hnext⟩ := hdrained
  obtain ⟨count, hcount⟩ := Option.isSome_iff_exists.mp hsome
  have hstream := hinv.streamInv stream hmem
  obtain ⟨live, hparts⟩ := hstream.streaming count hcount
  have hsent : world.log = world.events.sent := by
    rw [hinv.worldInv.log, hidle, Option.toList_none, List.append_nil]
  have hdelivered := hparts.parts
  rw [hbacklog, List.append_nil] at hdelivered
  rw [hdelivered, List.mem_append]
  rcases hstream.start_le.lt_or_eq with hlt | heq
  · right
    have hlast := hparts.latest hnext hlt
    rw [← hsent, hlog, List.getLast?_concat] at hlast
    exact List.mem_of_getLast? hlast
  · left
    -- the receiver started after the last push, and so the snapshot has it
    have hwhole : world.log.length ≤ count := by
      rw [hsent, ← hnext, ← heq]
      exact hparts.start_le
    rw [List.take_of_length_le hwhole, hlog]
    exact List.mem_append_right _ (List.mem_singleton.mpr rfl)

/-- The steps that push nothing new, and let nobody fall behind. -/
def delivering (i : Nat) : Transition EventWorld :=
  eventStreams.restrict fun before after =>
    after.log = before.log ∧ (KeepsUp i before → KeepsUp i after)

/-- What a stream has left to send, with what is to be broadcast first. -/
def EventStream.remaining (stream : EventStream) (world : EventWorld) : Nat :=
  (if stream.snapshot.isSome then stream.backlog.length
    else world.log.length + 1) +
    world.events.behind stream.next + 2 * world.pushing.toList.length

def remainingAt (i : Nat) (world : EventWorld) : Nat :=
  match world.streams[i]? with
  | some stream => stream.remaining world
  | none => 0

structure Connected (i : Nat) (world : EventWorld) : Prop where
  inv : EventInvariant world
  stream : ∃ stream, world.streams[i]? = some stream

def DrainedAt (i : Nat) (world : EventWorld) : Prop :=
  world.pushing = none ∧ ∀ stream, world.streams[i]? = some stream →
    stream.Drained world

theorem connected_step {i : Nat} {world next : EventWorld}
    (hconnected : Connected i world) (hstep : EventStep world next) :
    Connected i next := by
  refine ⟨eventInvariant_step hconnected.inv hstep, ?_⟩
  obtain ⟨stream, hstream⟩ := hconnected.stream
  have hlt := (List.getElem?_eq_some_iff.mp hstream).1
  cases hstep with
  | append event hidle hopen => exact ⟨stream, hstream⟩
  | broadcast hpushing => exact ⟨stream, hstream⟩
  | subscribe =>
      exact ⟨stream, by simp only [List.getElem?_append_left hlt, hstream]⟩
  | stream hbefore hstreamStep =>
      rename_i j before after
      have hlt' : i < (world.streams.set j after).length := by
        rwa [List.length_set]
      exact ⟨_, List.getElem?_eq_getElem hlt'⟩

/-- A step of the stream itself, seen from the whole. -/
theorem delivering_streamStep {i : Nat} {world : EventWorld}
    {before after : EventStream} (hbefore : world.streams[i]? = some before)
    (hstep : StreamStep world before after)
    (hbehind : world.events.behind after.next ≤
      world.events.behind before.next)
    (hless : after.remaining world < before.remaining world) :
    ∃ next, (delivering i).step world next ∧
      remainingAt i next < remainingAt i world := by
  have hlt := (List.getElem?_eq_some_iff.mp hbefore).1
  refine ⟨_, ⟨EventStep.stream hbefore hstep, rfl, ?_⟩, ?_⟩
  · intro hkeeps stream hstream
    simp only [List.getElem?_set_self hlt, Option.some.injEq] at hstream
    subst hstream
    exact hbehind.trans (hkeeps before hbefore)
  · unfold remainingAt
    simp only [List.getElem?_set_self hlt, hbefore]
    exact hless

/-- A stream with messages left receives one, or learns how many it missed. -/
theorem delivering_receives {i : Nat} {world : EventWorld}
    {stream : EventStream} (hworld : WorldInvariant world)
    (hstream : world.streams[i]? = some stream)
    (hsome : stream.snapshot.isSome = true) (hbacklog : stream.backlog = [])
    (hlt : stream.next < world.events.sent.length) :
    ∃ next, (delivering i).step world next ∧
      remainingAt i next < remainingAt i world := by
  rcases Broadcast.recv_of_lt hlt with ⟨next, hlag⟩ | ⟨event, next, hreceive⟩
  · have hpos : 0 < world.events.capacity := by
      rw [hworld.capacity]
      decide
    obtain ⟨-, hmore, hless⟩ := Broadcast.recv_lagged hpos hlag
    refine delivering_streamStep hstream (.lag hsome hbacklog hlag) ?_ ?_
    · simp only [Broadcast.behind]
      omega
    · simp only [EventStream.remaining, hsome, Broadcast.behind]
      omega
  · obtain ⟨-, rfl, hless⟩ := Broadcast.recv_message hreceive
    refine delivering_streamStep hstream
      (.receive hsome hbacklog hreceive) ?_ ?_
    · simp only [Broadcast.behind]
      omega
    · simp only [EventStream.remaining, hsome, Broadcast.behind]
      omega

/-- The event that is being pushed is broadcast to a stream that has
everything else. -/
theorem delivering_broadcasts {i : Nat} {world : EventWorld}
    {stream : EventStream} {event : Event} (hworld : WorldInvariant world)
    (hstream : world.streams[i]? = some stream)
    (heq : stream.next = world.events.sent.length)
    (hpushing : world.pushing = some event) :
    ∃ next, (delivering i).step world next ∧
      remainingAt i next < remainingAt i world := by
  refine ⟨_, ⟨EventStep.broadcast hpushing, rfl, ?_⟩, ?_⟩
  · intro _ other hother
    simp only [hstream, Option.some.injEq] at hother
    subst hother
    simp only [Broadcast.behind, Broadcast.send, List.length_append,
      List.length_singleton, heq, hworld.capacity, broadcastCapacity]
    omega
  · simp only [remainingAt, hstream, EventStream.remaining, hpushing,
      Broadcast.behind, Broadcast.send, List.length_append,
      List.length_singleton, Option.toList_none, Option.toList_some,
      List.length_nil]
    omega

theorem delivering_progresses (i : Nat) :
    (delivering i).Progresses (Connected i) (DrainedAt i)
      (remainingAt i) := by
  intro world hconnected hnotDrained
  obtain ⟨stream, hstream⟩ := hconnected.stream
  have hworld := hconnected.inv.worldInv
  have hinv := hconnected.inv.streamInv stream (List.mem_of_getElem? hstream)
  cases hsnapshot : stream.snapshot with
  | none =>
      refine delivering_streamStep hstream (.takeSnapshot hsnapshot) le_rfl ?_
      simp [EventStream.remaining, hsnapshot]
  | some count =>
      have hsome : stream.snapshot.isSome = true := by rw [hsnapshot]; rfl
      cases hbacklog : stream.backlog with
      | cons event rest =>
          refine delivering_streamStep hstream (.sendBacklog hbacklog)
            le_rfl ?_
          simp [EventStream.remaining, hsnapshot, hbacklog]
      | nil =>
          rcases hinv.next_le.lt_or_eq with hlt | heq
          · exact delivering_receives hworld hstream hsome hbacklog hlt
          · -- the stream has everything that was broadcast
            cases hpushing : world.pushing with
            | none =>
                refine absurd ⟨hpushing, ?_⟩ hnotDrained
                intro other hother
                rw [hstream, Option.some.injEq] at hother
                exact hother ▸ ⟨hsome, hbacklog, heq⟩
            | some event =>
                exact delivering_broadcasts hworld hstream heq hpushing

/-- What one stream delivers of the log. -/
structure DeliversAll (i : Nat) (world : EventWorld) (stream : EventStream) :
    Prop where
  /-- On a stream that has always kept up nothing is lost. -/
  not_lost : (keepingUp i).Reachable world → stream.snapshot.isSome = true →
    List.Sublist world.log (stream.delivered ++ stream.backlog ++
      world.events.sent.drop stream.next ++ world.pushing.toList)
  delivered : (keepingUp i).Reachable world → DrainedAt i world →
    List.Sublist world.log stream.delivered
  /-- `Complete` arrives whether the stream has kept up or not. -/
  complete : DrainedAt i world → ∀ front result,
    world.log = front ++ [.complete result] →
      .complete result ∈ stream.delivered
  /-- The stream can always be brought so far, without a push, and without
  lagging if it has not. -/
  drains : ∃ last, (delivering i).Reaches world last ∧
    last.log = world.log ∧ DrainedAt i last ∧
    ((keepingUp i).Reachable world → (keepingUp i).Reachable last)

theorem delivering_log {i : Nat} {world last : EventWorld}
    (hreaches : (delivering i).Reaches world last) :
    last.log = world.log := by
  have hsame : (delivering i).Preserved fun other => other.log = world.log :=
    fun _ _ hlog hstep => hstep.2.1.trans hlog
  exact hsame.along hreaches rfl

theorem delivering_keepingUp {i : Nat} {world last : EventWorld}
    (hreaches : (delivering i).Reaches world last)
    (hreachable : (keepingUp i).Reachable world) :
    (keepingUp i).Reachable last := by
  have hkept : (delivering i).Preserved (keepingUp i).Reachable := by
    intro before after hbefore hstep
    have hkeeps := ((keptUp_inductive i).reachable hbefore).keepsUp
    exact hbefore.trans (Relation.ReflTransGen.single
      ⟨hstep.1, hstep.2.2 hkeeps⟩)
  exact hkept.along hreaches hreachable

/-- Every event that is ever logged is delivered. -/
theorem eventStreams_deliverAll {world : EventWorld}
    (hreachable : eventStreams.Reachable world) {i : Nat}
    {stream : EventStream} (hstream : world.streams[i]? = some stream) :
    DeliversAll i world stream := by
  have hinv := eventInvariant_inductive.reachable hreachable
  refine ⟨?_, ?_, ?_, ?_⟩
  · intro hkept hsome
    exact log_sublist_of_keptUp ((keptUp_inductive i).reachable hkept) hstream
      hsome
  · rintro hkept ⟨hidle, hdrained⟩
    obtain ⟨hsome, hbacklog, hnext⟩ := hdrained stream hstream
    have hsub := log_sublist_of_keptUp
      ((keptUp_inductive i).reachable hkept) hstream hsome
    rw [hbacklog, hidle, hnext, List.drop_length] at hsub
    simpa using hsub
  · rintro ⟨hidle, hdrained⟩ front result hlog
    exact complete_mem_delivered hinv (List.mem_of_getElem? hstream) hidle
      (hdrained stream hstream) hlog
  · have hkept : (delivering i).Preserved (Connected i) :=
      fun _ _ hconnected hstep => connected_step hconnected hstep.1
    obtain ⟨last, hreaches, hlast⟩ := Transition.exists_final hkept
      (delivering_progresses i) world ⟨hinv, stream, hstream⟩
    exact ⟨last, hreaches, delivering_log hreaches, hlast,
      delivering_keepingUp hreaches⟩

/-- A stream that subscribes while an event is being pushed. -/
theorem eventStreams_deliverAll_demo :
    ∃ world stream, world.streams[0]? = some stream ∧
      stream.delivered = [.build "Compiling app", .complete .ok] ∧
      DeliversAll 0 world stream :=
  ⟨_, _, rfl, rfl, eventStreams_deliverAll ⟨_, rfl,
    ((((((((Relation.ReflTransGen.refl.tail
      (EventStep.append (.build "Compiling app") rfl (by decide))).tail
      (EventStep.broadcast rfl)).tail
      EventStep.subscribe).tail
      (@EventStep.stream _ 0 _ _ rfl (.takeSnapshot rfl))).tail
      (@EventStep.stream _ 0 _ _ rfl (.sendBacklog rfl))).tail
      (EventStep.append (.complete .ok) rfl (by decide))).tail
      (EventStep.broadcast rfl)).tail
      (@EventStep.stream _ 0 _ _ rfl (.receive rfl rfl rfl)))⟩ rfl⟩

end Server

end Kettle
