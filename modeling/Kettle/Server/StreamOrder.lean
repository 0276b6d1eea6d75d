/-
The order in which a stream delivers events.  The snapshot and what the
subscription receives are each in order, and overlap in what was logged before
the snapshot and broadcast after the subscription.
-/
import Kettle.Server.Delivery

namespace Kettle

namespace Server

/-- Each event of the log at most once, in the order of the log, and nothing
after `Complete`. -/
def InOrderOnce (log delivered : List Event) : Prop :=
  List.Sublist delivered log ∧
    ∀ front result back, delivered = front ++ .complete result :: back →
      back = []

/-- Nothing comes after `Complete`, in the log itself. -/
theorem WorldInvariant.pairwise {world : EventWorld}
    (hinv : WorldInvariant world) :
    world.log.Pairwise fun event _ => event.isComplete = false := by
  have hcomplete := hinv.complete
  generalize world.log = log at hcomplete
  induction log with
  | nil => exact List.Pairwise.nil
  | cons event rest ih =>
      refine List.pairwise_cons.mpr ⟨?_, ih ?_⟩
      · intro later hlater
        refine hcomplete event ?_
        rw [List.dropLast_cons_of_ne_nil (List.ne_nil_of_mem hlater)]
        exact List.mem_cons_self
      · intro earlier hearlier
        refine hcomplete earlier ?_
        cases rest with
        | nil => cases hearlier
        | cons next rest => exact List.mem_cons_of_mem _ hearlier

/-- In a log that `Complete` ends, order is enough. -/
theorem inOrderOnce_of_sublist {log delivered : List Event}
    (hcomplete : log.Pairwise fun event _ => event.isComplete = false)
    (hsub : List.Sublist delivered log) : InOrderOnce log delivered := by
  refine ⟨hsub, ?_⟩
  intro front result back hdelivered
  have hpairs := hcomplete.sublist hsub
  rw [hdelivered] at hpairs
  have hback := (List.pairwise_cons.mp (List.pairwise_append.mp hpairs).2.1).1
  cases back with
  | nil => rfl
  | cons later rest =>
      have hfalse := hback later List.mem_cons_self
      cases hfalse

/-- What is delivered on a stream with a snapshot of `count` events. -/
structure DeliversInOrder (i : Nat) (world : EventWorld)
    (stream : EventStream) (count : Nat) : Prop where
  start_le : stream.start ≤ count
  count_le : count ≤ world.log.length
  /-- Some of the snapshot, or all of it and then what came after the
  subscription. -/
  parts : ∃ backlog live, stream.delivered = backlog ++ live ∧
    List.IsPrefix backlog (world.log.take count) ∧
    (live ≠ [] → backlog = world.log.take count) ∧
    InOrderOnce (world.log.drop stream.start) live
  /-- Without an overlap of the two parts there are no duplicates. -/
  once : count = stream.start → InOrderOnce world.log stream.delivered
  /-- An overlap is delivered twice. -/
  twice : (keepingUp i).Reachable world → DrainedAt i world →
    InOrderOnce world.log stream.delivered → count = stream.start

theorem WorldInvariant.passed_sublist {world : EventWorld}
    (hinv : WorldInvariant world) (start next : Nat) :
    List.Sublist (world.events.passed start next) (world.log.drop start) := by
  unfold Broadcast.passed
  refine ((List.take_sublist _ _).drop start).trans (List.Sublist.drop ?_ _)
  rw [hinv.log]
  exact List.sublist_append_left _ _

theorem Streaming.delivered_parts {world : EventWorld} {stream : EventStream}
    {count : Nat} {live : List Event}
    (hstream : Streaming world stream count live) :
    ∃ backlog, stream.delivered = backlog ++ live ∧
      List.IsPrefix backlog (world.log.take count) ∧
      (live ≠ [] → backlog = world.log.take count) := by
  by_cases hbacklog : stream.backlog = []
  · refine ⟨world.log.take count, ?_, List.prefix_rfl, fun _ => rfl⟩
    rw [← hstream.parts, hbacklog, List.append_nil]
  · obtain ⟨rfl, -⟩ := hstream.backlog_first hbacklog
    refine ⟨stream.delivered, (List.append_nil _).symm, ⟨stream.backlog, ?_⟩,
      fun h => absurd rfl h⟩
    rw [hstream.parts, List.append_nil]

/-- The delivered events are a sublist of the log if the parts only touch. -/
theorem Streaming.delivered_sublist {world : EventWorld}
    {stream : EventStream} {count : Nat} {live : List Event}
    (hworld : WorldInvariant world)
    (hstream : Streaming world stream count live)
    (htouch : count = stream.start) :
    List.Sublist stream.delivered world.log := by
  have hlive : List.Sublist live (world.log.drop count) :=
    htouch ▸ hstream.live_sub.trans (hworld.passed_sublist _ _)
  calc
    List.Sublist stream.delivered (stream.delivered ++ stream.backlog) :=
      List.sublist_append_left _ _
    _ = world.log.take count ++ live := hstream.parts
    List.Sublist _ (world.log.take count ++ world.log.drop count) :=
      (List.Sublist.refl _).append hlive
    _ = world.log := List.take_append_drop _ _

/-- A stream that keeps up delivers the overlap twice. -/
theorem delivered_length_of_drained {i : Nat} {world : EventWorld}
    {stream : EventStream} {count : Nat} (hkept : KeptUp i world)
    (hstream : world.streams[i]? = some stream)
    (hcount : stream.snapshot = some count) (hdrained : DrainedAt i world)
    (hle : count ≤ world.log.length) :
    stream.delivered.length =
      count + (world.log.length - stream.start) := by
  obtain ⟨hidle, hstreams⟩ := hdrained
  obtain ⟨-, hbacklog, hnext⟩ := hstreams stream hstream
  have hlog : world.log = world.events.sent := by
    rw [hkept.inv.worldInv.log, hidle, Option.toList_none, List.append_nil]
  have hparts := hkept.nothingMissed stream hstream count hcount
  rw [hbacklog, List.append_nil, Broadcast.passed, hnext, List.take_length,
    ← hlog] at hparts
  rw [hparts, List.length_append, List.length_take, List.length_drop,
    Nat.min_eq_left hle]

/-- Each stream delivers its snapshot and what comes after its subscription,
each in the order of the log. -/
theorem eventStreams_inOrder {world : EventWorld}
    (hreachable : eventStreams.Reachable world) {i : Nat}
    {stream : EventStream} (hstream : world.streams[i]? = some stream) :
    (stream.snapshot = none → stream.delivered = []) ∧
      ∀ count, stream.snapshot = some count →
        DeliversInOrder i world stream count := by
  have hinv := eventInvariant_inductive.reachable hreachable
  have hworld := hinv.worldInv
  have hstreamInv := hinv.streamInv stream (List.mem_of_getElem? hstream)
  refine ⟨fun hnone => (hstreamInv.waiting hnone).2.2, ?_⟩
  intro count hcount
  obtain ⟨live, hstreaming⟩ := hstreamInv.streaming count hcount
  refine ⟨hstreaming.start_le, hstreaming.count_le, ?_, ?_, ?_⟩
  · obtain ⟨backlog, hdelivered, hprefix, hall⟩ :=
      hstreaming.delivered_parts
    exact ⟨backlog, live, hdelivered, hprefix, hall,
      inOrderOnce_of_sublist (hworld.pairwise.sublist (List.drop_sublist _ _))
        (hstreaming.live_sub.trans (hworld.passed_sublist _ _))⟩
  · intro htouch
    exact inOrderOnce_of_sublist hworld.pairwise
      (hstreaming.delivered_sublist hworld htouch)
  · rintro hkept hdrained ⟨hsub, -⟩
    have hlength := delivered_length_of_drained
      ((keptUp_inductive i).reachable hkept) hstream hcount hdrained
      hstreaming.count_le
    have hle := hsub.length_le
    have hstart := hstreaming.start_le
    have hcountLe := hstreaming.count_le
    omega

/-- A stream that subscribes before the first event and takes its snapshot
after the last one. -/
theorem eventStreams_inOrder_demo :
    ∃ world stream, world.streams[0]? = some stream ∧
      stream.delivered = [.complete .ok] ∧
      DeliversInOrder 0 world stream 1 :=
  ⟨_, _, rfl, rfl, (eventStreams_inOrder ⟨_, rfl,
    (((((Relation.ReflTransGen.refl.tail
      (EventStep.append (.complete .ok) rfl (by decide))).tail
      (EventStep.broadcast rfl)).tail
      EventStep.subscribe).tail
      (@EventStep.stream _ 0 _ _ rfl (.takeSnapshot rfl))).tail
      (@EventStep.stream _ 0 _ _ rfl (.sendBacklog rfl)))⟩ rfl).2 1 rfl⟩

/-- All events come twice, and the first ones again after `Complete`. -/
theorem overlap_not_inOrderOnce :
    ∃ world stream, eventStreams.Reachable world ∧
      world.streams[0]? = some stream ∧
      world.log = [.build "Compiling app", .complete .ok] ∧
      stream.delivered = [.build "Compiling app", .complete .ok,
        .build "Compiling app", .complete .ok] ∧
      ¬ InOrderOnce world.log stream.delivered := by
  refine ⟨_, _, ⟨_, rfl,
    ((((((((((Relation.ReflTransGen.refl.tail
      EventStep.subscribe).tail
      (EventStep.append (.build "Compiling app") rfl (by decide))).tail
      (EventStep.broadcast rfl)).tail
      (EventStep.append (.complete .ok) rfl (by decide))).tail
      (EventStep.broadcast rfl)).tail
      (@EventStep.stream _ 0 _ _ rfl (.takeSnapshot rfl))).tail
      (@EventStep.stream _ 0 _ _ rfl (.sendBacklog rfl))).tail
      (@EventStep.stream _ 0 _ _ rfl (.sendBacklog rfl))).tail
      (@EventStep.stream _ 0 _ _ rfl (.receive rfl rfl rfl))).tail
      (@EventStep.stream _ 0 _ _ rfl (.receive rfl rfl rfl)))⟩,
    rfl, rfl, rfl, ?_⟩
  rintro ⟨hsub, -⟩
  exact absurd hsub.length_le (by decide)

end Server

end Kettle
