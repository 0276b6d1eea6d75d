/-
The events of a job on their way to its subscribers.  `push_event` logs and
then broadcasts; `get_events` subscribes, then takes a snapshot of the log, and
streams the snapshot before what the subscription receives.
-/
import Kettle.Lib.Broadcast
import Kettle.Lib.Transition
import Kettle.Server.Job

namespace Kettle

namespace Server

/-- The latest messages that the broadcast channel keeps. -/
def broadcastCapacity : Nat := 256

/-- The answer to one `get_events` request. -/
structure EventStream where
  /-- Where the receiver started. -/
  start : Nat
  next : Nat
  /-- How much of the log the snapshot took, once it is taken. -/
  snapshot : Option Nat
  backlog : List Event
  delivered : List Event
deriving DecidableEq, Repr

structure EventWorld where
  log : List Event
  events : Broadcast Event
  /-- Logged, and not yet broadcast. -/
  pushing : Option Event
  streams : List EventStream

/-- The steps of one stream.  An error of the receiver is skipped. -/
inductive StreamStep (world : EventWorld) : EventStream → EventStream → Prop
  | takeSnapshot {stream : EventStream} :
      stream.snapshot = none →
      StreamStep world stream
        { stream with
          snapshot := some world.log.length
          backlog := world.log }
  | sendBacklog {stream : EventStream} {event : Event} {rest : List Event} :
      stream.backlog = event :: rest →
      StreamStep world stream
        { stream with
          backlog := rest
          delivered := stream.delivered ++ [event] }
  | receive {stream : EventStream} {event : Event} {next : Nat} :
      stream.snapshot.isSome = true → stream.backlog = [] →
      world.events.recv stream.next = .message event next →
      StreamStep world stream
        { stream with
          next := next
          delivered := stream.delivered ++ [event] }
  | lag {stream : EventStream} {next : Nat} :
      stream.snapshot.isSome = true → stream.backlog = [] →
      world.events.recv stream.next = .lagged next →
      StreamStep world stream { stream with next := next }

inductive EventStep : EventWorld → EventWorld → Prop
  /-- The pushes of a job come one after the other, and `Complete` is the last
  one. -/
  | append {world : EventWorld} (event : Event) :
      world.pushing = none →
      (∀ logged ∈ world.log, logged.isComplete = false) →
      EventStep world
        { world with
          log := world.log ++ [event]
          pushing := some event }
  | broadcast {world : EventWorld} {event : Event} :
      world.pushing = some event →
      EventStep world
        { world with
          events := world.events.send event
          pushing := none }
  | subscribe {world : EventWorld} :
      EventStep world
        { world with
          streams := world.streams ++
            [⟨world.events.subscribe, world.events.subscribe, none, [], []⟩] }
  | stream {world : EventWorld} {i : Nat} {before after : EventStream} :
      world.streams[i]? = some before → StreamStep world before after →
      EventStep world { world with streams := world.streams.set i after }

def eventStreams : Transition EventWorld where
  initial world := world = ⟨[], ⟨broadcastCapacity, []⟩, none, []⟩
  step := EventStep

end Server

end Kettle
