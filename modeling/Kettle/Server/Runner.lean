/-
The task of a build: threads emit events into a bounded channel, a forwarder
moves them into the job's log, and the outer task runs the build, waits for
the forwarder and completes the job.
-/
import Kettle.Lib.Result
import Kettle.Lib.Transition
import Kettle.Server.Job

namespace Kettle

namespace Server

/-- The slots of the sink's channel. -/
def channelCapacity : Nat := 256

/-- The task that moves events from the channel into the log. -/
inductive Forwarder where
  | notStarted
  | waiting
  | pushing (event : Event)
  | stopped
deriving DecidableEq, Repr

/-- The event that is neither in the channel nor in the log. -/
def Forwarder.inFlight : Forwarder → List Event
  | pushing event => [event]
  | _ => []

/-- Where `spawn` and `run_build` are. -/
inductive Outer where
  | started
  | materializing
  | building
  | packing
  | draining (result : Except String Unit)
  | completing (result : Except String Unit)
  | marking (result : Except String Unit)
  | finished (result : Except String Unit)

/-- The outer task has not dropped its sender. -/
def Outer.holdsSink : Outer → Bool
  | materializing | building | packing => true
  | _ => false

structure BuildTask where
  job : ServerJob
  /-- What was given to the sink, in the order of the sends. -/
  offered : List Event
  queue : List Event
  /-- Reader threads, each with its clone of the sender. -/
  threads : Nat
  forwarder : Forwarder
  outer : Outer

namespace BuildTask

/-- The build's own closure runs, or a thread that it has started. -/
def CanEmit (task : BuildTask) : Prop :=
  task.outer = .building ∨ 0 < task.threads

/-- `try_send`: an event that finds the channel full is dropped. -/
def trySend (task : BuildTask) (event : Event) : BuildTask :=
  { task with
    offered := task.offered ++ [event]
    queue := if task.queue.length < channelCapacity then task.queue ++ [event]
      else task.queue }

end BuildTask

def buildResult : Except String Unit → BuildResult
  | .ok _ => .ok
  | .error error => .failed error "BuildFailed"

/-- `mark_done` or `mark_failed`. -/
def markResult (job : ServerJob) : Except String Unit → ServerJob
  | .ok _ => job.markDone
  | .error error => job.markFailed error "BuildFailed"

/-- The tarball, once it is made, becomes the result. -/
def packed (job : ServerJob) (tarball : Except String Bytes) :
    ServerJob × Except String Unit :=
  match tarball with
  | .error error => (job, .error error)
  | .ok bytes =>
      match job.setResult bytes with
      | .error error => (job, .error error)
      | .ok job => (job, .ok ())

inductive TaskStep : BuildTask → BuildTask → Prop
  /-- No work directory, and nobody to forward to. -/
  | tempdirFails {task : BuildTask} (error : String) :
      task.outer = .started →
      TaskStep task { task with outer := .completing (.error error) }
  | openChannel {task : BuildTask} :
      task.outer = .started →
      TaskStep task
        { task with forwarder := .waiting, outer := .materializing }
  | materialized {task : BuildTask} :
      task.outer = .materializing →
      TaskStep task { task with outer := .building }
  | notMaterialized {task : BuildTask} (error : String) :
      task.outer = .materializing →
      TaskStep task { task with outer := .draining (.error error) }
  | startThread {task : BuildTask} :
      task.CanEmit →
      TaskStep task { task with threads := task.threads + 1 }
  | endThread {task : BuildTask} :
      0 < task.threads →
      TaskStep task { task with threads := task.threads - 1 }
  | tryEmit {task : BuildTask} (event : Event) :
      task.CanEmit → event.ofBuild = true →
      TaskStep task (task.trySend event)
  /-- `emit` waits for a free slot. -/
  | emit {task : BuildTask} (event : Event) :
      task.CanEmit → event.ofBuild = true →
      task.queue.length < channelCapacity →
      TaskStep task (task.trySend event)
  | receive {task : BuildTask} {event : Event} {rest : List Event} :
      task.forwarder = .waiting → task.queue = event :: rest →
      TaskStep task { task with queue := rest, forwarder := .pushing event }
  | push {task : BuildTask} {event : Event} :
      task.forwarder = .pushing event →
      TaskStep task
        { task with job := task.job.log event, forwarder := .waiting }
  /-- The channel is closed when every sender is dropped. -/
  | stop {task : BuildTask} :
      task.forwarder = .waiting → task.queue = [] →
      task.outer.holdsSink = false → task.threads = 0 →
      TaskStep task { task with forwarder := .stopped }
  | buildReturns {task : BuildTask} :
      task.outer = .building →
      TaskStep task { task with outer := .packing }
  /-- The build fails or panics; its threads may live on. -/
  | buildFails {task : BuildTask} (error : String) :
      task.outer = .building →
      TaskStep task { task with outer := .draining (.error error) }
  | pack {task : BuildTask} (tarball : Except String Bytes) :
      task.outer = .packing →
      TaskStep task
        { task with
          job := (packed task.job tarball).1
          outer := .draining (packed task.job tarball).2 }
  | drained {task : BuildTask} {result : Except String Unit} :
      task.outer = .draining result → task.forwarder = .stopped →
      TaskStep task { task with outer := .completing result }
  | complete {task : BuildTask} {result : Except String Unit} :
      task.outer = .completing result →
      TaskStep task
        { task with
          job := task.job.log (.complete (buildResult result))
          outer := .marking result }
  | mark {task : BuildTask} {result : Except String Unit} :
      task.outer = .marking result →
      TaskStep task
        { task with
          job := markResult task.job result
          outer := .finished result }

/-- The task that `spawn` starts for a job. -/
def buildTasks : Transition BuildTask where
  initial task := ∃ id nonce, task =
    ⟨ServerJob.new id nonce, [], [], 0, .notStarted, .started⟩
  step := TaskStep

end Server

end Kettle
