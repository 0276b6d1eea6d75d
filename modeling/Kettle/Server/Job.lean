/-
The one build job of a server, and the registry that admits it.
-/
import Kettle.Lib.AssocMap
import Kettle.Lib.Bytes

namespace Kettle

namespace Server

inductive BuildResult where
  | ok
  | failed (error errorType : String)
deriving DecidableEq, Repr

inductive Event where
  | queued (position : Nat)
  | vm (msg : String)
  | init (msg : String)
  | detect (msg : String)
  | build (msg : String)
  | provenance (msg : String)
  | attest (msg : String)
  | complete (result : BuildResult)
  | host (msg : String) (url : Option String)
deriving DecidableEq, Repr

def Event.isComplete : Event → Bool
  | complete _ => true
  | _ => false

/-- The events that a build emits. -/
def Event.ofBuild : Event → Bool
  | detect _ | build _ | provenance _ | attest _ => true
  | _ => false

theorem Event.isComplete_of_ofBuild {event : Event}
    (hbuild : event.ofBuild = true) : event.isComplete = false := by
  cases event <;> first | rfl | cases hbuild

inductive ServerJobState where
  | building
  | done
  | failed (error errorType : String)
deriving DecidableEq, Repr

abbrev JobId := String

/-- The log is all that is kept of the events; subscribers are apart. -/
structure ServerJob where
  id : JobId
  nonce : String
  state : ServerJobState
  eventLog : List Event
  result : Option Bytes
deriving DecidableEq, Repr

def ServerJob.new (id : JobId) (nonce : String) : ServerJob where
  id := id
  nonce := nonce
  state := .building
  eventLog := []
  result := none

/-- The part of `push_event` that is seen by later subscribers. -/
def ServerJob.log (job : ServerJob) (event : Event) : ServerJob :=
  { job with eventLog := job.eventLog ++ [event] }

def ServerJob.markDone (job : ServerJob) : ServerJob :=
  { job with state := .done }

def ServerJob.markFailed (job : ServerJob) (error errorType : String) :
    ServerJob :=
  { job with state := .failed error errorType }

/-- `OnceCell::set`. -/
def ServerJob.setResult (job : ServerJob) (tarball : Bytes) :
    Except String ServerJob :=
  match job.result with
  | none => .ok { job with result := some tarball }
  | some _ => .error "result already set"

structure JobRegistry where
  gate : Bool
  inner : AssocMap JobId ServerJob

namespace JobRegistry

def new : JobRegistry := ⟨false, .empty⟩

def get (registry : JobRegistry) (id : JobId) : Option ServerJob :=
  registry.inner.get? id

/-- `gate.swap(true)`: what it was, and the registry after it. -/
def swapGate (registry : JobRegistry) : Bool × JobRegistry :=
  (registry.gate, { registry with gate := true })

def insertJob (registry : JobRegistry) (id : JobId) (nonce : String) :
    JobRegistry :=
  { registry with inner := registry.inner.insert id (ServerJob.new id nonce) }

end JobRegistry

end Server

end Kettle
