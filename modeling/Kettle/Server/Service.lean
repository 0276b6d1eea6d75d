/-
The whole server: the requests that it answers, in between the task of the
build, the pushes of its events and the streams of its subscribers.
-/
import Kettle.Server.EventText
import Kettle.Server.Lifecycle
import Kettle.Server.StreamOrder

namespace Kettle

namespace Server

/-- A job as its parties share it. -/
structure LiveJob where
  task : BuildTask
  events : Broadcast Event
  /-- Logged by a `push_event` that has not broadcast yet. -/
  pushing : Option Event
  streams : List EventStream

namespace LiveJob

def new (id : JobId) (nonce : String) : LiveJob where
  task := ⟨ServerJob.new id nonce, [], [], 0, .notStarted, .started⟩
  events := ⟨broadcastCapacity, []⟩
  pushing := none
  streams := []

/-- The job for those who are only interested in its events. -/
def world (job : LiveJob) : EventWorld :=
  ⟨job.task.job.eventLog, job.events, job.pushing, job.streams⟩

end LiveJob

/-- Whoever is in `push_event` does not go on: the forwarder, or the outer
task on its way to mark the job. -/
def StaysInPush (before after : BuildTask) : Prop :=
  after.forwarder = before.forwarder ∧ ¬ after.isFinished

inductive LiveStep : LiveJob → LiveJob → Prop
  | run {job : LiveJob} {next : BuildTask} :
      TaskStep job.task next →
      next.job.eventLog = job.task.job.eventLog →
      (job.pushing ≠ none → StaysInPush job.task next) →
      LiveStep job { job with task := next }
  /-- The first half of a `push_event`. -/
  | log {job : LiveJob} {next : BuildTask} (event : Event) :
      TaskStep job.task next →
      next.job.eventLog = job.task.job.eventLog ++ [event] →
      LiveStep job { job with task := next, pushing := some event }
  /-- The other half, or a step of a stream. -/
  | events {job : LiveJob} {next : EventWorld} :
      EventStep job.world next →
      next.log = job.task.job.eventLog →
      LiveStep job
        { job with
          events := next.events
          pushing := next.pushing
          streams := next.streams }

def liveJobs : Transition LiveJob where
  initial job := ∃ id nonce, job = LiveJob.new id nonce
  step := LiveStep

structure Service where
  gate : Bool
  /-- Past the gate, and not yet in the registry. -/
  admitted : Option (JobId × String)
  jobs : AssocMap JobId LiveJob

inductive ServiceStep : Service → Service → Prop
  /-- A request with a new UUID swaps the gate. -/
  | passGate {service : Service} (id : JobId) (nonce : String) :
      service.gate = false →
      ServiceStep service
        { service with gate := true, admitted := some (id, nonce) }
  | register {service : Service} {id : JobId} {nonce : String} :
      service.admitted = some (id, nonce) →
      ServiceStep service
        { service with
          admitted := none
          jobs := service.jobs.insert id (LiveJob.new id nonce) }
  | job {service : Service} {id : JobId} {before after : LiveJob} :
      service.jobs.get? id = some before → LiveStep before after →
      ServiceStep service
        { service with jobs := service.jobs.insert id after }

def services : Transition Service where
  initial service := service = ⟨false, none, .empty⟩
  step := ServiceStep

structure Response where
  status : Nat
  contentType : String
  body : Bytes
deriving DecidableEq, Repr

/-- `get_result`, when the file of the result can be opened or not. -/
def getResult (opens : Bool) (service : Service) (id : JobId) :
    Except Nat Response :=
  match service.jobs.get? id with
  | none => .error 404
  | some job =>
      match job.task.job.result with
      | none => .error 404
      | some tarball =>
          if opens then .ok ⟨200, "application/gzip", tarball⟩
          else .error 500

theorem packed_eventLog (job : ServerJob) (tarball : Except String Bytes) :
    (packed job tarball).1.eventLog = job.eventLog := by
  unfold packed ServerJob.setResult
  cases tarball with
  | error error => rfl
  | ok bytes => cases job.result <;> rfl

theorem markResult_eventLog (job : ServerJob)
    (result : Except String Unit) :
    (markResult job result).eventLog = job.eventLog := by
  cases result <;> rfl

theorem markResult_result (job : ServerJob) (result : Except String Unit) :
    (markResult job result).result = job.result := by
  cases result <;> rfl

namespace TaskStep

variable {task next : BuildTask} {event : Event}

/-- A step of the task that logs is a push of the forwarder, or the last one
of the outer task. -/
theorem logs (hstep : TaskStep task next)
    (hlog : next.job.eventLog = task.job.eventLog ++ [event]) :
    (task.forwarder = .pushing event ∧ next.forwarder = .waiting) ∨
      ∃ result, task.outer = .completing result ∧
        next.outer = .marking result := by
  have hne : task.job.eventLog ≠ task.job.eventLog ++ [event] := by simp
  cases hstep with
  | push hpushing =>
      have hevent := List.append_cancel_left hlog
      rw [List.singleton_inj.mp hevent] at hpushing
      exact Or.inl ⟨hpushing, rfl⟩
  | complete houter => exact Or.inr ⟨_, houter, rfl⟩
  | pack tarball houter =>
      exact absurd ((packed_eventLog _ _).symm.trans hlog) hne
  | mark houter =>
      exact absurd ((markResult_eventLog _ _).symm.trans hlog) hne
  | _ => exact absurd hlog hne

/-- Nothing is left for a build that has logged its `Complete` but to mark
the job. -/
theorem of_completed {result : Except String Unit}
    (hinv : TaskInvariant task) (hstep : TaskStep task next)
    (houter : task.outer = .marking result ∨
      task.outer = .finished result) :
    (next.outer = .marking result ∨ next.outer = .finished result) ∧
      next.job.result = task.job.result ∧
      (task.outer = .marking result → next.isFinished) := by
  have hquiet : task.outer.quiet = true := by
    rcases houter with houter | houter <;> rw [houter] <;> rfl
  have hdrained := hinv.quiet hquiet
  have hemit := not_canEmit_of_quiet hinv hquiet
  have hnot : ∀ outer, task.outer = outer → outer.completed = [] → False := by
    intro outer heq hnone
    rcases houter with houter | houter <;> rw [← heq, houter] at hnone <;>
      cases hnone
  cases hstep with
  | mark hmarking =>
      rename_i other
      have hsame : other = result := by
        rcases houter with houter | houter <;> rw [hmarking] at houter <;>
          cases houter
        rfl
      subst hsame
      exact ⟨Or.inr rfl, markResult_result _ _, fun _ => ⟨_, rfl⟩⟩
  | startThread h | tryEmit _ h | emit _ h => exact absurd h hemit
  | endThread hthreads =>
      rw [hdrained.threads] at hthreads
      cases hthreads
  | receive hwaiting => exact absurd hwaiting hdrained.not_waiting
  | stop hwaiting => exact absurd hwaiting hdrained.not_waiting
  | push hpushing =>
      have hinFlight := hdrained.inFlight
      rw [hpushing] at hinFlight
      cases hinFlight
  | tempdirFails _ h | openChannel h | materialized h | notMaterialized _ h
  | buildReturns h | buildFails _ h | pack _ h | drained h | complete h =>
      exact (hnot _ h rfl).elim

end TaskStep

/-- Alone, the task of a job is the task of a build. -/
theorem liveJobs_task (inv : LiveJob → Prop) :
    liveJobs.Refines buildTasks LiveJob.task inv where
  initial := by
    rintro _ ⟨id, nonce, rfl⟩
    exact ⟨id, nonce, rfl⟩
  step _ _ _ hstep := by
    cases hstep with
    | run hrun => exact Or.inr hrun
    | log _ hrun => exact Or.inr hrun
    | events => exact Or.inl rfl

/-- While an event is broadcast, nobody is about to log the next one. -/
structure LiveInvariant (job : LiveJob) : Prop where
  task : TaskInvariant job.task
  pushing : job.pushing ≠ none → job.task.forwarder = .waiting ∨
    ∃ result, job.task.outer = .marking result

theorem Outer.completed_of_not_quiet {outer : Outer}
    (hquiet : outer.quiet = false) : outer.completed = [] := by
  cases outer <;> first | rfl | cases hquiet

/-- The pushes of a job come one after the other, though nothing but the
order of its tasks sees to that. -/
theorem LiveInvariant.idle {job : LiveJob} {next : BuildTask} {event : Event}
    (hinv : LiveInvariant job) (hstep : TaskStep job.task next)
    (hlog : next.job.eventLog = job.task.job.eventLog ++ [event]) :
    job.pushing = none ∧ job.task.outer.completed = [] ∧
      (next.forwarder = .waiting ∨
        ∃ result, next.outer = .marking result) := by
  rcases hstep.logs hlog with ⟨hbefore, hafter⟩ | ⟨result, hbefore, hafter⟩
  · have hquiet : job.task.outer.quiet = false := by
      by_contra h
      have hinFlight := (hinv.task.quiet (Bool.not_eq_false _ ▸ h)).inFlight
      rw [hbefore] at hinFlight
      cases hinFlight
    refine ⟨?_, Outer.completed_of_not_quiet hquiet, Or.inl hafter⟩
    by_contra hpushing
    rcases hinv.pushing hpushing with hwaiting | ⟨result, hmarking⟩
    · rw [hbefore] at hwaiting
      cases hwaiting
    · rw [hmarking] at hquiet
      cases hquiet
  · have hdrained := hinv.task.quiet_of hbefore rfl
    refine ⟨?_, hbefore ▸ rfl, Or.inr ⟨result, hafter⟩⟩
    by_contra hpushing
    rcases hinv.pushing hpushing with hwaiting | ⟨other, hmarking⟩
    · exact hdrained.not_waiting hwaiting
    · rw [hbefore] at hmarking
      cases hmarking

theorem liveInvariant_inductive : liveJobs.Inductive LiveInvariant where
  initial := by
    rintro _ ⟨id, nonce, rfl⟩
    exact ⟨taskInvariant_inductive.initial _ ⟨id, nonce, rfl⟩,
      fun h => absurd rfl h⟩
  step job after hinv hstep := by
    have htask := ((liveJobs_task _).pullback taskInvariant_inductive).step
      job after hinv.task hstep
    refine ⟨htask, ?_⟩
    cases hstep with
    | run hrun hlog hstays =>
        intro hpushing
        obtain ⟨hforwarder, hnotFinished⟩ := hstays hpushing
        rcases hinv.pushing hpushing with hwaiting | ⟨result, hmarking⟩
        · exact Or.inl (hforwarder.trans hwaiting)
        · exact absurd
            ((hrun.of_completed hinv.task (Or.inl hmarking)).2.2 hmarking)
            hnotFinished
    | log event hrun hlog => exact fun _ => (hinv.idle hrun hlog).2.2
    | events hevents hlog =>
        intro hpushing
        refine hinv.pushing ?_
        cases hevents with
        | append event => exact absurd hlog (by simp [LiveJob.world])
        | broadcast => exact absurd rfl hpushing
        | subscribe => exact hpushing
        | stream => exact hpushing

theorem TaskInvariant.log_open {task : BuildTask}
    (hinv : TaskInvariant task) (hopen : task.outer.completed = []) :
    ∀ event ∈ task.job.eventLog, event.isComplete = false := by
  obtain ⟨forwarded, hlog, hsub⟩ := hinv.log
  intro event hevent
  rw [hlog, hopen, List.append_nil] at hevent
  exact Event.isComplete_of_ofBuild (hinv.offered event
    (hsub.subset (List.mem_append_left _ hevent)))

/-- What subscribers are promised of the pushes is what the tasks do. -/
theorem liveJobs_world :
    liveJobs.Refines eventStreams LiveJob.world LiveInvariant where
  initial := by
    rintro _ ⟨id, nonce, rfl⟩
    rfl
  step job after hinv hstep := by
    cases hstep with
    | run hrun hlog => exact Or.inl (by simp only [LiveJob.world, hlog])
    | log event hrun hlog =>
        obtain ⟨hidle, hcompleted, -⟩ := hinv.idle hrun hlog
        have happend : EventStep job.world _ :=
          EventStep.append event hidle (hinv.task.log_open hcompleted)
        right
        change EventStep job.world _
        simp only [LiveJob.world, hlog]
        exact happend
    | events hevents hlog =>
        rename_i next
        have hnext : next = ⟨job.task.job.eventLog, next.events,
            next.pushing, next.streams⟩ := hlog ▸ rfl
        exact Or.inr (hnext ▸ hevents)

/-- Each party of a job sees the others only as it may count on: the build as
a task of its own, and the streams as pushes that come one after the other
and end with `Complete`. -/
theorem liveJobs_refine {job : LiveJob} (hreachable : liveJobs.Reachable job) :
    buildTasks.Reachable job.task ∧ eventStreams.Reachable job.world :=
  ⟨(liveJobs_task LiveInvariant).reachable liveInvariant_inductive hreachable,
    liveJobs_world.reachable liveInvariant_inductive hreachable⟩

/-- How the build of a job has ended, and what it has left. -/
structure Ended (job : LiveJob) (result : BuildResult)
    (tarball : Option Bytes) : Prop where
  outer : ∃ final, buildResult final = result ∧
    (job.task.outer = .marking final ∨ job.task.outer = .finished final)
  result : job.task.job.result = tarball

theorem Ended.step {job after : LiveJob} {result : BuildResult}
    {tarball : Option Bytes} (hinv : LiveInvariant job)
    (hended : Ended job result tarball) (hstep : LiveStep job after) :
    Ended after result tarball := by
  obtain ⟨⟨final, hfinal, houter⟩, hresult⟩ := hended
  cases hstep with
  | run hrun | log _ hrun =>
      obtain ⟨hnext, hsame, -⟩ := hrun.of_completed hinv.task houter
      exact ⟨⟨final, hfinal, hnext⟩, hsame.trans hresult⟩
  | events => exact ⟨⟨final, hfinal, houter⟩, hresult⟩

/-- There is a result if and only if the build has ended well. -/
theorem Ended.isSome_iff {job : LiveJob} {result : BuildResult}
    {tarball : Option Bytes} (hinv : LiveInvariant job)
    (hended : Ended job result tarball) :
    tarball.isSome = true ↔ result = .ok := by
  obtain ⟨⟨final, rfl, houter⟩, hresult⟩ := hended
  rw [← hresult, hinv.task.result]
  rcases houter with houter | houter <;> rw [houter] <;> cases final <;>
    simp [Outer.succeeded, buildResult]

theorem ended_of_complete_mem {job : LiveJob} {result : BuildResult}
    (hinv : LiveInvariant job)
    (hmem : .complete result ∈ job.task.job.eventLog) :
    Ended job result job.task.job.result := by
  refine ⟨?_, rfl⟩
  have hcompleted : .complete result ∈ job.task.outer.completed := by
    obtain ⟨forwarded, hlog, hsub⟩ := hinv.task.log
    rw [hlog, List.mem_append] at hmem
    refine hmem.resolve_left fun hforwarded => ?_
    have hopen := Event.isComplete_of_ofBuild (hinv.task.offered _
      (hsub.subset (List.mem_append_left _ hforwarded)))
    cases hopen
  cases houter : job.task.outer with
  | marking final =>
      rw [houter] at hcompleted
      have hresult := Event.complete.inj (List.mem_singleton.mp hcompleted)
      exact ⟨final, hresult.symm, Or.inl rfl⟩
  | finished final =>
      rw [houter] at hcompleted
      have hresult := Event.complete.inj (List.mem_singleton.mp hcompleted)
      exact ⟨final, hresult.symm, Or.inr rfl⟩
  | _ =>
      rw [houter] at hcompleted
      cases hcompleted

/-- The result is set once. -/
theorem TaskStep.result_kept {task next : BuildTask} {tarball : Bytes}
    (hinv : TaskInvariant task) (hstep : TaskStep task next)
    (hresult : task.job.result = some tarball) :
    next.job.result = some tarball := by
  cases hstep with
  | pack packing houter =>
      have hnone := hinv.result
      rw [houter, hresult] at hnone
      cases hnone
  | mark => exact (markResult_result _ _).trans hresult
  | _ => exact hresult

/-- What a stream has delivered was logged. -/
theorem EventInvariant.mem_log {world : EventWorld} {stream : EventStream}
    {event : Event} (hinv : EventInvariant world)
    (hstream : stream ∈ world.streams) (hevent : event ∈ stream.delivered) :
    event ∈ world.log := by
  have hstreamInv := hinv.streamInv stream hstream
  cases hsnapshot : stream.snapshot with
  | none =>
      rw [(hstreamInv.waiting hsnapshot).2.2] at hevent
      cases hevent
  | some count =>
      obtain ⟨live, hparts⟩ := hstreamInv.streaming count hsnapshot
      have hmem : event ∈ world.log.take count ++ live :=
        hparts.parts ▸ List.mem_append_left _ hevent
      rcases List.mem_append.mp hmem with htaken | hlive
      · exact List.mem_of_mem_take htaken
      · exact List.mem_of_mem_drop
          ((hparts.live_sub.trans (hinv.worldInv.passed_sublist _ _)).subset
            hlive)

theorem LiveInvariant.fits {job : LiveJob} {event : Event}
    (hinv : LiveInvariant job) (hmem : event ∈ job.task.job.eventLog) :
    event.Fits := by
  obtain ⟨forwarded, hlog, hsub⟩ := hinv.task.log
  rw [hlog, List.mem_append] at hmem
  rcases hmem with hforwarded | hcompleted
  · have hbuild := hinv.task.offered event
      (hsub.subset (List.mem_append_left _ hforwarded))
    cases event <;> trivial
  · rcases completed_cases job.task.outer with ⟨hnone, -⟩ | ⟨final, hone, -⟩
    · rw [hnone] at hcompleted
      cases hcompleted
    · rw [hone, List.mem_singleton] at hcompleted
      subst hcompleted
      trivial

/-- Some of what a stream has sent has arrived, and the client reads an event
from it. -/
def ClientReads (sse : SseText) (stream : EventStream) (event : Event) :
    Prop :=
  ∃ sent arrived, sentEvents sent = stream.delivered ∧
    arrived <+: sentBytes sse sent ∧
    some event ∈ (SseReader.messagesOf arrived).map (readMessage sse.text)

theorem ClientReads.mem_log {sse : SseText} (hlaws : SseLaws sse)
    {job : LiveJob} {stream : EventStream} {event : Event}
    (hinv : LiveInvariant job) (hevents : EventInvariant job.world)
    (hstream : stream ∈ job.streams) (hreads : ClientReads sse stream event) :
    event ∈ job.task.job.eventLog := by
  obtain ⟨sent, arrived, hsent, harrived, hmem⟩ := hreads
  have hlogged : ∀ delivered ∈ stream.delivered,
      delivered ∈ job.task.job.eventLog :=
    fun delivered hdelivered => hevents.mem_log hstream hdelivered
  obtain ⟨events, hevents, hread⟩ := readMessages_arrived hlaws
    (fun event hevent => hinv.fits (hlogged event (hsent ▸ hevent))) harrived
  rw [hread, List.mem_map] at hmem
  obtain ⟨_, hread, hsome⟩ := hmem
  exact hlogged event
    (hsent ▸ hevents.subset (Option.some.inj hsome ▸ hread))

structure ServiceInvariant (service : Service) : Prop where
  jobs : ∀ id job, service.jobs.get? id = some job → liveJobs.Reachable job
  closed : service.gate = false → service.admitted = none
  /-- Only one job is ever registered. -/
  registers : service.gate = false ∨ service.admitted ≠ none →
    ∀ id, service.jobs.get? id = none

/-- The job of an id stays, and only takes its own steps. -/
def Kept (id : JobId) (job : LiveJob) (service : Service) : Prop :=
  ∃ after, service.jobs.get? id = some after ∧ liveJobs.Reaches job after

theorem serviceInvariant_inductive : services.Inductive ServiceInvariant where
  initial := by
    rintro _ rfl
    refine ⟨?_, fun _ => rfl, fun _ _ => AssocMap.get?_empty _⟩
    intro id job hjob
    cases hjob
  step service _ hinv hstep := by
    cases hstep with
    | passGate id nonce hgate =>
        refine ⟨hinv.jobs, fun h => (Bool.noConfusion h), fun _ => ?_⟩
        exact hinv.registers (Or.inl hgate)
    | register hadmitted =>
        have hgate : service.gate = true := by
          by_contra h
          rw [hinv.closed (by simpa using h)] at hadmitted
          cases hadmitted
        refine ⟨?_, fun _ => rfl, ?_⟩
        · intro other job hjob
          rw [AssocMap.get?_insert] at hjob
          split at hjob
          · cases hjob
            exact ⟨_, ⟨_, _, rfl⟩, Relation.ReflTransGen.refl⟩
          · exact hinv.jobs other job hjob
        · rintro (hopen | hagain)
          · rw [hgate] at hopen
            cases hopen
          · exact absurd rfl hagain
    | job hjob hlive =>
        refine ⟨?_, hinv.closed, ?_⟩
        · intro other job hother
          rw [AssocMap.get?_insert] at hother
          split at hother
          · cases hother
            exact (hinv.jobs _ _ hjob).trans
              (Relation.ReflTransGen.single hlive)
          · exact hinv.jobs other job hother
        · intro hnone
          rw [hinv.registers hnone] at hjob
          cases hjob

theorem kept_preserved (id : JobId) (job : LiveJob) :
    services.Preserved fun service =>
      ServiceInvariant service ∧ Kept id job service := by
  rintro before _ ⟨hinv, hkept⟩ hstep
  refine ⟨serviceInvariant_inductive.step _ _ hinv hstep, ?_⟩
  obtain ⟨now, hnow, hreaches⟩ := hkept
  cases hstep with
  | passGate => exact ⟨now, hnow, hreaches⟩
  | register hadmitted =>
      have hnone := hinv.registers (Or.inr (by rw [hadmitted]; simp)) id
      rw [hnow] at hnone
      cases hnone
  | job hjob hlive =>
      rename_i other start after
      by_cases hsame : other = id
      · subst hsame
        rw [hnow] at hjob
        cases hjob
        refine ⟨after, ?_, hreaches.tail hlive⟩
        rw [AssocMap.get?_insert, if_pos rfl]
      · refine ⟨now, ?_, hreaches⟩
        rw [AssocMap.get?_insert, if_neg hsame]
        exact hnow

theorem ServiceInvariant.live {service : Service} {id : JobId}
    {job : LiveJob} (hinv : ServiceInvariant service)
    (hjob : service.jobs.get? id = some job) :
    LiveInvariant job ∧ EventInvariant job.world :=
  have hreachable := hinv.jobs id job hjob
  ⟨liveInvariant_inductive.reachable hreachable,
    eventInvariant_inductive.reachable
      (liveJobs_world.reachable liveInvariant_inductive hreachable)⟩

/-- A job of a service later on. -/
theorem ServiceInvariant.later {service later : Service} {id : JobId}
    {job : LiveJob} (hinv : ServiceInvariant service)
    (hjob : service.jobs.get? id = some job)
    (hlater : services.Reaches service later) :
    ServiceInvariant later ∧ Kept id job later :=
  (kept_preserved id job).along hlater
    ⟨hinv, job, hjob, Relation.ReflTransGen.refl⟩

theorem ended_preserved (result : BuildResult) (tarball : Option Bytes) :
    liveJobs.Preserved fun job =>
      LiveInvariant job ∧ Ended job result tarball := fun _ _ hjob hstep =>
  ⟨liveInvariant_inductive.step _ _ hjob.1 hstep, hjob.2.step hjob.1 hstep⟩

theorem result_preserved (tarball : Bytes) :
    liveJobs.Preserved fun job =>
      LiveInvariant job ∧ job.task.job.result = some tarball := by
  rintro before after ⟨hinv, hresult⟩ hstep
  refine ⟨liveInvariant_inductive.step _ _ hinv hstep, ?_⟩
  cases hstep with
  | run hrun | log _ hrun => exact hrun.result_kept hinv.task hresult
  | events => exact hresult

/-- The answer that has the tarball, when its file can be opened. -/
def answerOf (opens : Bool) : Option Bytes → Except Nat Response
  | none => .error 404
  | some tarball =>
      if opens then .ok ⟨200, "application/gzip", tarball⟩ else .error 500

theorem getResult_eq {service : Service} {id : JobId} {job : LiveJob}
    (opens : Bool) (hjob : service.jobs.get? id = some job) :
    getResult opens service id = answerOf opens job.task.job.result := by
  simp only [getResult, hjob]
  cases job.task.job.result <;> rfl

/-- What the answers for a job are, from a moment on. -/
structure Answers (sse : SseText) (service : Service) (id : JobId)
    (job : LiveJob) : Prop where
  /-- Once a client has read how the build ended, it gets the tarball of a
  build that ended well, and nothing of any other. -/
  announced : ∀ stream result, stream ∈ job.streams →
    ClientReads sse stream (.complete result) →
      ∃ tarball, (tarball.isSome = true ↔ result = .ok) ∧
        ∀ later, services.Reaches service later → ∀ opens,
          getResult opens later id = answerOf opens tarball
  /-- A tarball that was given to anyone is given to all, and no client ever
  reads that the build has failed. -/
  given : ∀ opens response, getResult opens service id = .ok response →
    ∀ later, services.Reaches service later →
      getResult true later id = .ok response ∧
      ∀ after stream result, later.jobs.get? id = some after →
        stream ∈ after.streams →
        ClientReads sse stream (.complete result) → result = .ok

/-- Whatever the builds, the clients and the network do, and in whatever
order. -/
theorem services_answer {sse : SseText} (hlaws : SseLaws sse)
    {service : Service} (hreachable : services.Reachable service)
    {id : JobId} {job : LiveJob} (hjob : service.jobs.get? id = some job) :
    Answers sse service id job := by
  have hinv := serviceInvariant_inductive.reachable hreachable
  obtain ⟨hlive, hevents⟩ := hinv.live hjob
  refine ⟨?_, ?_⟩
  · intro stream result hstream hreads
    have hended := ended_of_complete_mem hlive
      (hreads.mem_log hlaws hlive hevents hstream)
    refine ⟨job.task.job.result, hended.isSome_iff hlive, ?_⟩
    intro later hlater opens
    obtain ⟨-, after, hafter, hreaches⟩ := hinv.later hjob hlater
    obtain ⟨-, hstill⟩ := (ended_preserved _ _).along hreaches
      ⟨hlive, hended⟩
    rw [getResult_eq opens hafter, hstill.result]
  · intro opens response hgiven later hlater
    rw [getResult_eq opens hjob] at hgiven
    obtain ⟨hlaterInv, after, hafter, hreaches⟩ := hinv.later hjob hlater
    cases hresult : job.task.job.result with
    | none =>
        rw [hresult] at hgiven
        cases hgiven
    | some tarball =>
        obtain ⟨hafterLive, hkept⟩ := (result_preserved tarball).along
          hreaches ⟨hlive, hresult⟩
        constructor
        · rw [getResult_eq true hafter, hkept]
          rw [hresult] at hgiven
          cases opens <;> cases hgiven
          rfl
        · intro other stream result hother hstream hreads
          rw [hafter] at hother
          cases hother
          have hended := ended_of_complete_mem hafterLive
            (hreads.mem_log hlaws hafterLive (hlaterInv.live hafter).2
              hstream)
          exact (hended.isSome_iff hafterLive).mp (hkept ▸ rfl)

/-- Whatever a job can do, it can do in the service. -/
theorem reaches_of_job {service : Service} {id : JobId}
    {job after : LiveJob} (hjob : service.jobs.get? id = some job)
    (hreaches : liveJobs.Reaches job after) :
    ∃ later, services.Reaches service later ∧
      later.jobs.get? id = some after := by
  induction hreaches with
  | refl => exact ⟨service, Relation.ReflTransGen.refl, hjob⟩
  | tail _ hstep ih =>
      obtain ⟨now, hnow, hfound⟩ := ih
      refine ⟨_, hnow.tail (ServiceStep.job hfound hstep), ?_⟩
      rw [AssocMap.get?_insert, if_pos rfl]

/-- When everything has arrived, the client has read what was sent. -/
theorem clientReads_of_mem {sse : SseText} (hlaws : SseLaws sse)
    {stream : EventStream} {event : Event}
    (hfits : ∀ delivered ∈ stream.delivered, delivered.Fits)
    (hmem : event ∈ stream.delivered) : ClientReads sse stream event := by
  have hsent : sentEvents (stream.delivered.map .emitted) =
      stream.delivered := by
    rw [sentEvents, List.filterMap_map]
    exact List.filterMap_some
  refine ⟨_, _, hsent, List.prefix_rfl, ?_⟩
  rw [messagesOf_sentBytes hlaws, hsent, map_readMessage hfits]
  exact List.mem_map_of_mem hmem

section Demo

/-- A build that has ended well, when all of its pushes are done. -/
def builtJob (streams : List EventStream) : LiveJob where
  task := ⟨⟨"job-1", "00", .building, [.complete .ok], some [0x1f, 0x8b]⟩,
    [], [], 0, .stopped, .marking (.ok ())⟩
  events := ⟨broadcastCapacity, [.complete .ok]⟩
  pushing := none
  streams := streams

/-- A client that has come after that. -/
def lateStream : EventStream := ⟨1, 1, some 1, [], [.complete .ok]⟩

theorem liveJobs_built :
    liveJobs.Reaches (LiveJob.new "job-1" "00") (builtJob []) :=
  (((((((Relation.ReflTransGen.refl.tail
    (LiveStep.run (.openChannel rfl) rfl (fun h => absurd rfl h))).tail
    (LiveStep.run (.materialized rfl) rfl (fun h => absurd rfl h))).tail
    (LiveStep.run (.buildReturns rfl) rfl (fun h => absurd rfl h))).tail
    (LiveStep.run (.pack (.ok [0x1f, 0x8b]) rfl) rfl
      (fun h => absurd rfl h))).tail
    (LiveStep.run (.stop rfl rfl rfl rfl) rfl (fun h => absurd rfl h))).tail
    (LiveStep.run (.drained rfl rfl) rfl (fun h => absurd rfl h))).tail
    (LiveStep.log (.complete .ok) (.complete rfl) rfl)).tail
    (LiveStep.events (.broadcast rfl) rfl)

theorem LiveStep.ofStream {job : LiveJob} {before after : EventStream}
    {i : Nat} (hbefore : job.streams[i]? = some before)
    (hstep : StreamStep job.world before after) :
    LiveStep job { job with streams := job.streams.set i after } :=
  LiveStep.events (EventStep.stream hbefore hstep) rfl

theorem liveJobs_late :
    liveJobs.Reaches (builtJob []) (builtJob [lateStream]) := by
  have hsubscribed : liveJobs.step (builtJob [])
      (builtJob [⟨1, 1, none, [], []⟩]) := LiveStep.events .subscribe rfl
  have hsnapshot : liveJobs.step (builtJob [⟨1, 1, none, [], []⟩])
      (builtJob [⟨1, 1, some 1, [.complete .ok], []⟩]) :=
    @LiveStep.ofStream _ ⟨1, 1, none, [], []⟩ _ 0 rfl (.takeSnapshot rfl)
  have hsent : liveJobs.step
      (builtJob [⟨1, 1, some 1, [.complete .ok], []⟩])
      (builtJob [lateStream]) :=
    @LiveStep.ofStream _ ⟨1, 1, some 1, [.complete .ok], []⟩ _ 0 rfl
      (.sendBacklog rfl)
  exact ((Relation.ReflTransGen.single hsubscribed).tail hsnapshot).tail hsent

/-- The service when the request is answered. -/
def registered : Service where
  gate := true
  admitted := none
  jobs := AssocMap.empty.insert "job-1" (LiveJob.new "job-1" "00")

theorem registered_reachable : services.Reachable registered :=
  ⟨_, rfl, (Relation.ReflTransGen.refl.tail
    (ServiceStep.passGate "job-1" "00" rfl)).tail (ServiceStep.register rfl)⟩

theorem liveJobs_refine_late :
    buildTasks.Reachable (builtJob [lateStream]).task ∧
      eventStreams.Reachable (builtJob [lateStream]).world :=
  liveJobs_refine ⟨_, ⟨"job-1", "00", rfl⟩,
    liveJobs_built.trans liveJobs_late⟩

theorem services_answer_built :
    ∃ service, services.Reachable service ∧
      service.jobs.get? "job-1" = some (builtJob [lateStream]) ∧
      ClientReads plainSse lateStream (.complete .ok) ∧
      Answers plainSse service "job-1" (builtJob [lateStream]) := by
  have hnew : registered.jobs.get? "job-1" =
      some (LiveJob.new "job-1" "00") := AssocMap.get?_insert _ _ _ _
  obtain ⟨service, hlater, hjob⟩ :=
    reaches_of_job hnew (liveJobs_built.trans liveJobs_late)
  have hreachable := registered_reachable.trans hlater
  refine ⟨service, hreachable, hjob, ?_,
    services_answer plainSse_laws hreachable hjob⟩
  refine clientReads_of_mem plainSse_laws ?_ (List.mem_singleton.mpr rfl)
  exact fun delivered hmem => List.mem_singleton.mp hmem ▸ trivial

end Demo

end Server

end Kettle
