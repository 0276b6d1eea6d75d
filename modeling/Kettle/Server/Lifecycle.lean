/-
The life of a job: its log ends in one `Complete`, which says what its state
and its result become.
-/
import Kettle.Server.Runner

namespace Kettle

namespace Server

/-- Nothing can be offered or forwarded: the forwarder has not started or is
done. -/
def Outer.quiet : Outer → Bool
  | started | completing _ | marking _ | finished _ => true
  | _ => false

/-- The `Complete` that is in the log. -/
def Outer.completed : Outer → List Event
  | marking result | finished result => [.complete (buildResult result)]
  | _ => []

/-- The build is over, and well. -/
def Outer.succeeded : Outer → Bool
  | draining (.ok _) | completing (.ok _) | marking (.ok _)
  | finished (.ok _) => true
  | _ => false

def finalState : BuildResult → ServerJobState
  | .ok => .done
  | .failed error errorType => .failed error errorType

def Outer.jobState : Outer → ServerJobState
  | finished result => finalState (buildResult result)
  | _ => .building

/-- What is on its way into the log. -/
def BuildTask.pending (task : BuildTask) : List Event :=
  task.forwarder.inFlight ++ task.queue

/-- Nobody holds a sender any more, and nothing is left in the channel. -/
structure Drained (task : BuildTask) : Prop where
  queue : task.queue = []
  threads : task.threads = 0
  inFlight : task.forwarder.inFlight = []
  not_waiting : task.forwarder ≠ .waiting

structure TaskInvariant (task : BuildTask) : Prop where
  offered : ∀ event ∈ task.offered, event.ofBuild = true
  log : ∃ forwarded, task.job.eventLog = forwarded ++ task.outer.completed ∧
    List.Sublist (forwarded ++ task.pending) task.offered
  quiet : task.outer.quiet = true → Drained task
  stopped : task.forwarder = .stopped →
    task.outer.holdsSink = false ∧ Drained task
  notStarted : task.forwarder = .notStarted → task.outer.quiet = true
  result : task.job.result.isSome = task.outer.succeeded
  state : task.job.state = task.outer.jobState

theorem not_canEmit_of_quiet {task : BuildTask} (hinv : TaskInvariant task)
    (hquiet : task.outer.quiet = true) : ¬ task.CanEmit := by
  rintro (hbuilding | hthreads)
  · rw [hbuilding] at hquiet
    cases hquiet
  · rw [(hinv.quiet hquiet).threads] at hthreads
    cases hthreads

/-- While something can be emitted, the outer task has not come to the end of
the build's events. -/
theorem canEmit_spec {task : BuildTask} (hinv : TaskInvariant task)
    (hemit : task.CanEmit) :
    task.outer.quiet = false ∧ task.forwarder ≠ .stopped := by
  constructor
  · by_contra hquiet
    rw [Bool.not_eq_false] at hquiet
    exact not_canEmit_of_quiet hinv hquiet hemit
  · intro hstopped
    obtain ⟨hsink, hdrained⟩ := hinv.stopped hstopped
    rcases hemit with hbuilding | hthreads
    · rw [hbuilding] at hsink
      cases hsink
    · rw [hdrained.threads] at hthreads
      cases hthreads

/-- Only the outer task has moved, to a place with nothing more in the log. -/
theorem TaskInvariant.move {task : BuildTask} {outer : Outer}
    (hinv : TaskInvariant task)
    (hcompleted : outer.completed = task.outer.completed)
    (hquiet : outer.quiet = true → Drained task)
    (hstopped : task.forwarder = .stopped → outer.holdsSink = false)
    (hnotStarted : task.forwarder = .notStarted → outer.quiet = true)
    (hsucceeded : outer.succeeded = task.outer.succeeded)
    (hstate : outer.jobState = task.outer.jobState) :
    TaskInvariant { task with outer := outer } where
  offered := hinv.offered
  log := by
    obtain ⟨forwarded, hlog, hsub⟩ := hinv.log
    exact ⟨forwarded, by rw [hcompleted]; exact hlog, hsub⟩
  quiet h := ⟨(hquiet h).queue, (hquiet h).threads, (hquiet h).inFlight,
    (hquiet h).not_waiting⟩
  stopped h := ⟨hstopped h, (hinv.stopped h).2.queue,
    (hinv.stopped h).2.threads, (hinv.stopped h).2.inFlight,
    (hinv.stopped h).2.not_waiting⟩
  notStarted := hnotStarted
  result := by rw [hsucceeded]; exact hinv.result
  state := by rw [hstate]; exact hinv.state

theorem TaskInvariant.trySend {task : BuildTask} {event : Event}
    (hinv : TaskInvariant task) (hemit : task.CanEmit)
    (hbuild : event.ofBuild = true) : TaskInvariant (task.trySend event) := by
  obtain ⟨hquiet, hnotStopped⟩ := canEmit_spec hinv hemit
  refine ⟨?_, ?_, ?_, ?_, hinv.notStarted, hinv.result, hinv.state⟩
  · intro other hother
    rcases List.mem_append.mp hother with hother | hother
    · exact hinv.offered other hother
    · rw [List.mem_singleton.mp hother]
      exact hbuild
  · obtain ⟨forwarded, hlog, hsub⟩ := hinv.log
    refine ⟨forwarded, hlog, ?_⟩
    unfold BuildTask.pending BuildTask.trySend
    unfold BuildTask.pending at hsub
    by_cases hroom : task.queue.length < channelCapacity
    · simp only [hroom, if_true]
      rw [← List.append_assoc, ← List.append_assoc]
      rw [← List.append_assoc] at hsub
      exact hsub.append (List.Sublist.refl [event])
    · simp only [hroom, if_false]
      exact hsub.trans (List.sublist_append_left _ _)
  · intro h
    exact absurd (h.symm.trans hquiet) (by decide)
  · intro h
    exact absurd h hnotStopped

/-- The outer task is at a given place of the build. -/
theorem TaskInvariant.quiet_of {task : BuildTask} {outer : Outer}
    (hinv : TaskInvariant task) (houter : task.outer = outer)
    (hquiet : outer.quiet = true) : Drained task :=
  hinv.quiet (houter ▸ hquiet)

/-- A forwarder that has not started belongs to a quiet task. -/
theorem TaskInvariant.running {task : BuildTask} {outer : Outer}
    (hinv : TaskInvariant task) (houter : task.outer = outer)
    (hquiet : outer.quiet = false) : task.forwarder ≠ .notStarted := by
  intro hnot
  have hq := hinv.notStarted hnot
  rw [houter, hquiet] at hq
  cases hq

/-- From one phase of the build to the next: the forwarder goes on for as long
as the sink is held. -/
theorem TaskInvariant.goOn {task : BuildTask} {outer next : Outer}
    (hinv : TaskInvariant task) (houter : task.outer = outer)
    (hbefore : outer.quiet = false) (hafter : next.quiet = false)
    (hheld : outer.holdsSink = true)
    (hcompleted : next.completed = outer.completed)
    (hsucceeded : next.succeeded = outer.succeeded)
    (hstate : next.jobState = outer.jobState) :
    TaskInvariant { task with outer := next } := by
  subst houter
  refine hinv.move hcompleted ?_ ?_ ?_ hsucceeded hstate
  · intro hquiet
    rw [hafter] at hquiet
    cases hquiet
  · intro hstopped
    rw [(hinv.stopped hstopped).1] at hheld
    cases hheld
  · exact fun hnot => absurd hnot (hinv.running rfl hbefore)

theorem TaskInvariant.openChannel {task : BuildTask}
    (hinv : TaskInvariant task) (houter : task.outer = .started) :
    TaskInvariant
      { task with forwarder := .waiting, outer := .materializing } := by
  have hdrained := hinv.quiet_of houter rfl
  refine ⟨hinv.offered, ?_, ?_, ?_, ?_, ?_, ?_⟩
  · obtain ⟨forwarded, hlog, hsub⟩ := hinv.log
    rw [houter] at hlog
    refine ⟨forwarded, hlog, ?_⟩
    unfold BuildTask.pending at hsub
    rw [hdrained.inFlight] at hsub
    exact hsub
  · intro h
    cases h
  · intro h
    cases h
  · intro h
    cases h
  · rw [show Outer.succeeded .materializing = task.outer.succeeded by
      rw [houter]; rfl]
    exact hinv.result
  · rw [show Outer.jobState .materializing = task.outer.jobState by
      rw [houter]; rfl]
    exact hinv.state

/-- More or fewer threads, while the task is not quiet. -/
theorem TaskInvariant.withThreads {task : BuildTask} {threads : Nat}
    (hinv : TaskInvariant task)
    (hzero : task.threads = 0 → task.outer.quiet = true → threads = 0)
    (hstopped : task.forwarder = .stopped → threads = 0) :
    TaskInvariant { task with threads := threads } := by
  refine ⟨hinv.offered, hinv.log, ?_, ?_, hinv.notStarted, hinv.result,
    hinv.state⟩
  · intro h
    obtain ⟨hqueue, hthreads, hinFlight, hwaiting⟩ := hinv.quiet h
    exact ⟨hqueue, hzero hthreads h, hinFlight, hwaiting⟩
  · intro h
    obtain ⟨hsink, hqueue, -, hinFlight, hwaiting⟩ := hinv.stopped h
    exact ⟨hsink, hqueue, hstopped h, hinFlight, hwaiting⟩

theorem TaskInvariant.receive {task : BuildTask} {event : Event}
    {rest : List Event} (hinv : TaskInvariant task)
    (hwaiting : task.forwarder = .waiting)
    (hqueue : task.queue = event :: rest) :
    TaskInvariant
      { task with queue := rest, forwarder := .pushing event } := by
  refine ⟨hinv.offered, ?_, ?_, ?_, ?_, hinv.result, hinv.state⟩
  · obtain ⟨forwarded, hlog, hsub⟩ := hinv.log
    refine ⟨forwarded, hlog, ?_⟩
    unfold BuildTask.pending at hsub
    rw [hwaiting, hqueue] at hsub
    exact hsub
  · intro h
    exact absurd hwaiting (hinv.quiet h).not_waiting
  · intro h
    cases h
  · intro h
    cases h

theorem TaskInvariant.push {task : BuildTask} {event : Event}
    (hinv : TaskInvariant task) (hpushing : task.forwarder = .pushing event) :
    TaskInvariant
      { task with job := task.job.log event, forwarder := .waiting } := by
  have hnotQuiet : task.outer.quiet ≠ true := by
    intro h
    have hinFlight := (hinv.quiet h).inFlight
    rw [hpushing] at hinFlight
    cases hinFlight
  have hopen : task.outer.completed = [] := by
    cases houter : task.outer <;> rw [houter] at hnotQuiet <;>
      first | rfl | exact absurd rfl hnotQuiet
  refine ⟨hinv.offered, ?_, ?_, ?_, ?_, hinv.result, hinv.state⟩
  · obtain ⟨forwarded, hlog, hsub⟩ := hinv.log
    rw [hopen, List.append_nil] at hlog
    refine ⟨forwarded ++ [event], ?_, ?_⟩
    · simp only [ServerJob.log, hlog, hopen, List.append_nil]
    · unfold BuildTask.pending at hsub ⊢
      rw [hpushing] at hsub
      simpa [Forwarder.inFlight] using hsub
  · exact fun h => absurd h hnotQuiet
  · intro h
    cases h
  · intro h
    cases h

theorem TaskInvariant.stop {task : BuildTask} (hinv : TaskInvariant task)
    (hwaiting : task.forwarder = .waiting) (hqueue : task.queue = [])
    (hsink : task.outer.holdsSink = false) (hthreads : task.threads = 0) :
    TaskInvariant { task with forwarder := .stopped } := by
  have hdrained : Drained { task with forwarder := .stopped } :=
    ⟨hqueue, hthreads, rfl, by simp⟩
  refine ⟨hinv.offered, ?_, fun _ => hdrained, fun _ => ⟨hsink, hdrained⟩,
    ?_, hinv.result, hinv.state⟩
  · obtain ⟨forwarded, hlog, hsub⟩ := hinv.log
    refine ⟨forwarded, hlog, ?_⟩
    unfold BuildTask.pending at hsub
    rw [hwaiting] at hsub
    exact hsub
  · intro h
    cases h

/-- The result is set exactly when packing succeeds. -/
theorem packed_spec {job : ServerJob} (tarball : Except String Bytes)
    (hnone : job.result.isSome = false) :
    (packed job tarball).1.eventLog = job.eventLog ∧
      (packed job tarball).1.state = job.state ∧
      (packed job tarball).1.result.isSome =
        Outer.succeeded (.draining (packed job tarball).2) := by
  rw [Option.isSome_eq_false_iff, Option.isNone_iff_eq_none] at hnone
  unfold packed
  cases tarball with
  | error error => exact ⟨rfl, rfl, by rw [hnone]; rfl⟩
  | ok bytes =>
      unfold ServerJob.setResult
      rw [hnone]
      exact ⟨rfl, rfl, rfl⟩

theorem TaskInvariant.pack {task : BuildTask} (tarball : Except String Bytes)
    (hinv : TaskInvariant task) (houter : task.outer = .packing) :
    TaskInvariant
      { task with
        job := (packed task.job tarball).1
        outer := .draining (packed task.job tarball).2 } := by
  have hresult := hinv.result
  have hstate := hinv.state
  rw [houter] at hresult hstate
  obtain ⟨hlogEq, hstateEq, hresultEq⟩ := packed_spec tarball hresult
  have hrunning := hinv.running houter rfl
  refine ⟨hinv.offered, ?_, ?_, ?_, ?_, hresultEq, ?_⟩
  · obtain ⟨forwarded, hlog, hsub⟩ := hinv.log
    rw [houter] at hlog
    exact ⟨forwarded, hlogEq.trans hlog, hsub⟩
  · intro h
    cases h
  · intro h
    obtain ⟨-, hqueue, hthreads, hinFlight, hwaiting⟩ := hinv.stopped h
    exact ⟨rfl, hqueue, hthreads, hinFlight, hwaiting⟩
  · exact fun h => absurd h hrunning
  · exact hstateEq.trans hstate

theorem TaskInvariant.complete {task : BuildTask}
    {result : Except String Unit} (hinv : TaskInvariant task)
    (houter : task.outer = .completing result) :
    TaskInvariant
      { task with
        job := task.job.log (.complete (buildResult result))
        outer := .marking result } := by
  have hdrained := hinv.quiet_of houter rfl
  refine ⟨hinv.offered, ?_, fun _ => ⟨hdrained.queue, hdrained.threads,
    hdrained.inFlight, hdrained.not_waiting⟩, ?_, fun _ => rfl, ?_, ?_⟩
  · obtain ⟨forwarded, hlog, hsub⟩ := hinv.log
    rw [houter] at hlog
    refine ⟨forwarded, ?_, hsub⟩
    simp only [ServerJob.log, hlog, Outer.completed, List.append_nil]
  · intro h
    exact ⟨rfl, hdrained.queue, hdrained.threads, hdrained.inFlight,
      hdrained.not_waiting⟩
  · have hresult := hinv.result
    rw [houter] at hresult
    cases result <;> exact hresult
  · have hstate := hinv.state
    rw [houter] at hstate
    exact hstate

theorem TaskInvariant.mark {task : BuildTask} {result : Except String Unit}
    (hinv : TaskInvariant task) (houter : task.outer = .marking result) :
    TaskInvariant
      { task with
        job := markResult task.job result
        outer := .finished result } := by
  have hdrained := hinv.quiet_of houter rfl
  have hjob : (markResult task.job result).eventLog = task.job.eventLog ∧
      (markResult task.job result).result = task.job.result := by
    cases result <;> exact ⟨rfl, rfl⟩
  refine ⟨hinv.offered, ?_, fun _ => ⟨hdrained.queue, hdrained.threads,
    hdrained.inFlight, hdrained.not_waiting⟩, ?_, fun _ => rfl, ?_, ?_⟩
  · obtain ⟨forwarded, hlog, hsub⟩ := hinv.log
    rw [houter] at hlog
    exact ⟨forwarded, hjob.1.trans hlog, hsub⟩
  · intro h
    exact ⟨rfl, hdrained.queue, hdrained.threads, hdrained.inFlight,
      hdrained.not_waiting⟩
  · have hresult := hinv.result
    rw [houter] at hresult
    simp only [hjob.2]
    cases result <;> exact hresult
  · cases result <;> rfl

theorem taskInvariant_step {task next : BuildTask}
    (hinv : TaskInvariant task) (hstep : TaskStep task next) :
    TaskInvariant next := by
  cases hstep with
  | tempdirFails error houter =>
      refine hinv.move ?_ (fun _ => hinv.quiet_of houter rfl) (fun _ => rfl)
        (fun _ => rfl) ?_ ?_ <;> rw [houter] <;> rfl
  | openChannel houter => exact hinv.openChannel houter
  | materialized houter =>
      exact hinv.goOn houter rfl rfl rfl rfl rfl rfl
  | notMaterialized error houter =>
      exact hinv.goOn houter rfl rfl rfl rfl rfl rfl
  | startThread hemit =>
      obtain ⟨hquiet, hnotStopped⟩ := canEmit_spec hinv hemit
      refine hinv.withThreads ?_ (fun h => absurd h hnotStopped)
      intro _ h
      rw [hquiet] at h
      cases h
  | endThread hthreads =>
      refine hinv.withThreads ?_ ?_
      · intro hzero _
        rw [hzero]
      · intro h
        rw [(hinv.stopped h).2.threads]
  | tryEmit event hemit hbuild => exact hinv.trySend hemit hbuild
  | emit event hemit hbuild hroom => exact hinv.trySend hemit hbuild
  | receive hwaiting hqueue => exact hinv.receive hwaiting hqueue
  | push hpushing => exact hinv.push hpushing
  | stop hwaiting hqueue hsink hthreads =>
      exact hinv.stop hwaiting hqueue hsink hthreads
  | buildReturns houter =>
      exact hinv.goOn houter rfl rfl rfl rfl rfl rfl
  | buildFails error houter =>
      exact hinv.goOn houter rfl rfl rfl rfl rfl rfl
  | pack tarball houter => exact hinv.pack tarball houter
  | drained houter hstopped =>
      rename_i result
      refine hinv.move ?_ (fun _ => (hinv.stopped hstopped).2) (fun _ => rfl)
        (fun _ => rfl) ?_ ?_
      · rw [houter]; rfl
      · rw [houter]; cases result <;> rfl
      · rw [houter]; rfl
  | complete houter => exact hinv.complete houter
  | mark houter => exact hinv.mark houter

theorem taskInvariant_inductive : buildTasks.Inductive TaskInvariant where
  initial := by
    rintro _ ⟨id, nonce, rfl⟩
    have hdrained : Drained
        ⟨ServerJob.new id nonce, [], [], 0, .notStarted, .started⟩ :=
      ⟨rfl, rfl, rfl, by simp⟩
    refine ⟨?_, ⟨[], rfl, List.Sublist.refl []⟩, fun _ => hdrained, ?_,
      fun _ => rfl, rfl, rfl⟩
    · intro event hevent
      cases hevent
    · intro h
      cases h
  step _ _ hinv hstep := taskInvariant_step hinv hstep

def Outer.rank : Outer → Nat
  | started => 7
  | materializing => 6
  | building => 5
  | packing => 4
  | draining _ => 3
  | completing _ => 2
  | marking _ => 1
  | finished _ => 0

def Forwarder.rank : Forwarder → Nat
  | pushing _ => 2
  | waiting => 1
  | notStarted | stopped => 0

/-- An upper bound of the steps to the end, when nothing new begins. -/
def BuildTask.rank (task : BuildTask) : Nat :=
  task.outer.rank + task.threads + 2 * task.queue.length + task.forwarder.rank

def BuildTask.isFinished (task : BuildTask) : Prop :=
  ∃ result, task.outer = .finished result

/-- While it waits for the forwarder, some party can go on. -/
theorem draining_progress {task : BuildTask} {result : Except String Unit}
    (hinv : TaskInvariant task) (houter : task.outer = .draining result) :
    ∃ next, TaskStep task next ∧ next.rank < task.rank := by
  rcases Nat.eq_zero_or_pos task.threads with hzero | hthreads
  · cases hforwarder : task.forwarder with
    | notStarted => exact absurd hforwarder (hinv.running houter rfl)
    | waiting =>
        cases hqueue : task.queue with
        | nil =>
            refine ⟨_, TaskStep.stop hforwarder hqueue (by rw [houter]; rfl)
              hzero, ?_⟩
            simp [BuildTask.rank, hforwarder, Forwarder.rank]
        | cons event rest =>
            refine ⟨_, TaskStep.receive hforwarder hqueue, ?_⟩
            simp only [BuildTask.rank, hforwarder, hqueue, Forwarder.rank,
              List.length_cons]
            omega
    | pushing event =>
        refine ⟨_, TaskStep.push hforwarder, ?_⟩
        simp [BuildTask.rank, hforwarder, Forwarder.rank]
    | stopped =>
        refine ⟨_, TaskStep.drained houter hforwarder, ?_⟩
        simp [BuildTask.rank, houter, Outer.rank]
  · refine ⟨_, TaskStep.endThread hthreads, ?_⟩
    simp only [BuildTask.rank]
    omega

theorem buildTasks_progresses :
    buildTasks.Progresses TaskInvariant BuildTask.isFinished
      BuildTask.rank := by
  intro task hinv hnotFinished
  cases houter : task.outer with
  | started =>
      refine ⟨_, TaskStep.tempdirFails "" houter, ?_⟩
      simp [BuildTask.rank, houter, Outer.rank]
  | materializing =>
      refine ⟨_, TaskStep.notMaterialized "" houter, ?_⟩
      simp [BuildTask.rank, houter, Outer.rank]
  | building =>
      refine ⟨_, TaskStep.buildFails "" houter, ?_⟩
      simp [BuildTask.rank, houter, Outer.rank]
  | packing =>
      refine ⟨_, TaskStep.pack (.error "") houter, ?_⟩
      simp [BuildTask.rank, houter, Outer.rank]
  | draining result => exact draining_progress hinv houter
  | completing result =>
      refine ⟨_, TaskStep.complete houter, ?_⟩
      simp [BuildTask.rank, houter, Outer.rank]
  | marking result =>
      refine ⟨_, TaskStep.mark houter, ?_⟩
      simp [BuildTask.rank, houter, Outer.rank]
  | finished result => exact absurd ⟨result, houter⟩ hnotFinished

/-- The log of a completed job: build events in the order in which they were
offered, and one `Complete`. -/
def CompletedLog (task : BuildTask) (result : BuildResult) : Prop :=
  ∃ forwarded, task.job.eventLog = forwarded ++ [.complete result] ∧
    (∀ event ∈ forwarded, event.isComplete = false) ∧
    List.Sublist forwarded task.offered

/-- What holds of a job at every moment. -/
structure JobLifecycle (task : BuildTask) : Prop where
  /-- Before a `Complete` is logged, the log is what was forwarded. -/
  running : (∀ event ∈ task.job.eventLog, event.isComplete = false) →
    task.job.state = .building ∧ List.Sublist task.job.eventLog task.offered
  /-- A logged `Complete` is the only one, the last event, and comes after the
  result. -/
  completed : ∀ result, .complete result ∈ task.job.eventLog →
    CompletedLog task result ∧
      (task.job.result.isSome = true ↔ result = .ok)
  /-- The state changes after that, and says the same. -/
  leaves_building : task.job.state ≠ .building →
    ∃ result, .complete result ∈ task.job.eventLog ∧
      task.job.state = finalState result
  finished : task.isFinished → task.job.state ≠ .building
  finishes : ∃ last, buildTasks.Reaches task last ∧ last.isFinished

theorem completed_cases (outer : Outer) :
    (outer.completed = [] ∧ outer.jobState = .building) ∨
      ∃ result : Except String Unit,
        outer.completed = [.complete (buildResult result)] ∧
        (outer.succeeded = true ↔ buildResult result = .ok) ∧
        (outer.jobState = .building ∨
          outer.jobState = finalState (buildResult result)) := by
  cases outer with
  | marking result =>
      refine Or.inr ⟨result, rfl, ?_, Or.inl rfl⟩
      cases result <;> simp [Outer.succeeded, buildResult]
  | finished result =>
      refine Or.inr ⟨result, rfl, ?_, Or.inr rfl⟩
      cases result <;> simp [Outer.succeeded, buildResult]
  | _ => exact Or.inl ⟨rfl, rfl⟩

theorem finalState_ne_building (result : BuildResult) :
    finalState result ≠ .building := by
  cases result <;> simp [finalState]

/-- Whatever the parties do, in whatever order. -/
theorem buildTasks_lifecycle {task : BuildTask}
    (hreachable : buildTasks.Reachable task) : JobLifecycle task := by
  have hinv := taskInvariant_inductive.reachable hreachable
  obtain ⟨forwarded, hlog, hsub⟩ := hinv.log
  have hoffered : List.Sublist forwarded task.offered :=
    (List.sublist_append_left _ _).trans hsub
  have hbuild : ∀ event ∈ forwarded, event.isComplete = false :=
    fun event hevent => Event.isComplete_of_ofBuild
      (hinv.offered event (hoffered.subset hevent))
  have hfinishes := Transition.exists_final taskInvariant_inductive.step
    buildTasks_progresses task hinv
  have hfinished : task.isFinished → task.job.state ≠ .building := by
    rintro ⟨result, houter⟩
    rw [hinv.state, houter]
    exact finalState_ne_building _
  rcases completed_cases task.outer with ⟨hnone, hbuilding⟩ | ⟨final, hone,
    hsucceeded, hstate⟩
  · rw [hnone, List.append_nil] at hlog
    refine ⟨?_, ?_, ?_, hfinished, hfinishes⟩
    · intro _
      exact ⟨hinv.state.trans hbuilding, hlog ▸ hoffered⟩
    · intro result hmem
      rw [hlog] at hmem
      cases hbuild _ hmem
    · intro hleft
      exact absurd (hinv.state.trans hbuilding) hleft
  · rw [hone] at hlog
    have honly : ∀ result, .complete result ∈ task.job.eventLog →
        result = buildResult final := by
      intro result hmem
      rw [hlog, List.mem_append, List.mem_singleton] at hmem
      rcases hmem with hmem | hmem
      · cases hbuild _ hmem
      · exact Event.complete.inj hmem
    have hlast : .complete (buildResult final) ∈ task.job.eventLog := by
      rw [hlog]
      exact List.mem_append_right _ (List.mem_singleton.mpr rfl)
    refine ⟨?_, ?_, ?_, hfinished, hfinishes⟩
    · intro hnone
      cases hnone _ hlast
    · intro result hmem
      rw [honly result hmem]
      exact ⟨⟨forwarded, hlog, hbuild, hoffered⟩, hinv.result ▸ hsucceeded⟩
    · intro hleft
      refine ⟨buildResult final, hlast, ?_⟩
      rw [hinv.state] at hleft ⊢
      exact hstate.resolve_left hleft

/-- A build that prints a line and succeeds. -/
theorem buildTasks_lifecycle_demo :
    ∃ task, task.job.eventLog = [.build "Compiling app", .complete .ok] ∧
      task.job.state = .done ∧ JobLifecycle task :=
  ⟨_, rfl, rfl, buildTasks_lifecycle ⟨_, ⟨"job-1", "00", rfl⟩,
    (((((((((((Relation.ReflTransGen.refl.tail
      (TaskStep.openChannel rfl)).tail
      (TaskStep.materialized rfl)).tail
      (TaskStep.tryEmit (.build "Compiling app") (Or.inl rfl) rfl)).tail
      (TaskStep.buildReturns rfl)).tail
      (TaskStep.pack (.ok [0x1f, 0x8b]) rfl)).tail
      (TaskStep.receive rfl rfl)).tail
      (TaskStep.push rfl)).tail
      (TaskStep.stop rfl rfl rfl rfl)).tail
      (TaskStep.drained rfl rfl)).tail
      (TaskStep.complete rfl)).tail
      (TaskStep.mark rfl))⟩⟩

end Server

end Kettle
