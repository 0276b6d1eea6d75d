/-
The archives that the service gives out are those of its builds.  The steps of
a job's task do on its machine what `run_build` does, so that a client that
downloads an archive can verify it with the nonce of its request, whatever the
builds and the other clients do in between.
-/
import Kettle.Server.Service
import Kettle.Server.Source

namespace Kettle

namespace Server

open Commands

/-- The machine as a build sees it: the files when its work directory was
made, and as its own steps have left them.  Others write elsewhere. -/
structure Workspace where
  metadata : Metadata
  workDir : Path
  start : FileSystem
  files : FileSystem
  projectDir : Path

section Phases

variable (tools : SourceTools) (host : Host) (attester : Attester)

/-- What a step of the task does on the machine. -/
inductive PhaseStep (req : BuildRequest) :
    BuildTask → Option Workspace → BuildTask → Option Workspace → Prop
  | tempdir {before after : BuildTask} {old : Option Workspace}
      {space : Workspace} :
      before.outer = .started → after.outer = .materializing →
      space.files = space.start →
      PhaseStep req before old after (some space)
  | materialized {before after : BuildTask} {space : Workspace}
      {sourced : FileSystem} {projectDir : Path} :
      before.outer = .materializing → after.outer = .building →
      materializeSource tools req space.files space.workDir =
        .ok (sourced, projectDir) →
      PhaseStep req before (some space) after
        (some { space with files := sourced, projectDir := projectDir })
  | notMaterialized {before after : BuildTask} {space : Workspace}
      {error : String} :
      before.outer = .materializing →
      after.outer = .draining (.error error) →
      materializeSource tools req space.files space.workDir =
        .error error →
      PhaseStep req before (some space) after (some space)
  | buildReturns {before after : BuildTask} {space : Workspace}
      {built : FileSystem} :
      before.outer = .building → after.outer = .packing →
      buildProject host (some attester) space.metadata req.nonce space.files
        space.projectDir = .ok built →
      PhaseStep req before (some space) after
        (some { space with files := built })
  /-- It fails or panics, and nobody looks at what it leaves. -/
  | buildFails {before after : BuildTask} {space : Option Workspace}
      {error : String} :
      before.outer = .building → after.outer = .draining (.error error) →
      PhaseStep req before space after space
  | pack {before after : BuildTask} {space : Workspace} :
      before.outer = .packing →
      (after.job, after.outer) =
        (packed before.job (tarBuild tools space.files space.projectDir
          space.workDir req.sourceName)).map id Outer.draining →
      PhaseStep req before (some space) after (some space)
  | other {before after : BuildTask} {space : Option Workspace} :
      after.outer = before.outer ∨
        before.outer.holdsSink = false ∧ after.outer.holdsSink = false →
      PhaseStep req before space after space

/-- The service, with the request and the machine of each job. -/
structure Serving where
  service : Service
  requests : JobId → Option BuildRequest
  spaces : JobId → Option Workspace

inductive ServingStep : Serving → Serving → Prop
  | passGate {state : Serving} {jobId : JobId} {req : BuildRequest}
      {bytes : Bytes} :
      validateNonce host.hex req.nonce = .ok bytes →
      checkSource req = .ok () →
      state.service.gate = false →
      ServingStep state
        { state with
          service := { state.service with
            gate := true
            admitted := some (jobId, req.nonce) }
          requests := Function.update state.requests jobId (some req) }
  | register {state : Serving} {jobId : JobId} {nonce : String} :
      state.service.admitted = some (jobId, nonce) →
      ServingStep state
        { state with
          service := { state.service with
            admitted := none
            jobs := state.service.jobs.insert jobId
              (LiveJob.new jobId nonce) } }
  | job {state : Serving} {jobId : JobId} {req : BuildRequest}
      {before after : LiveJob} {space : Option Workspace} :
      state.service.jobs.get? jobId = some before →
      state.requests jobId = some req →
      LiveStep before after →
      PhaseStep tools host attester req before.task (state.spaces jobId)
        after.task space →
      ServingStep state
        { state with
          service := { state.service with
            jobs := state.service.jobs.insert jobId after }
          spaces := Function.update state.spaces jobId space }

def serving : Transition Serving where
  initial state := state = ⟨⟨false, none, .empty⟩, fun _ => none, fun _ => none⟩
  step := ServingStep tools host attester

/-- How far `run_build` is with a request. -/
structure BuiltSoFar (req : BuildRequest) (task : BuildTask)
    (space : Option Workspace) : Prop where
  opened : task.outer = .materializing →
    ∃ made, space = some made ∧ made.files = made.start
  sourced : task.outer = .building → ∃ made, space = some made ∧
    materializeSource tools req made.start made.workDir =
      .ok (made.files, made.projectDir)
  built : task.outer = .packing → ∃ made sourced, space = some made ∧
    materializeSource tools req made.start made.workDir =
      .ok (sourced, made.projectDir) ∧
    buildProject host (some attester) made.metadata req.nonce sourced
      made.projectDir = .ok made.files
  result : ∀ tarball, task.job.result = some tarball →
    ∃ made, space = some made ∧
      runBuild tools host (some attester) made.metadata req made.start
        made.workDir = .ok (made.files, tarball)

/-- The request of a job, which has been checked. -/
def RequestOf (state : Serving) (jobId : JobId) (nonce : String)
    (req : BuildRequest) : Prop :=
  state.requests jobId = some req ∧ req.nonce = nonce ∧
    ∃ bytes, validateNonce host.hex req.nonce = .ok bytes

structure ServingInvariant (state : Serving) : Prop where
  service : ServiceInvariant state.service
  admitted : ∀ jobId nonce, state.service.admitted = some (jobId, nonce) →
    ∃ req, RequestOf host state jobId nonce req
  jobs : ∀ jobId job, state.service.jobs.get? jobId = some job →
    ∃ req, RequestOf host state jobId job.task.job.nonce req ∧
      BuiltSoFar tools host attester req job.task (state.spaces jobId)

end Phases

section Steps

variable {tools : SourceTools} {host : Host} {attester : Attester}
  {req : BuildRequest} {before after : BuildTask}

theorem packed_nonce (job : ServerJob) (tarball : Except String Bytes) :
    (packed job tarball).1.nonce = job.nonce := by
  unfold packed ServerJob.setResult
  cases tarball with
  | error error => rfl
  | ok bytes => cases job.result <;> rfl

theorem markResult_nonce (job : ServerJob) (result : Except String Unit) :
    (markResult job result).nonce = job.nonce := by
  cases result <;> rfl

theorem TaskStep.nonce_kept (hstep : TaskStep before after) :
    after.job.nonce = before.job.nonce := by
  cases hstep with
  | pack tarball => exact packed_nonce _ _
  | mark => exact markResult_nonce _ _
  | _ => rfl

/-- Only packing sets the result. -/
theorem TaskStep.result_eq (hstep : TaskStep before after)
    (houter : before.outer ≠ .packing ∨ after.outer = before.outer) :
    after.job.result = before.job.result := by
  cases hstep with
  | pack tarball hpacking =>
      rcases houter with hne | hsame
      · exact absurd hpacking hne
      · rw [hpacking] at hsame
        cases hsame
  | mark => exact markResult_result _ _
  | _ => rfl

/-- A step of the job is one of its task, or leaves that as it is. -/
theorem LiveStep.task {job later : LiveJob} (hstep : LiveStep job later) :
    later.task = job.task ∨ TaskStep job.task later.task := by
  cases hstep with
  | run hrun => exact .inr hrun
  | log _ hrun => exact .inr hrun
  | events => exact .inl rfl

/-- Before the archive is packed, there is no result. -/
theorem result_eq_none (hinv : TaskInvariant before)
    (houter : before.outer.succeeded = false) :
    before.job.result = none := by
  have hresult := hinv.result
  rwa [houter, Option.isSome_eq_false_iff, Option.isNone_iff_eq_none]
    at hresult

/-- What is packed is the archive of the build. -/
theorem packed_result {job : ServerJob} {tarball : Except String Bytes}
    {bytes : Bytes} (hnone : job.result = none)
    (hresult : (packed job tarball).1.result = some bytes) :
    tarball = .ok bytes := by
  unfold packed ServerJob.setResult at hresult
  cases tarball with
  | error error =>
      rw [hnone] at hresult
      cases hresult
  | ok found =>
      simp only [hnone] at hresult
      rw [Option.some.inj hresult]

/-- What has been done by the phase that a task is in. -/
theorem BuiltSoFar.of_outer {outer : Outer} {space : Option Workspace}
    (houter : after.outer = outer)
    (hopened : outer = .materializing →
      ∃ made, space = some made ∧ made.files = made.start)
    (hsourced : outer = .building → ∃ made, space = some made ∧
      materializeSource tools req made.start made.workDir =
        .ok (made.files, made.projectDir))
    (hbuilt : outer = .packing → ∃ made sourced, space = some made ∧
      materializeSource tools req made.start made.workDir =
        .ok (sourced, made.projectDir) ∧
      buildProject host (some attester) made.metadata req.nonce sourced
        made.projectDir = .ok made.files)
    (hresult : ∀ tarball, after.job.result = some tarball →
      ∃ made, space = some made ∧
        runBuild tools host (some attester) made.metadata req made.start
          made.workDir = .ok (made.files, tarball)) :
    BuiltSoFar tools host attester req after space := by
  subst houter
  exact ⟨hopened, hsourced, hbuilt, hresult⟩

/-- A task that has come to another phase than those of the build has only its
result to show. -/
theorem BuiltSoFar.of_result {space : Option Workspace}
    (hsink : after.outer.holdsSink = false)
    (hresult : ∀ tarball, after.job.result = some tarball →
      ∃ made, space = some made ∧
        runBuild tools host (some attester) made.metadata req made.start
          made.workDir = .ok (made.files, tarball)) :
    BuiltSoFar tools host attester req after space := by
  refine ⟨fun houter => ?_, fun houter => ?_, fun houter => ?_, hresult⟩
  · rw [houter] at hsink
    cases hsink
  · rw [houter] at hsink
    cases hsink
  · rw [houter] at hsink
    cases hsink

/-- The phases do, one after the other, what `run_build` does. -/
theorem BuiltSoFar.step {space later : Option Workspace}
    (hinv : TaskInvariant before)
    (hstep : after = before ∨ TaskStep before after)
    (hphase : PhaseStep tools host attester req before space after later)
    (hbuilt : BuiltSoFar tools host attester req before space) :
    BuiltSoFar tools host attester req after later := by
  have hkept : before.outer ≠ .packing ∨ after.outer = before.outer →
      after.job.result = before.job.result := by
    intro houter
    rcases hstep with rfl | hstep
    · rfl
    · exact hstep.result_eq houter
  -- no phase before the last one has a result
  have hnone : before.outer ≠ .packing → before.outer.succeeded = false →
      ∀ {tarball : Bytes} {p : Prop}, after.job.result = some tarball → p := by
    intro houter hsucceeded tarball p hresult
    rw [hkept (.inl houter), result_eq_none hinv hsucceeded] at hresult
    cases hresult
  cases hphase with
  | tempdir hbefore hafter hfresh =>
      exact .of_outer hafter (fun _ => ⟨_, rfl, hfresh⟩) (by simp) (by simp)
        fun tarball hresult =>
          hnone (by simp [hbefore]) (by rw [hbefore]; rfl) hresult
  | materialized hbefore hafter hsource =>
      obtain ⟨made, hmade, hfresh⟩ := hbuilt.opened hbefore
      cases hmade
      rw [hfresh] at hsource
      exact .of_outer hafter (by simp) (fun _ => ⟨_, rfl, hsource⟩) (by simp)
        fun tarball hresult =>
          hnone (by simp [hbefore]) (by rw [hbefore]; rfl) hresult
  | notMaterialized hbefore hafter =>
      exact .of_result (by rw [hafter]; rfl) fun tarball hresult =>
        hnone (by simp [hbefore]) (by rw [hbefore]; rfl) hresult
  | buildReturns hbefore hafter hproject =>
      obtain ⟨made, hmade, hsource⟩ := hbuilt.sourced hbefore
      cases hmade
      exact .of_outer hafter (by simp) (by simp)
        (fun _ => ⟨_, _, rfl, hsource, hproject⟩)
        fun tarball hresult =>
          hnone (by simp [hbefore]) (by rw [hbefore]; rfl) hresult
  | buildFails hbefore hafter =>
      exact .of_result (by rw [hafter]; rfl) fun tarball hresult =>
        hnone (by simp [hbefore]) (by rw [hbefore]; rfl) hresult
  | pack hbefore hafter =>
      obtain ⟨made, sourced, hmade, hsource, hproject⟩ := hbuilt.built hbefore
      cases hmade
      obtain ⟨hjob, houter⟩ := Prod.mk.inj hafter
      refine .of_result (by rw [houter]; rfl) fun tarball hresult => ?_
      have hempty := result_eq_none hinv (by rw [hbefore]; rfl)
      have hjob : after.job = _ := hjob
      rw [hjob] at hresult
      have htar := packed_result hempty hresult
      refine ⟨_, rfl, ?_⟩
      unfold runBuild
      rw [hsource, ok_bind]
      dsimp only
      rw [hproject, ok_bind, htar, ok_bind]
  | other houter =>
      rcases houter with hsame | ⟨hbefore, hafter⟩
      · have hresult := hkept (.inr hsame)
        refine ⟨?_, ?_, ?_, ?_⟩
        · rw [hsame]
          exact hbuilt.opened
        · rw [hsame]
          exact hbuilt.sourced
        · rw [hsame]
          exact hbuilt.built
        · rw [hresult]
          exact hbuilt.result
      · have hne : before.outer ≠ .packing := by
          intro hpacking
          rw [hpacking] at hbefore
          cases hbefore
        refine .of_result hafter ?_
        rw [hkept (.inl hne)]
        exact hbuilt.result

/-- With its requests and machines left out, the service is the one before. -/
theorem serving_refines (inv : Serving → Prop) :
    (serving tools host attester).Refines services Serving.service inv where
  initial := by
    rintro _ rfl
    rfl
  step := by
    rintro before after - hstep
    cases hstep with
    | passGate _ _ hgate => exact .inr (.passGate _ _ hgate)
    | register hadmitted => exact .inr (.register hadmitted)
    | job hjob _ hlive => exact .inr (.job hjob hlive)

/-- A request that is let in has been checked. -/
theorem ServingInvariant.admitted_step {state later : Serving}
    (hinv : ServingInvariant tools host attester state)
    (hstep : ServingStep tools host attester state later) {jobId : JobId}
    {nonce : String}
    (hadmitted : later.service.admitted = some (jobId, nonce)) :
    ∃ req, RequestOf host later jobId nonce req := by
  cases hstep with
  | passGate hnonce =>
      cases hadmitted
      exact ⟨_, Function.update_self .., rfl, _, hnonce⟩
  | register => cases hadmitted
  | job => exact hinv.admitted jobId nonce hadmitted

/-- A step of one job leaves the others as far as they are. -/
theorem ServingInvariant.jobs_step {state later : Serving}
    (hinv : ServingInvariant tools host attester state)
    (hstep : ServingStep tools host attester state later) {jobId : JobId}
    {job : LiveJob} (hjob : later.service.jobs.get? jobId = some job) :
    ∃ req, RequestOf host later jobId job.task.job.nonce req ∧
      BuiltSoFar tools host attester req job.task (later.spaces jobId) := by
  cases hstep with
  | passGate _ _ hgate =>
      rw [hinv.service.registers (.inl hgate)] at hjob
      cases hjob
  | register hadmitted =>
      rw [AssocMap.get?_insert] at hjob
      split at hjob
      · rename_i hsame
        subst hsame
        cases hjob
        obtain ⟨req, hreq⟩ := hinv.admitted _ _ hadmitted
        refine ⟨req, hreq, .of_result rfl fun tarball hresult => ?_⟩
        cases hresult
      · exact hinv.jobs jobId job hjob
  | job hbefore hreq hlive hphase =>
      rw [AssocMap.get?_insert] at hjob
      split at hjob
      · rename_i hsame
        subst hsame
        cases hjob
        obtain ⟨req, ⟨hfound, hnonce, hvalid⟩, hbuilt⟩ :=
          hinv.jobs _ _ hbefore
        cases hfound.symm.trans hreq
        have htask := (hinv.service.live hbefore).1.task
        refine ⟨_, ⟨hreq, ?_, hvalid⟩, ?_⟩
        · rcases hlive.task with hsame | hstep
          · rw [hsame, hnonce]
          · rw [hstep.nonce_kept, hnonce]
        · dsimp only
          rw [Function.update_self]
          exact hbuilt.step htask hlive.task hphase
      · rename_i hother
        dsimp only
        rw [Function.update_of_ne (Ne.symm hother)]
        exact hinv.jobs jobId job hjob

theorem servingInvariant_inductive :
    (serving tools host attester).Inductive
      (ServingInvariant tools host attester) where
  initial := by
    rintro _ rfl
    refine ⟨serviceInvariant_inductive.initial _ rfl, ?_, ?_⟩
    · intro jobId nonce hadmitted
      cases hadmitted
    · intro jobId job hjob
      cases hjob
  step before after hinv hstep := by
    have hservice := ((serving_refines _).pullback
      serviceInvariant_inductive).step before after hinv.service hstep
    exact ⟨hservice, fun _ _ => hinv.admitted_step hstep,
      fun _ _ => hinv.jobs_step hstep⟩

/-- What is answered is a result. -/
theorem result_of_getResult {service : Service} {jobId : JobId} {opens : Bool}
    {response : Response}
    (hok : getResult opens service jobId = .ok response) :
    ∃ job, service.jobs.get? jobId = some job ∧
      job.task.job.result = some response.body := by
  unfold getResult at hok
  cases hjob : service.jobs.get? jobId with
  | none =>
      rw [hjob] at hok
      cases hok
  | some job =>
      cases hresult : job.task.job.result with
      | none =>
          simp only [hjob, hresult] at hok
          cases hok
      | some tarball =>
          simp only [hjob, hresult] at hok
          cases opens with
          | false => cases hok
          | true =>
              cases hok
              exact ⟨job, rfl, hresult⟩

theorem validateNonce_length {hex : Hex} {text : String} {bytes : Bytes}
    (hok : validateNonce hex text = .ok bytes) : bytes.length = 16 := by
  unfold validateNonce at hok
  split at hok
  · cases hok
  · split at hok
    · cases hok
    · rename_i hlength
      cases hok
      exact not_not.mp hlength

end Steps

section Downloads

variable {v : Verify.Verifier} {tools : SourceTools} {host : Host}
  {attester : Attester}

/-- From the request to the verdict.  In every run of the service, what is
downloaded for a job is the archive of a build of the job's own request, and it
is verified with the nonce of that request wherever it is unpacked. -/
theorem downloads_verify {launchDigest : String}
    (hagrees : Toolchain.Agrees v host)
    (hgenuine : Genuine v host attester launchDigest)
    (hreject : RejectsDash host.hex) (htools : tools.KeepTrees)
    {state : Serving}
    (hreachable : (serving tools host attester).Reachable state)
    {jobId : JobId} {opens : Bool} {response : Response}
    (hanswer : getResult opens state.service jobId = .ok response) :
    ∃ (job : LiveJob) (req : BuildRequest) (space : Workspace)
        (nonce : ByteVec 16),
      state.service.jobs.get? jobId = some job ∧
      state.requests jobId = some req ∧ req.nonce = job.task.job.nonce ∧
      validateNonce host.hex req.nonce = .ok nonce.toList ∧
      state.spaces jobId = some space ∧
      runBuild tools host (some attester) space.metadata req space.start
        space.workDir = .ok (space.files, response.body) ∧
      Served v tools host space.metadata req space.start space.workDir nonce
        space.files response.body := by
  obtain ⟨job, hjob, hresult⟩ := result_of_getResult hanswer
  obtain ⟨req, ⟨hreq, hnonce, bytes, hvalid⟩, hbuilt⟩ :=
    (servingInvariant_inductive.reachable hreachable).jobs jobId job hjob
  obtain ⟨space, hspace, hrun⟩ := hbuilt.result _ hresult
  obtain ⟨nonce, rfl⟩ : ∃ nonce : ByteVec 16, nonce.toList = bytes :=
    ⟨⟨bytes, validateNonce_length hvalid⟩, rfl⟩
  exact ⟨job, req, space, nonce, hjob, hreq, hnonce, hvalid, hspace, hrun,
    runBuild_served hagrees hgenuine hreject hvalid htools hrun⟩

end Downloads

section Demo

variable {tools : SourceTools} {host : Host} {attester : Attester}
  {req : BuildRequest} {jobId : JobId} {before after : LiveJob}

/-- A job in a state of the service that is reached. -/
def ServesJob (tools : SourceTools) (host : Host) (attester : Attester)
    (jobId : JobId) (req : BuildRequest) (job : LiveJob)
    (space : Option Workspace) (state : Serving) : Prop :=
  (serving tools host attester).Reachable state ∧
    state.service.jobs.get? jobId = some job ∧
    state.requests jobId = some req ∧ state.spaces jobId = space

theorem ServesJob.step {space later : Option Workspace} {state : Serving}
    (hserves : ServesJob tools host attester jobId req before space state)
    (hlive : LiveStep before after)
    (hphase : PhaseStep tools host attester req before.task space after.task
      later) :
    ∃ next, ServesJob tools host attester jobId req after later next := by
  obtain ⟨hreachable, hjob, hreq, rfl⟩ := hserves
  exact ⟨_, hreachable.trans (Relation.ReflTransGen.single
    (ServingStep.job hjob hreq hlive hphase)),
    (AssocMap.get?_insert ..).trans (if_pos rfl), hreq,
    Function.update_self ..⟩

/-- The service when the request of a client is answered. -/
theorem servesJob_registered (tools : SourceTools) (attester : Attester)
    (jobId : JobId) {bytes : Bytes}
    (hnonce : validateNonce host.hex req.nonce = .ok bytes)
    (hsource : checkSource req = .ok ()) :
    ∃ state, ServesJob tools host attester jobId req
      (LiveJob.new jobId req.nonce) none state := by
  have hpassed : (serving tools host attester).step
      ⟨⟨false, none, .empty⟩, fun _ => none, fun _ => none⟩ _ :=
    @ServingStep.passGate tools host attester _ jobId _ _ hnonce hsource rfl
  exact ⟨_, ⟨_, rfl, (Relation.ReflTransGen.single hpassed).tail
    (ServingStep.register rfl)⟩, (AssocMap.get?_insert ..).trans (if_pos rfl),
    Function.update_self .., rfl⟩

/-- The demo project is uploaded, built and packed. -/
theorem servesJob_archived {final : FileSystem}
    (hbuilt : buildProject Toolchain.demoHost (some demoAttester)
      Toolchain.demoMetadata demoUpload.nonce Toolchain.demoFiles ["app"] =
        .ok final)
    (hdir : final.isDir (Toolchain.outputDir ["app"]) = true) :
    ∃ state job space, ServesJob (demoTools final) Toolchain.demoHost
        demoAttester "job-1" demoUpload job space state ∧
      job.task.job.result = some gzipMagic := by
  have hsource : checkSource demoUpload = .ok () := rfl
  obtain ⟨first, hfirst⟩ := servesJob_registered (demoTools final)
    demoAttester "job-1" validateNonce_demo hsource
  let space : Workspace :=
    ⟨Toolchain.demoMetadata, ["app"], demoWorkFiles, demoWorkFiles, []⟩
  have hspace : space.files = space.start := rfl
  obtain ⟨second, hsecond⟩ := hfirst.step
    (.run (.openChannel rfl) rfl fun hpushing => absurd rfl hpushing)
    (.tempdir rfl rfl hspace)
  obtain ⟨third, hthird⟩ := hsecond.step
    (.run (.materialized rfl) rfl fun hpushing => absurd rfl hpushing)
    (.materialized rfl rfl (materializeSource_demo final))
  obtain ⟨fourth, hfourth⟩ := hthird.step
    (.run (.buildReturns rfl) rfl fun hpushing => absurd rfl hpushing)
    (.buildReturns rfl rfl hbuilt)
  have htar := tarBuild_demo hdir
  obtain ⟨last, hlast⟩ := hfourth.step
    (.run (.pack (.ok gzipMagic) rfl) rfl fun hpushing => absurd rfl hpushing)
    (.pack rfl (by dsimp only; rw [htar]; rfl))
  exact ⟨last, _, _, hlast, rfl⟩

theorem downloads_verify_demo :
    ∃ final state response,
      (serving (demoTools final) Toolchain.demoHost demoAttester).Reachable
        state ∧
      getResult true state.service "job-1" = .ok response ∧
      ∃ (job : LiveJob) (req : BuildRequest) (space : Workspace)
          (nonce : ByteVec 16),
        state.service.jobs.get? "job-1" = some job ∧
        state.requests "job-1" = some req ∧ req.nonce = job.task.job.nonce ∧
        validateNonce Toolchain.demoHost.hex req.nonce = .ok nonce.toList ∧
        state.spaces "job-1" = some space ∧
        runBuild (demoTools final) Toolchain.demoHost (some demoAttester)
          space.metadata req space.start space.workDir =
            .ok (space.files, response.body) ∧
        Served readingBack (demoTools final) Toolchain.demoHost
          space.metadata req space.start space.workDir nonce space.files
          response.body := by
  obtain ⟨final, hbuilt, hdir⟩ := buildProject_demo
  obtain ⟨state, job, space, ⟨hreachable, hjob, -⟩, hresult⟩ :=
    servesJob_archived hbuilt hdir
  have hanswer : getResult true state.service "job-1" =
      .ok ⟨200, "application/gzip", gzipMagic⟩ := by
    rw [getResult_eq true hjob, hresult]
    rfl
  exact ⟨final, state, _, hreachable, hanswer, downloads_verify
    agrees_readingBack genuine_readingBack lowerHex_rejectsDash
    (demoTools_keepTrees final) hreachable hanswer⟩

end Demo

end Server

end Kettle
