/-
Any number of `POST /build` requests at once.  Their steps interleave; the
swap of the gate decides between them.
-/
import Kettle.Lib.Transition
import Kettle.Server.Api
import Mathlib.Algebra.BigOperators.Group.List.Basic

namespace Kettle

namespace Server

/-- How far a request has come. -/
inductive Phase where
  | received
  | nonceChecked
  | sourceChecked
  | admitted
  | registered (jobId : JobId)
  | answered (jobId : JobId)
  | rejected (rejection : Rejection)
deriving DecidableEq, Repr

structure Client where
  req : BuildRequest
  phase : Phase
deriving DecidableEq, Repr

def Client.isAnswered (client : Client) : Bool :=
  match client.phase with
  | .answered _ | .rejected _ => true
  | _ => false

/-- The next step of `post_build`. -/
def advance (hex : Hex) (newId : JobId) (app : AppState) (client : Client) :
    AppState × Phase :=
  match client.phase with
  | .received =>
      match validateNonce hex client.req.nonce with
      | .error rejection => (app, .rejected rejection)
      | .ok _ => (app, .nonceChecked)
  | .nonceChecked =>
      match checkSource client.req with
      | .error rejection => (app, .rejected rejection)
      | .ok _ => (app, .sourceChecked)
  | .sourceChecked =>
      let (taken, registry) := app.registry.swapGate
      if taken then ({ app with registry := registry }, .rejected conflict)
      else ({ app with registry := registry }, .admitted)
  | .admitted =>
      ({ app with registry :=
          app.registry.insertJob newId client.req.nonce }, .registered newId)
  | .registered jobId => (app.spawn jobId client.req, .answered jobId)
  | .answered jobId => (app, .answered jobId)
  | .rejected rejection => (app, .rejected rejection)

structure Clients where
  app : AppState
  clients : List Client

/-- One request takes one step. -/
inductive ClientStep (hex : Hex) : Clients → Clients → Prop
  | request (newId : JobId) {app : AppState} {before after : List Client}
      {client : Client} :
      client.isAnswered = false →
      ClientStep hex ⟨app, before ++ client :: after⟩
        ⟨(advance hex newId app client).1,
          before ++ ⟨client.req, (advance hex newId app client).2⟩ :: after⟩

def postBuilds (hex : Hex) (reqs : List BuildRequest) :
    Transition Clients where
  initial world := world = ⟨.new, reqs.map fun req => ⟨req, .received⟩⟩
  step := ClientStep hex

/-- The nonce is the hex of 16 bytes, and there is a source. -/
def ValidRequest (hex : Hex) (req : BuildRequest) : Prop :=
  (∃ bytes, validateNonce hex req.nonce = .ok bytes) ∧
    checkSource req = .ok ()

/-- A request on its own, from one step to the next. -/
def advances (hex : Hex) (newId : JobId) :
    Nat → AppState × Client → AppState × Client
  | 0, state => state
  | count + 1, (app, client) =>
      advances hex newId count ((advance hex newId app client).1,
        ⟨client.req, (advance hex newId app client).2⟩)

def answerPhase : Except Rejection JobId → Phase
  | .ok jobId => .answered jobId
  | .error rejection => .rejected rejection

/-- Without others, the steps of a request are `post_build`. -/
theorem advances_eq_postBuild (hex : Hex) (newId : JobId) (app : AppState)
    (req : BuildRequest) :
    advances hex newId 5 (app, ⟨req, .received⟩) =
      ((postBuild hex newId app req).2,
        ⟨req, answerPhase (postBuild hex newId app req).1⟩) := by
  unfold postBuild
  cases hnonce : validateNonce hex req.nonce with
  | error rejection => simp [advances, advance, hnonce, answerPhase]
  | ok bytes =>
      cases hsource : checkSource req with
      | error rejection =>
          simp [advances, advance, hnonce, hsource, answerPhase]
      | ok _ =>
          cases hgate : app.registry.gate with
          | true =>
              simp [advances, advance, hnonce, hsource, answerPhase,
                tryRegisterWithNonce, JobRegistry.swapGate, hgate]
          | false =>
              simp [advances, advance, hnonce, hsource, answerPhase,
                tryRegisterWithNonce, JobRegistry.swapGate, hgate]

/-- What a phase says about the request. -/
def PhaseFits (hex : Hex) (client : Client) : Prop :=
  match client.phase with
  | .received => True
  | .nonceChecked => ∃ bytes, validateNonce hex client.req.nonce = .ok bytes
  | .rejected rejection =>
      if rejection = conflict then ValidRequest hex client.req
      else rejection.status = 400 ∧ ¬ ValidRequest hex client.req
  | _ => ValidRequest hex client.req

/-- The request has swapped the gate first. -/
def Client.won (client : Client) : Bool :=
  match client.phase with
  | .admitted | .registered _ | .answered _ => true
  | _ => false

/-- The registry and the runner as the winner has left them. -/
def LeftBy (app : AppState) (client : Client) : Prop :=
  match client.phase with
  | .registered jobId =>
      app = ⟨⟨true, AssocMap.empty.insert jobId
        (ServerJob.new jobId client.req.nonce)⟩, []⟩
  | .answered jobId =>
      app = ⟨⟨true, AssocMap.empty.insert jobId
        (ServerJob.new jobId client.req.nonce)⟩,
        [⟨jobId, client.req, some (ServerJob.new jobId client.req.nonce)⟩]⟩
  | _ => app = ⟨⟨true, .empty⟩, []⟩

structure GateInvariant (hex : Hex) (reqs : List BuildRequest)
    (world : Clients) : Prop where
  requests : world.clients.map (·.req) = reqs
  fits : ∀ client ∈ world.clients, PhaseFits hex client
  /-- The gate is taken by one request, or by none. -/
  winners : world.clients.countP Client.won =
    if world.app.registry.gate then 1 else 0
  conflicts : ∀ client ∈ world.clients, client.phase = .rejected conflict →
    world.app.registry.gate = true
  open_new : world.app.registry.gate = false → world.app = .new
  left : ∀ client ∈ world.clients, client.won = true →
    LeftBy world.app client

theorem validateNonce_error_status {hex : Hex} {nonce : String}
    {rejection : Rejection}
    (herror : validateNonce hex nonce = .error rejection) :
    rejection.status = 400 := by
  unfold validateNonce at herror
  split at herror
  · cases herror
    rfl
  · split at herror
    · cases herror
      rfl
    · cases herror

theorem checkSource_error_status {req : BuildRequest} {rejection : Rejection}
    (herror : checkSource req = .error rejection) :
    rejection.status = 400 := by
  unfold checkSource at herror
  split at herror
  · cases herror
    rfl
  · cases herror

theorem ne_conflict_of_status {rejection : Rejection}
    (hstatus : rejection.status = 400) : rejection ≠ conflict := by
  rintro rfl
  exact absurd hstatus (by decide)

/-- A request that its checks reject. -/
theorem phaseFits_rejected {hex : Hex} {req : BuildRequest}
    {rejection : Rejection} (hstatus : rejection.status = 400)
    (hinvalid : ¬ ValidRequest hex req) :
    PhaseFits hex ⟨req, .rejected rejection⟩ := by
  simp only [PhaseFits]
  rw [if_neg (ne_conflict_of_status hstatus)]
  exact ⟨hstatus, hinvalid⟩

/-- The step leaves gate and registry alone. -/
structure Idles (hex : Hex) (app : AppState) (client : Client)
    (result : AppState × Phase) : Prop where
  app_eq : result.1 = app
  not_won : client.won = false
  still_not_won : Client.won ⟨client.req, result.2⟩ = false
  fits : PhaseFits hex ⟨client.req, result.2⟩
  conflict_gate : result.2 = .rejected conflict →
    app.registry.gate = true

/-- The step takes the gate. -/
structure Wins (hex : Hex) (app : AppState) (client : Client)
    (result : AppState × Phase) : Prop where
  free : app.registry.gate = false
  not_won : client.won = false
  valid : ValidRequest hex client.req
  app_eq : result.1 = { app with registry := { app.registry with gate := true } }
  phase_eq : result.2 = .admitted

/-- The step is one of the request that has the gate. -/
structure GoesOn (hex : Hex) (app : AppState) (client : Client)
    (result : AppState × Phase) : Prop where
  won : client.won = true
  still_won : Client.won ⟨client.req, result.2⟩ = true
  fits : PhaseFits hex ⟨client.req, result.2⟩
  gate_eq : result.1.registry.gate = app.registry.gate
  left : LeftBy app client → LeftBy result.1 ⟨client.req, result.2⟩

theorem not_valid_of_nonce {hex : Hex} {req : BuildRequest}
    {rejection : Rejection}
    (herror : validateNonce hex req.nonce = .error rejection) :
    ¬ ValidRequest hex req := by
  rintro ⟨⟨bytes, hbytes⟩, -⟩
  rw [herror] at hbytes
  cases hbytes

theorem not_valid_of_source {hex : Hex} {req : BuildRequest}
    {rejection : Rejection} (herror : checkSource req = .error rejection) :
    ¬ ValidRequest hex req := by
  rintro ⟨-, hok⟩
  rw [herror] at hok
  cases hok

/-- A check that fails. -/
theorem Idles.rejected {hex : Hex} {app : AppState} {client : Client}
    {rejection : Rejection} (hnot : client.won = false)
    (hstatus : rejection.status = 400)
    (hinvalid : ¬ ValidRequest hex client.req) :
    Idles hex app client (app, .rejected rejection) := by
  refine ⟨rfl, hnot, rfl, phaseFits_rejected hstatus hinvalid, ?_⟩
  intro hphase
  exact absurd (Phase.rejected.inj hphase) (ne_conflict_of_status hstatus)

theorem advance_received {hex : Hex} (newId : JobId) (app : AppState)
    (req : BuildRequest) :
    Idles hex app ⟨req, .received⟩
      (advance hex newId app ⟨req, .received⟩) := by
  cases hnonce : validateNonce hex req.nonce with
  | error rejection =>
      simp only [advance, hnonce]
      exact .rejected rfl (validateNonce_error_status hnonce)
        (not_valid_of_nonce hnonce)
  | ok bytes =>
      simp only [advance, hnonce]
      refine ⟨rfl, rfl, rfl, ⟨bytes, hnonce⟩, ?_⟩
      intro hphase
      cases hphase

theorem advance_nonceChecked {hex : Hex} (newId : JobId) (app : AppState)
    {req : BuildRequest} (hfits : PhaseFits hex ⟨req, .nonceChecked⟩) :
    Idles hex app ⟨req, .nonceChecked⟩
      (advance hex newId app ⟨req, .nonceChecked⟩) := by
  cases hsource : checkSource req with
  | error rejection =>
      simp only [advance, hsource]
      exact .rejected rfl (checkSource_error_status hsource)
        (not_valid_of_source hsource)
  | ok _ =>
      simp only [advance, hsource]
      refine ⟨rfl, rfl, rfl, ⟨hfits, hsource⟩, ?_⟩
      intro hphase
      cases hphase

/-- The request that finds the gate open takes it. -/
theorem advance_sourceChecked {hex : Hex} (newId : JobId) (app : AppState)
    {req : BuildRequest} (hfits : PhaseFits hex ⟨req, .sourceChecked⟩) :
    Idles hex app ⟨req, .sourceChecked⟩
        (advance hex newId app ⟨req, .sourceChecked⟩) ∨
      Wins hex app ⟨req, .sourceChecked⟩
        (advance hex newId app ⟨req, .sourceChecked⟩) := by
  cases hgate : app.registry.gate with
  | true =>
      left
      have hsame : (⟨⟨true, app.registry.inner⟩, app.spawned⟩ : AppState) =
          app := by
        rw [← hgate]
      simp only [advance, JobRegistry.swapGate, hgate, if_true, hsame]
      refine ⟨rfl, rfl, rfl, ?_, fun _ => hgate⟩
      simp only [PhaseFits, if_true]
      exact hfits
  | false =>
      right
      simp only [advance, JobRegistry.swapGate, hgate,
        Bool.false_eq_true, if_false]
      exact ⟨hgate, rfl, hfits, rfl, rfl⟩

theorem advance_cases {hex : Hex} (newId : JobId) (app : AppState)
    {client : Client} (hpending : client.isAnswered = false)
    (hfits : PhaseFits hex client) :
    Idles hex app client (advance hex newId app client) ∨
      Wins hex app client (advance hex newId app client) ∨
      GoesOn hex app client (advance hex newId app client) := by
  obtain ⟨req, phase⟩ := client
  cases phase with
  | received => exact .inl (advance_received newId app req)
  | nonceChecked => exact .inl (advance_nonceChecked newId app hfits)
  | sourceChecked =>
      rcases advance_sourceChecked newId app hfits with hidles | hwins
      · exact .inl hidles
      · exact .inr (.inl hwins)
  | admitted =>
      right
      right
      refine ⟨rfl, rfl, hfits, rfl, ?_⟩
      rintro rfl
      rfl
  | registered jobId =>
      right
      right
      refine ⟨rfl, rfl, hfits, rfl, ?_⟩
      rintro rfl
      simp [LeftBy, advance, AppState.spawn, JobRegistry.get]
  | answered jobId => cases hpending
  | rejected rejection => cases hpending

theorem forall_mem_split {before after : List Client} {client : Client}
    {p : Client → Prop} :
    (∀ other ∈ before ++ client :: after, p other) ↔
      p client ∧ ∀ other ∈ before ++ after, p other := by
  simp only [List.forall_mem_append, List.forall_mem_cons]
  tauto

/-- When a request has won, no other one has. -/
theorem others_not_won {before after : List Client} {client : Client}
    {count : Nat}
    (hwinners : (before ++ client :: after).countP Client.won = count)
    (hcount : (if client.won then 1 else 0) = count) :
    ∀ other ∈ before ++ after, other.won = false := by
  rw [List.countP_append, List.countP_cons] at hwinners
  have hnone : (before ++ after).countP Client.won = 0 := by
    rw [List.countP_append]
    omega
  intro other hother
  simpa using List.countP_eq_zero.mp hnone other hother

section GateSteps

variable {hex : Hex} {reqs : List BuildRequest} {app : AppState}
variable {before after : List Client} {client : Client}
variable {result : AppState × Phase}

theorem GateInvariant.idles
    (hinv : GateInvariant hex reqs ⟨app, before ++ client :: after⟩)
    (hidle : Idles hex app client result) :
    GateInvariant hex reqs
      ⟨result.1, before ++ ⟨client.req, result.2⟩ :: after⟩ := by
  have hcount := hinv.winners
  simp only [List.countP_append, List.countP_cons, hidle.not_won] at hcount
  refine ⟨?_, ?_, ?_, ?_, ?_, ?_⟩
  · simpa using hinv.requests
  · exact forall_mem_split.mpr
      ⟨hidle.fits, (forall_mem_split.mp hinv.fits).2⟩
  · simp only [List.countP_append, List.countP_cons, hidle.still_not_won,
      hidle.app_eq]
    exact hcount
  · simp only [hidle.app_eq]
    exact forall_mem_split.mpr
      ⟨hidle.conflict_gate, (forall_mem_split.mp hinv.conflicts).2⟩
  · simp only [hidle.app_eq]
    exact hinv.open_new
  · simp only [hidle.app_eq]
    refine forall_mem_split.mpr ⟨?_, (forall_mem_split.mp hinv.left).2⟩
    intro hwon
    rw [hidle.still_not_won] at hwon
    cases hwon

theorem GateInvariant.wins
    (hinv : GateInvariant hex reqs ⟨app, before ++ client :: after⟩)
    (hwin : Wins hex app client result) :
    GateInvariant hex reqs
      ⟨result.1, before ++ ⟨client.req, result.2⟩ :: after⟩ := by
  have hothers := others_not_won hinv.winners
    (by simp [hwin.not_won, hwin.free])
  have hcount := hinv.winners
  simp only [List.countP_append, List.countP_cons, hwin.not_won, hwin.free,
    Bool.false_eq_true, if_false] at hcount
  have hadmitted : Client.won ⟨client.req, .admitted⟩ = true := rfl
  refine ⟨?_, ?_, ?_, ?_, ?_, ?_⟩
  · simpa using hinv.requests
  · refine forall_mem_split.mpr ⟨?_, (forall_mem_split.mp hinv.fits).2⟩
    rw [hwin.phase_eq]
    exact hwin.valid
  · simp only [List.countP_append, List.countP_cons, hwin.phase_eq,
      hwin.app_eq, hadmitted, if_true]
    omega
  · intro other _ _
    simp only [hwin.app_eq]
  · intro hclosed
    simp only [hwin.app_eq] at hclosed
    cases hclosed
  · refine forall_mem_split.mpr ⟨?_, ?_⟩
    · intro _
      have hnew : app = .new := hinv.open_new hwin.free
      rw [hwin.phase_eq, hwin.app_eq, hnew]
      rfl
    · intro other hother hwon
      rw [hothers other hother] at hwon
      cases hwon

theorem GateInvariant.goesOn
    (hinv : GateInvariant hex reqs ⟨app, before ++ client :: after⟩)
    (hon : GoesOn hex app client result) :
    GateInvariant hex reqs
      ⟨result.1, before ++ ⟨client.req, result.2⟩ :: after⟩ := by
  have hcount := hinv.winners
  simp only [List.countP_append, List.countP_cons, hon.won, if_true]
    at hcount
  have htaken : app.registry.gate = true := by
    by_contra hfree
    rw [Bool.not_eq_true] at hfree
    simp [hfree] at hcount
  have hothers := others_not_won hinv.winners (by simp [hon.won, htaken])
  refine ⟨?_, ?_, ?_, ?_, ?_, ?_⟩
  · simpa using hinv.requests
  · exact forall_mem_split.mpr ⟨hon.fits, (forall_mem_split.mp hinv.fits).2⟩
  · simp only [List.countP_append, List.countP_cons, hon.still_won,
      hon.gate_eq, if_true]
    exact hcount
  · intro other _ _
    simp only [hon.gate_eq, htaken]
  · intro hclosed
    simp only [hon.gate_eq, htaken] at hclosed
    cases hclosed
  · obtain ⟨hown, -⟩ := forall_mem_split.mp hinv.left
    refine forall_mem_split.mpr ⟨fun _ => hon.left (hown hon.won), ?_⟩
    intro other hother hwon
    rw [hothers other hother] at hwon
    cases hwon

end GateSteps

/-- Each step keeps the gate with one request. -/
theorem gateInvariant_step {hex : Hex} {reqs : List BuildRequest}
    {world next : Clients} (hinv : GateInvariant hex reqs world)
    (hstep : ClientStep hex world next) : GateInvariant hex reqs next := by
  obtain ⟨newId, hpending⟩ := hstep
  rename_i app before after client
  obtain ⟨hfits, -⟩ := forall_mem_split.mp hinv.fits
  rcases advance_cases newId app hpending hfits with hidle | hwin | hon
  · exact hinv.idles hidle
  · exact hinv.wins hwin
  · exact hinv.goesOn hon

theorem gateInvariant_inductive (hex : Hex) (reqs : List BuildRequest) :
    (postBuilds hex reqs).Inductive (GateInvariant hex reqs) where
  initial := by
    rintro _ rfl
    have hreceived : ∀ client ∈ reqs.map fun req =>
        (⟨req, .received⟩ : Client), client.phase = .received := by
      intro client hclient
      obtain ⟨req, -, rfl⟩ := List.mem_map.mp hclient
      rfl
    have hnone : ∀ client ∈ reqs.map fun req =>
        (⟨req, .received⟩ : Client), client.won = false := by
      intro client hclient
      rw [Client.won, hreceived client hclient]
    refine ⟨?_, ?_, ?_, ?_, fun _ => rfl, ?_⟩
    · rw [List.map_map]
      exact List.map_id reqs
    · intro client hclient
      rw [PhaseFits, hreceived client hclient]
      trivial
    · exact List.countP_eq_zero.mpr fun client hclient => by
        rw [hnone client hclient]
        exact Bool.false_ne_true
    · intro client hclient hphase
      rw [hreceived client hclient] at hphase
      cases hphase
    · intro client hclient hwon
      rw [hnone client hclient] at hwon
      cases hwon
  step _ _ hinv hstep := gateInvariant_step hinv hstep

/-- How many steps a request has left, at most. -/
def Phase.remaining : Phase → Nat
  | .received => 5
  | .nonceChecked => 4
  | .sourceChecked => 3
  | .admitted => 2
  | .registered _ => 1
  | .answered _ | .rejected _ => 0

def Clients.remaining (world : Clients) : Nat :=
  (world.clients.map fun client => client.phase.remaining).sum

theorem advance_remaining_lt (hex : Hex) (newId : JobId) (app : AppState)
    {client : Client} (hpending : client.isAnswered = false) :
    (advance hex newId app client).2.remaining < client.phase.remaining := by
  obtain ⟨req, phase⟩ := client
  cases phase with
  | received =>
      simp only [advance]
      split <;> simp [Phase.remaining]
  | nonceChecked =>
      simp only [advance]
      split <;> simp [Phase.remaining]
  | sourceChecked =>
      simp only [advance]
      split <;> simp [Phase.remaining]
  | admitted => simp [advance, Phase.remaining]
  | registered jobId => simp [advance, Phase.remaining]
  | answered jobId => cases hpending
  | rejected rejection => cases hpending

theorem clientStep_remaining_lt {hex : Hex} {world next : Clients}
    (hstep : ClientStep hex world next) : next.remaining < world.remaining := by
  obtain ⟨newId, hpending⟩ := hstep
  rename_i app before after client
  have hless := advance_remaining_lt hex newId app hpending
  simp only [Clients.remaining, List.map_append, List.map_cons,
    List.sum_append, List.sum_cons]
  omega

def AllAnswered (world : Clients) : Prop :=
  ∀ client ∈ world.clients, client.isAnswered = true

theorem exists_clientStep (hex : Hex) {world : Clients}
    (hpending : ¬ AllAnswered world) : ∃ next, ClientStep hex world next := by
  unfold AllAnswered at hpending
  push Not at hpending
  obtain ⟨client, hclient, hnot⟩ := hpending
  obtain ⟨before, after, hsplit⟩ := List.append_of_mem hclient
  obtain ⟨app, clients⟩ := world
  simp only at hsplit
  subst hsplit
  exact ⟨_, ClientStep.request "" (by simpa using hnot)⟩

/-- A request that its checks reject changes nothing. -/
theorem advance_invalid {hex : Hex} {client : Client} (newId : JobId)
    (app : AppState) (hfits : PhaseFits hex client)
    (hinvalid : ¬ ValidRequest hex client.req) :
    (advance hex newId app client).1 = app := by
  obtain ⟨req, phase⟩ := client
  cases phase with
  | received => simp only [advance]; split <;> rfl
  | nonceChecked => simp only [advance]; split <;> rfl
  | sourceChecked => exact absurd hfits hinvalid
  | admitted => exact absurd hfits hinvalid
  | registered jobId => exact absurd hfits hinvalid
  | answered jobId => rfl
  | rejected rejection => rfl

/-- One of the valid requests has got the build, and all others 409. -/
def OneWinner (hex : Hex) (world : Clients) : Prop :=
  ∃ before winner after jobId,
    world.clients = before ++ winner :: after ∧
    ValidRequest hex winner.req ∧ winner.phase = .answered jobId ∧
    (∀ other ∈ before ++ after, ValidRequest hex other.req →
      other.phase = .rejected conflict) ∧
    world.app.registry.inner.entries =
      [(jobId, ServerJob.new jobId winner.req.nonce)] ∧
    world.app.spawned =
      [⟨jobId, winner.req, some (ServerJob.new jobId winner.req.nonce)⟩]

/-- When a request is answered, its phase says how. -/
theorem answered_cases {hex : Hex} {client : Client}
    (hfits : PhaseFits hex client) (hanswered : client.isAnswered = true) :
    (client.won = true ∧ ValidRequest hex client.req ∧
      ∃ jobId, client.phase = .answered jobId) ∨
    (client.won = false ∧ ValidRequest hex client.req ∧
      client.phase = .rejected conflict) ∨
    (client.won = false ∧ ¬ ValidRequest hex client.req ∧
      ∃ rejection, client.phase = .rejected rejection ∧
        rejection.status = 400) := by
  obtain ⟨req, phase⟩ := client
  cases phase with
  | answered jobId => exact Or.inl ⟨rfl, hfits, jobId, rfl⟩
  | rejected rejection =>
      right
      simp only [PhaseFits] at hfits
      by_cases hconflict : rejection = conflict
      · rw [if_pos hconflict] at hfits
        exact Or.inl ⟨rfl, hfits, congrArg Phase.rejected hconflict⟩
      · rw [if_neg hconflict] at hfits
        exact Or.inr ⟨rfl, hfits.2, rejection, rfl, hfits.1⟩
  | received => cases hanswered
  | nonceChecked => cases hanswered
  | sourceChecked => cases hanswered
  | admitted => cases hanswered
  | registered jobId => cases hanswered

theorem oneWinner_of_answered {hex : Hex} {reqs : List BuildRequest}
    {world : Clients} (hinv : GateInvariant hex reqs world)
    (hall : AllAnswered world)
    (hvalid : ∃ client ∈ world.clients, ValidRequest hex client.req) :
    OneWinner hex world := by
  -- a valid request has won or met a taken gate
  have hgate : world.app.registry.gate = true := by
    obtain ⟨client, hclient, hok⟩ := hvalid
    rcases answered_cases (hinv.fits client hclient) (hall client hclient)
      with ⟨hwon, -⟩ | ⟨-, -, hconflict⟩ | ⟨-, hinvalid, -⟩
    · by_contra hfree
      rw [Bool.not_eq_true] at hfree
      have hwinners := hinv.winners
      rw [hfree] at hwinners
      exact List.countP_eq_zero.mp hwinners client hclient hwon
    · exact hinv.conflicts client hclient hconflict
    · exact absurd hok hinvalid
  have hcount : world.clients.countP Client.won = 1 := by
    rw [hinv.winners, hgate, if_pos rfl]
  have hpos : 0 < world.clients.countP Client.won := by omega
  obtain ⟨winner, hwinner, hwon⟩ := List.countP_pos_iff.mp hpos
  obtain ⟨before, after, hsplit⟩ := List.append_of_mem hwinner
  have hothers := others_not_won (hsplit ▸ hcount) (by rw [hwon, if_pos rfl])
  rcases answered_cases (hinv.fits winner hwinner) (hall winner hwinner)
    with ⟨-, hok, jobId, hphase⟩ | ⟨hnot, -⟩ | ⟨hnot, -⟩
  · have hleft := hinv.left winner hwinner hwon
    rw [LeftBy, hphase] at hleft
    refine ⟨before, winner, after, jobId, hsplit, hok, hphase, ?_, ?_, ?_⟩
    · intro other hother hotherValid
      have hmem : other ∈ world.clients := by
        rw [hsplit]
        rcases List.mem_append.mp hother with hin | hin
        · exact List.mem_append_left _ hin
        · exact List.mem_append_right _ (List.mem_cons_of_mem _ hin)
      rcases answered_cases (hinv.fits other hmem) (hall other hmem)
        with ⟨hotherWon, -⟩ | ⟨-, -, hconflict⟩ | ⟨-, hinvalid, -⟩
      · rw [hothers other hother] at hotherWon
        cases hotherWon
      · exact hconflict
      · exact absurd hotherValid hinvalid
    · rw [hleft]
      rfl
    · rw [hleft]
  · rw [hwon] at hnot
    cases hnot
  · rw [hwon] at hnot
    cases hnot

/-- What any number of requests make of the server, in every state that they
reach. -/
structure OneBuild (hex : Hex) (reqs : List BuildRequest) (world : Clients) :
    Prop where
  requests : world.clients.map (·.req) = reqs
  invalid_unchanged : ∀ client ∈ world.clients,
    ¬ ValidRequest hex client.req →
      ∀ newId, (advance hex newId world.app client).1 = world.app
  invalid_rejected : AllAnswered world → ∀ client ∈ world.clients,
    ¬ ValidRequest hex client.req →
      ∃ rejection, client.phase = .rejected rejection ∧ rejection.status = 400
  none_valid : (∀ req ∈ reqs, ¬ ValidRequest hex req) → world.app = .new
  one_job : world.app.registry.inner.entries.length ≤ 1
  one_spawn : world.app.spawned.length ≤ 1
  resolvable : ∀ spawn ∈ world.app.spawned,
    spawn.found = some (ServerJob.new spawn.jobId spawn.req.nonce)
  one_winner : AllAnswered world → (∃ req ∈ reqs, ValidRequest hex req) →
    OneWinner hex world
  terminates : ∀ next, ClientStep hex world next →
    next.remaining < world.remaining
  continues : ¬ AllAnswered world → ∃ next, ClientStep hex world next

/-- The server as somebody or nobody has left it. -/
theorem app_cases {hex : Hex} {reqs : List BuildRequest} {world : Clients}
    (hinv : GateInvariant hex reqs world) :
    world.app = .new ∨ ∃ client ∈ world.clients,
      ValidRequest hex client.req ∧ LeftBy world.app client := by
  cases hgate : world.app.registry.gate with
  | false => exact Or.inl (hinv.open_new hgate)
  | true =>
      right
      have hpos : 0 < world.clients.countP Client.won := by
        rw [hinv.winners, hgate]
        exact Nat.one_pos
      obtain ⟨winner, hwinner, hwon⟩ := List.countP_pos_iff.mp hpos
      refine ⟨winner, hwinner, ?_, hinv.left winner hwinner hwon⟩
      have hfits := hinv.fits winner hwinner
      obtain ⟨req, phase⟩ := winner
      cases phase <;> first | exact hfits | cases hwon

theorem leftBy_counts {app : AppState} {client : Client}
    (hleft : LeftBy app client) :
    app.registry.inner.entries.length ≤ 1 ∧ app.spawned.length ≤ 1 ∧
      ∀ spawn ∈ app.spawned,
        spawn.found = some (ServerJob.new spawn.jobId spawn.req.nonce) := by
  obtain ⟨req, phase⟩ := client
  have hspawns : app.spawned = [] ∨ ∃ jobId, app.spawned =
      [⟨jobId, req, some (ServerJob.new jobId req.nonce)⟩] := by
    cases phase <;> cases hleft <;> simp
  refine ⟨?_, ?_, ?_⟩
  · cases phase <;> cases hleft <;>
      simp [AssocMap.empty, AssocMap.insert, AssocMap.insertEntry]
  · rcases hspawns with hnone | ⟨jobId, hone⟩
    · rw [hnone]
      exact Nat.zero_le 1
    · rw [hone]
      exact le_rfl
  · rcases hspawns with hnone | ⟨jobId, hone⟩
    · rw [hnone]
      intro spawn hspawn
      cases hspawn
    · rw [hone]
      intro spawn hspawn
      rw [List.mem_singleton.mp hspawn]

/-- However the requests interleave, one valid request gets the build. -/
theorem postBuilds_oneBuild (hex : Hex) (reqs : List BuildRequest)
    {world : Clients} (hreachable : (postBuilds hex reqs).Reachable world) :
    OneBuild hex reqs world := by
  have hinv := (gateInvariant_inductive hex reqs).reachable hreachable
  have hvalid : ∀ p : BuildRequest → Prop, (∃ req ∈ reqs, p req) ↔
      ∃ client ∈ world.clients, p client.req := by
    intro p
    rw [← hinv.requests]
    simp
  have hcounts : world.app.registry.inner.entries.length ≤ 1 ∧
      world.app.spawned.length ≤ 1 ∧ ∀ spawn ∈ world.app.spawned,
        spawn.found = some (ServerJob.new spawn.jobId spawn.req.nonce) := by
    rcases app_cases hinv with hnew | ⟨client, -, -, hleft⟩
    · rw [hnew]
      refine ⟨Nat.zero_le 1, Nat.zero_le 1, ?_⟩
      intro spawn hspawn
      cases hspawn
    · exact leftBy_counts hleft
  constructor
  · exact hinv.requests
  · intro client hclient hinvalid newId
    exact advance_invalid newId world.app (hinv.fits client hclient) hinvalid
  · intro hall client hclient hinvalid
    rcases answered_cases (hinv.fits client hclient) (hall client hclient)
      with ⟨-, hok, -⟩ | ⟨-, hok, -⟩ | ⟨-, -, hrejected⟩
    · exact absurd hok hinvalid
    · exact absurd hok hinvalid
    · exact hrejected
  · intro hnone
    rcases app_cases hinv with hnew | ⟨client, hclient, hok, -⟩
    · exact hnew
    · obtain ⟨req, hreq, hreqOk⟩ := (hvalid _).mpr ⟨client, hclient, hok⟩
      exact absurd hreqOk (hnone req hreq)
  · exact hcounts.1
  · exact hcounts.2.1
  · exact hcounts.2.2
  · intro hall hsome
    exact oneWinner_of_answered hinv hall ((hvalid _).mp hsome)
  · exact fun next hstep => clientStep_remaining_lt hstep
  · exact exists_clientStep hex

theorem clientStep_head {hex : Hex} (newId : JobId) {app : AppState}
    {client : Client} {rest : List Client}
    (hpending : client.isAnswered = false) :
    ClientStep hex ⟨app, client :: rest⟩
      ⟨(advance hex newId app client).1,
        ⟨client.req, (advance hex newId app client).2⟩ :: rest⟩ := by
  rw [← List.nil_append (client :: rest)]
  exact ClientStep.request newId hpending

theorem clientStep_second {hex : Hex} (newId : JobId) {app : AppState}
    {first client : Client} {rest : List Client}
    (hpending : client.isAnswered = false) :
    ClientStep hex ⟨app, first :: client :: rest⟩
      ⟨(advance hex newId app client).1,
        first :: ⟨client.req, (advance hex newId app client).2⟩ :: rest⟩ := by
  rw [show first :: client :: rest = [first] ++ client :: rest from rfl]
  exact ClientStep.request newId hpending

def demoRequest (nonce : String) : BuildRequest :=
  ⟨nonce, some "https://example.com/app", none, none, none⟩

/-- Two valid requests: the second one is ahead until the first swaps the
gate. -/
theorem postBuilds_oneBuild_demo :
    ∃ world, world.clients.map (·.phase) =
        [.answered "job-1", .rejected conflict] ∧
      OneBuild lowerHex [demoRequest "00112233445566778899aabbccddeeff",
        demoRequest "ffeeddccbbaa99887766554433221100"] world := by
  refine ⟨_, ?_, postBuilds_oneBuild lowerHex _ ⟨_, rfl,
    ((((((((Relation.ReflTransGen.refl.tail
      (clientStep_second "job-2" ?_)).tail
      (clientStep_second "job-2" ?_)).tail
      (clientStep_head "job-1" ?_)).tail
      (clientStep_head "job-1" ?_)).tail
      (clientStep_head "job-1" ?_)).tail
      (clientStep_second "job-2" ?_)).tail
      (clientStep_head "job-1" ?_)).tail
      (clientStep_head "job-1" ?_))⟩⟩
  all_goals decide +kernel

end Server

end Kettle
