/-
`POST /build`: the checks of a request, and the registration of its job.
-/
import Kettle.Lib.Hex
import Kettle.Lib.Result
import Kettle.Server.Job

namespace Kettle

namespace Server

structure BuildRequest where
  nonce : String
  repoUrl : Option String
  repoRef : Option String
  sourceData : Option Bytes
  sourceName : Option String
deriving DecidableEq, Repr

/-- A status code and a body. -/
structure Rejection where
  status : Nat
  message : String
deriving DecidableEq, Repr

def badRequest (message : String) : Rejection := ⟨400, message⟩

def conflict : Rejection := ⟨409, "this CVM has already accepted a build"⟩

def validateNonce (hex : Hex) (nonce : String) : Except Rejection Bytes :=
  match hex.decode nonce with
  | .error e => .error (badRequest s!"invalid nonce hex: {e}")
  | .ok bytes =>
      if bytes.length ≠ 16 then
        .error (badRequest "nonce must be exactly 16 bytes")
      else .ok bytes

def checkSource (req : BuildRequest) : Except Rejection Unit :=
  if req.repoUrl.isNone && req.sourceData.isNone then
    .error (badRequest "exactly one of repo_url or source_data is required")
  else .ok ()

/-- A call of the runner, and what the registry holds under the id then. -/
structure Spawn where
  jobId : JobId
  req : BuildRequest
  found : Option ServerJob
deriving DecidableEq, Repr

structure AppState where
  registry : JobRegistry
  spawned : List Spawn

def AppState.new : AppState := ⟨.new, []⟩

def AppState.spawn (app : AppState) (jobId : JobId) (req : BuildRequest) :
    AppState :=
  { app with spawned := app.spawned ++ [⟨jobId, req, app.registry.get jobId⟩] }

/-- `try_register_with_nonce`; the id is a new UUID. -/
def tryRegisterWithNonce (newId : JobId) (registry : JobRegistry)
    (nonce : String) : Except Rejection JobId × JobRegistry :=
  let (taken, registry) := registry.swapGate
  if taken then (.error conflict, registry)
  else (.ok newId, registry.insertJob newId nonce)

/-- `post_build`. -/
def postBuild (hex : Hex) (newId : JobId) (app : AppState)
    (req : BuildRequest) : Except Rejection JobId × AppState :=
  match validateNonce hex req.nonce with
  | .error rejection => (.error rejection, app)
  | .ok _ =>
      match checkSource req with
      | .error rejection => (.error rejection, app)
      | .ok _ =>
          match tryRegisterWithNonce newId app.registry req.nonce with
          | (.error rejection, registry) =>
              (.error rejection, { app with registry := registry })
          | (.ok jobId, registry) =>
              (.ok jobId, AppState.spawn { app with registry := registry }
                jobId req)

end Server

end Kettle
