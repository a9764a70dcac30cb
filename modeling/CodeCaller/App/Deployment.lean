import CodeCaller.App.Client
import CodeCaller.Hub.Nodes

/-!
# The app and the Hub

`Deployment` composes the app with the Hub behind both of its URLs.  The calls of the app are
interleaved at every node, and so are the handlers of the Hub.  A request that was sent reaches the
Hub once, or never; its reply reaches the app, or never.  Whatever else the Hub has to do, for
other clients, daemons and its queue, happens in between.

### Main definitions

* `AppCall`: what the app does, with the values each callback closes over.
* `HttpReply.ofAuth`, `HttpReply.ofCall`: the replies, with the status NestJS gives them.
* `Deployment`: three pools (the app, the Hub, `AuthService`), which call is which, and what was
  made of each request.
* `Deployment.step`: a call of the app begins, a call of one of the pools is resumed, the Hub
  receives a request, a reply is delivered, whole or cut.

The requests that are handled are remembered by number (`handled`), so it can be asked afterwards
what the Hub made of each request of a call.
-/

namespace CodeCaller

open Async

/-! ## Calls -/

/-- **What the app does**: the callbacks and effects of `App.tsx` that talk to the Hub,
each with the values it closes over. -/
inductive AppCall where
  | restoreSession (active : JsString)
  | login (active email password : JsString)
  | logout (active : JsString) (tokens : Option AuthTokens)
  | request (active : JsString) (tokens : Option AuthTokens) (resource : Resource)
  | createTask (active : JsString) (tokens : Option AuthTokens) (selectedServerId : Option ServerId)
    (workerType : WorkerType) (prompt : JsString)
  | fetchHub (active : JsString) (request : AppRequest)

/-- The URL a call tries first. -/
def AppCall.active : AppCall → JsString
  | restoreSession active | login active _ _ | logout active _ | request active _ _
  | createTask active _ _ _ _ | fetchHub active _ => active

/-- What a call does. -/
def AppCall.program : AppCall → AppM Unit
  | restoreSession active => App.restoreSession active
  | login active email password => App.login active email password
  | logout active tokens => App.logout active tokens
  | request active tokens resource => do let _ ← App.request active tokens resource
  | createTask active tokens selectedServerId workerType prompt =>
    App.createTask active tokens selectedServerId workerType prompt
  | fetchHub active appRequest => do let _ ← App.fetchHub active appRequest

/-- The calls of the app, over its state. -/
abbrev AppPool := Pool AppState AppError Unit

/-- The calls of `AuthService`, over theirs. -/
abbrev AuthPool := Pool AuthState HubError (Option TokenPair)

/-! ## Replies -/

/-- The status that NestJS gives to an exception. -/
def HubErrorKind.status : HubErrorKind → ℕ
  | .notFound => 404
  | .forbidden => 403
  | .badRequest => 400
  | .unauthorized => 401
  | .serviceUnavailable => 503
  | .error | .recordNotFound | .uniqueConstraint | .foreignKeyConstraint | .validation => 500

/-- What the exception filter answers: the status of the exception, and its message. -/
def HttpReply.ofError (error : HubError) : HttpReply := ⟨error.kind.status, .message error.message⟩

/-- The reply of `AuthController`. -/
def HttpReply.ofAuth : Except HubError (Option TokenPair) → HttpReply
  | .ok (some pair) => ⟨200, .tokens ⟨pair.accessToken, pair.refreshToken⟩⟩
  | .ok none => ⟨204, .empty⟩
  | .error error => .ofError error

/-- The status of the other controllers where nothing is thrown: none of their routes has an
`@HttpCode`, and NestJS answers a `POST` with 201. -/
def HubCall.status : HubCall → ℕ
  | .submit .. | .cancel .. | .decideApproval .. | .createServer .. | .decideRegistration ..
  | .createRegistration .. => 201
  | _ => 200

/-- The reply of the other controllers. -/
def HttpReply.ofCall (call : HubCall) : Except HubError Response → HttpReply
  | .ok response => ⟨call.status, .data response⟩
  | .error error => .ofError error

/-- The reply of the guard. -/
def HttpReply.unauthorized : HttpReply := ⟨401, .message (js "Unauthorized")⟩

/-- The reply as it reaches the app. -/
def HttpReply.cut (whole : Bool) (reply : HttpReply) : HttpReply :=
  if whole then reply else { reply with body := .unreadable }

/-- A request with its reply. -/
def Attempt.answered (reply : HttpReply) (attempt : Attempt) : Attempt :=
  { attempt with reply := some reply }

/-! ## State -/

/-- **What the Hub made of a request.** -/
inductive Handling where
  /-- The guard refused it. -/
  | refused
  /-- It was answered before any of its handlers ran. -/
  | rejected (status : ℕ)
  | auth (k : ℕ)
  | call (k : ℕ)
deriving DecidableEq

/-- Whether a handler of the request ran. -/
def Handling.processed : Handling → Bool
  | refused | rejected _ => false
  | auth _ | call _ => true

/-- **The app, the Hub, and what is between them.** -/
structure Deployment where
  app : AppPool
  calls : List AppCall
  hub : CallPool
  auth : AuthPool
  authCalls : List AuthCall
  hubCalls : List HubCall
  handled : ℕ → Option Handling

/-- **What can happen**: in the app, in the storage of the device, on the network and in the Hub.
-/
inductive DeployAction where
  /-- A callback or an effect of the app starts. -/
  | tap (call : AppCall)
  /-- One node of a call of the app. -/
  | resume (i : ℕ)
  /-- `AsyncStorage` fails from now on, or works again. -/
  | storage (fails : Bool)
  /-- The Hub receives a request. -/
  | receive (n : ℕ)
  /-- A request is answered before any of its handlers ran. -/
  | reject (n status : ℕ)
  /-- A request of another client, a message of a daemon, a job. -/
  | serve (call : HubCall)
  | serveAuth (call : AuthCall)
  /-- One node of a handler. -/
  | hub (k : ℕ)
  | auth (k : ℕ)
  /-- A reply reaches the app, whole or cut off in its body. -/
  | deliver (n : ℕ) (whole : Bool)

variable (env : Env) (jwt : JwtService) (compare : JsString → JsString → Bool)

/-- What the controller does with a call. -/
def AuthCall.program : AuthCall → AuthM (Option TokenPair)
  | login email password => some <$> AuthService.login env jwt compare email password
  | refresh refreshToken => some <$> AuthService.refresh env jwt refreshToken
  | logout refreshToken => do
    AuthService.logout env jwt refreshToken
    return none

/-- The user of an access token: `JwtStrategy`. -/
def accessUser (accessToken : JsString) (date : Time) : Option UserId :=
  (env.processEnv (js "JWT_ACCESS_SECRET")).bind fun secret =>
    (jwt.verify accessToken secret date).map (·.sub)

namespace Deployment

/-- A deployment before the app has started. -/
structure Initial (D : Deployment) : Prop where
  app : D.app.threads = []
  calls : D.calls = []
  attempts : D.app.shared.attempts = []
  hub : D.hub.threads = []
  hubCalls : D.hubCalls = []
  auth : D.auth.threads = []
  authCalls : D.authCalls = []
  handled : ∀ n, D.handled n = none

/-! ## Steps -/

/-- A callback or an effect of the app begins. -/
def tap (call : AppCall) (D : Deployment) : Deployment :=
  { D with app := D.app.add call.program, calls := D.calls ++ [call] }

/-- The state of the app is changed by the network: an answer has arrived. -/
def setApp (f : AppState → AppState) (D : Deployment) : Deployment :=
  { D with app := { D.app with shared := f D.app.shared } }

/-- The Hub has taken a request up. -/
def setHandled (n : ℕ) (handling : Handling) (D : Deployment) : Deployment :=
  { D with handled := Function.update D.handled n (some handling) }

/-- A handler of the Hub begins. -/
def serve (call : HubCall) (D : Deployment) : Deployment :=
  { D with hub := D.hub.add (perform env call), hubCalls := D.hubCalls ++ [call] }

/-- A handler of `AuthController` begins. -/
def serveAuth (call : AuthCall) (D : Deployment) : Deployment :=
  { D with auth := D.auth.add (call.program env jwt compare), authCalls := D.authCalls ++ [call] }

/-- The clock was read. -/
def tick (D : Deployment) : Deployment :=
  { D with auth := { D.auth with
      shared := { D.auth.shared with reads := D.auth.shared.reads + 1 } } }

/-- The Hub routes a request: behind the guard, or to `AuthController`. -/
def receive (n : ℕ) (D : Deployment) : Deployment :=
  match D.app.shared.attempts[n]? with
  | none => D
  | some attempt =>
    match attempt.request with
    | .authorized accessToken resource =>
      match accessUser env jwt accessToken (env.clock D.auth.shared.reads) with
      | none => D.tick.setHandled n .refused
      | some user =>
        (D.tick.serve env (resource.call user)).setHandled n (.call D.hub.threads.length)
    | .auth call =>
      (D.serveAuth env jwt compare call).setHandled n (.auth D.auth.threads.length)

/-- The reply to a request, once there is one. -/
def answer (D : Deployment) (n : ℕ) : Option HttpReply :=
  match D.handled n with
  | none => none
  | some .refused => some .unauthorized
  | some (.rejected status) => some ⟨status, .unreadable⟩
  | some (.auth k) => (D.auth.outcome? k).map .ofAuth
  | some (.call k) =>
    (D.hubCalls[k]?).bind fun call => (D.hub.outcome? k).map (.ofCall call)

/-- A reply arrives, if its connection holds. -/
def deliver (n : ℕ) (whole : Bool) (D : Deployment) : Deployment :=
  match D.answer n with
  | none => D
  | some reply =>
    D.setApp fun s => { s with attempts := s.attempts.modify n (·.answered (reply.cut whole)) }

/-- What an action does. -/
def step (D : Deployment) : DeployAction → Deployment
  | .tap call => D.tap call
  | .resume i => { D with app := D.app.step i }
  | .storage fails => D.setApp fun s => { s with storageFails := fails }
  | .receive n => D.receive env jwt compare n
  | .reject n status => D.setHandled n (.rejected status)
  | .serve call => D.serve env call
  | .serveAuth call => D.serveAuth env jwt compare call
  | .hub k => { D with hub := D.hub.step k }
  | .auth k => { D with auth := D.auth.step k }
  | .deliver n whole => D.deliver n whole

/-- When an action can happen.  A callback closes over one of the two URLs. -/
def enabled (D : Deployment) : DeployAction → Prop
  | .tap call => call.active ∈ App.API_BASE_URLS
  | .resume i => D.app.live i = true
  | .storage _ | .serveAuth _ => True
  | .serve call => call.possible D.hub.shared
  | .receive n => n < D.app.shared.attempts.length ∧ D.handled n = none
  | .reject n status => n < D.app.shared.attempts.length ∧ D.handled n = none ∧ 400 ≤ status ∧
      status ≠ 401
  | .hub k => D.hub.live k = true
  | .auth k => D.auth.live k = true
  | .deliver n _ => App.replyTo n D.app.shared = none ∧ (D.answer n).isSome = true

instance (D : Deployment) (action : DeployAction) : Decidable (D.enabled action) := by
  cases action <;> unfold enabled <;> infer_instance

end Deployment

/-- **The composed system.** -/
def deploymentMachine : Machine Deployment DeployAction where
  start := Deployment.Initial
  enabled := Deployment.enabled
  step := Deployment.step env jwt compare

instance (D : Deployment) (actions : List DeployAction) :
    Decidable ((deploymentMachine env jwt compare).Runs D actions) :=
  inferInstanceAs (Decidable (∀ visit ∈ (deploymentMachine env jwt compare).visits D actions,
    visit.1.enabled visit.2))

end CodeCaller
