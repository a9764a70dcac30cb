import CodeCaller.App.Client
import CodeCaller.Fleet.Replies

/-!
# What the app shows

The lists of `App.tsx` and everything that writes to them: the callbacks that load them, the events
of the socket, `logout`.  A device is the app of whoever is logged in on it, composed with the
whole deployment: its requests are calls of the Hub, its events are what the Hub has told the user.
A session is modelled by its user, whom its tokens name.

A callback holds the session of the render it was made in, and goes on when the session has ended:
`loadAll` waits for four answers, and `createTask`, `decideApproval` and `decideServerRegistration`
for one of their own before they load.  So a callback has the user of the session it was begun in,
whoever is logged in when it ends.  That `busy` disables some of the buttons is left out: more
callbacks can be under way here than in the app.

### Main definitions

* `Screen`: the lists, and the server that is selected.  `upsert`, `replace`, `preferred` and
  `loaded` are the four ways to change them.
* `Device`: the deployment, the session, the callbacks under way, the events on their way.
* `Loads`: four answers of requests of one callback, in any states of the Hub, so that what is
  loaded together need not have been there together.
* `deviceMachine`: the device with everything that goes on in the deployment.
-/

namespace CodeCaller

open Async

variable {n : ℕ}

/-! ## The lists -/

/-- `ApprovalItem`; the list of the Hub includes the task, its events do not. -/
structure ApprovalItem where
  approval : Approval
  task : Option Task

/-- **The lists of the app**, and the server that is selected for a new task. -/
structure Screen where
  servers : List PublicServer
  registrationRequests : List PublicRegistration
  tasks : List (TaskId × Task)
  approvals : List (ApprovalId × ApprovalItem)
  selectedServerId : Option ServerId

namespace Screen

/-- The lists of an app that has just started, and after `logout`. -/
def cleared : Screen := ⟨[], [], [], [], none⟩

/-- `[item, ...current.filter(other => other.id !== item.id)]`. -/
def upsert {ρ : Type} (id : ℕ) (item : ρ) (current : List (ℕ × ρ)) : List (ℕ × ρ) :=
  (id, item) :: current.filter fun other => other.1 != id

/-- `current.map(other => (other.id === item.id ? item : other))`. -/
def replace {ρ : Type} (id : ℕ) (item : ρ) (current : List (ℕ × ρ)) : List (ℕ × ρ) :=
  current.map fun other => if other.1 == id then (id, item) else other

/-- The server that stays selected, or is selected first. -/
def preferred (current : Option ServerId) (serverData : List PublicServer) : Option ServerId :=
  match current.filter fun id => serverData.any fun server => server.id == id with
  | some id => some id
  | none =>
    ((serverData.find? fun server => server.name == js "MacBook-Local").or
      serverData.head?).map (·.id)

/-- The end of `loadAll`. -/
def loaded (serverData : List PublicServer) (registrationRequestData : List PublicRegistration)
    (taskData : List (TaskId × Task)) (approvalData : List (ApprovalId × Approval × Task))
    (s : Screen) : Screen where
  servers := serverData
  registrationRequests := registrationRequestData
  tasks := taskData
  approvals := approvalData.map fun row => (row.1, ⟨row.2.1, some row.2.2⟩)
  selectedServerId := preferred s.selectedServerId serverData

/-- `task:updated`, `approval:pending` and `approval:resolved`. -/
def onEvent (s : Screen) : AppOutbound → Screen
  | .TASK_UPDATED taskId task => { s with tasks := upsert taskId task s.tasks }
  | .APPROVAL_PENDING approvalId approval =>
    { s with approvals := upsert approvalId ⟨approval, none⟩ s.approvals }
  | .APPROVAL_RESOLVED approvalId approval =>
    { s with approvals := replace approvalId ⟨approval, none⟩ s.approvals }

end Screen

/-! ## Callbacks under way -/

/-- The callbacks that load the lists. -/
inductive Callback where
  | loadAll
  | createTask (dto : CreateTaskDto)
  | decideApproval (approvalId : ApprovalId) (dto : DecideApprovalDto)
  | decideServerRegistration (requestId : RegistrationId) (approve : Bool)

/-- The request a callback begins with, if it has one before the four of `loadAll`. -/
def Callback.resource : Callback → Option Resource
  | loadAll => none
  | createTask dto => some (.createTask dto)
  | decideApproval approvalId dto => some (.decideApproval approvalId dto)
  | decideServerRegistration requestId approve => some (.decideRegistration requestId approve)

/-- What a user can press, to begin a callback. -/
inductive Button where
  | loadAll
  | createTask (workerType : WorkerType) (prompt : JsString)
  | decideApproval (approvalId : ApprovalId) (approve : Bool)
  | decideServerRegistration (requestId : RegistrationId) (approve : Bool)

/-- The callback of a button; `createTask` returns at once without a server or a prompt. -/
def Screen.callback (s : Screen) : Button → Option Callback
  | .loadAll => some .loadAll
  | .createTask workerType prompt =>
    match s.selectedServerId, JsString.trim prompt with
    | none, _ | _, [] => none
    | some serverId, trimmedPrompt =>
      some (.createTask
        ⟨serverId, workerType, .object [(js "prompt", .string trimmedPrompt)]⟩)
  | .decideApproval approvalId approve =>
    some (.decideApproval approvalId ⟨approve, some (if approve then js "Approved from Android app"
      else js "Rejected from Android app")⟩)
  | .decideServerRegistration requestId approve =>
    some (.decideServerRegistration requestId approve)

/-- What a callback does with the answer to its own request. -/
def Callback.onAnswer (callback : Callback) (answer : Response) (s : Screen) : Screen :=
  match callback, answer with
  | createTask _, .task taskId task => { s with tasks := Screen.upsert taskId task s.tasks }
  | _, _ => s

/-- **A callback under way**, of the session of a user: whether it has come to `loadAll`, and how
many calls the Hub had begun to serve when it sent its requests. -/
structure Invocation where
  user : UserId
  callback : Callback
  loading : Bool
  began : ℕ

/-- **The app on a device, and the deployment it talks to.**  `socket` holds the events that are
under way, if the socket of the session is in the room of its user; `clearing` says that a
`logout` waits for `AsyncStorage` before it clears the lists. -/
structure Device (n : ℕ) where
  fleet : Fleet n
  user : Option UserId
  socket : Option (List AppOutbound)
  screen : Screen
  clearing : Bool
  invocations : List Invocation

/-- **What can happen next** on a device. -/
inductive DeviceAction (n : ℕ) where
  /-- A step of the Hub, a daemon or the network between them. -/
  | hub (action : Action n)
  /-- `setTokens(nextTokens)`, at the end of `login` or `refreshSession`. -/
  | openSession (user : UserId)
  /-- `setTokens(null)`. -/
  | logout
  /-- The end of `logout`; it is not reached if `AsyncStorage` fails. -/
  | clear
  /-- The effect runs again for the same session: `loadAll` is another function after each render
  that changed what it closes over. -/
  | renew
  /-- The Hub lets the socket of the session into the room of its user. -/
  | connect
  | disconnect
  /-- The oldest event of the socket. -/
  | receive
  | press (button : Button)
  | selectServer (serverId : ServerId)
  /-- The answer of the Hub's call `i` to the request of the callback at a place. -/
  | answered (place i : ℕ)
  /-- `Promise.all` of `loadAll`, with the answers of four calls. -/
  | loaded (place servers registrationRequests tasks approvals : ℕ)
  /-- A request of a callback has failed. -/
  | failed (place : ℕ)

namespace Device

variable (env : Env) (detectors : Detectors)

/-- A callback begins. -/
def begin (user : UserId) (callback : Callback) (D : Device n) : Device n :=
  { D with
    invocations := D.invocations ++
      [⟨user, callback, callback.resource.isNone, D.fleet.calls.length⟩] }

/-- The effect of a session: a socket of its own, and `loadAll`. -/
def effect (D : Device n) : Device n :=
  match D.user with
  | none => { D with socket := none }
  | some user => { D with socket := none }.begin user .loadAll

/-- A step of the deployment; what the Hub tells the user of the session is on its way. -/
def onFleet (F : Fleet n) (D : Device n) : Device n :=
  { D with
    fleet := F
    socket := D.socket.map fun inbox =>
      inbox ++ ((F.hub.notified.drop D.fleet.hub.notified.length).filter fun notice =>
        D.user == some notice.1).map Prod.snd }

/-- The answer of the Hub to a call. -/
def answer (D : Device n) (i : ℕ) : Option Response :=
  match D.fleet.pool.outcome? i with
  | some (.ok response) => some response
  | _ => none

/-- A button begins its callback in the session of the moment. -/
def press (button : Button) (D : Device n) : Device n :=
  match D.user, D.screen.callback button with
  | some user, some callback => D.begin user callback
  | _, _ => D

/-- The oldest event of the socket is handled. -/
def receive (D : Device n) : Device n :=
  match D.socket with
  | some (message :: rest) => { D with socket := some rest, screen := D.screen.onEvent message }
  | _ => D

/-- A callback goes on to `loadAll`. -/
def onAnswer (place i : ℕ) (D : Device n) : Device n :=
  match D.invocations[place]?, D.answer i with
  | some invocation, some response =>
    { D with
      screen := invocation.callback.onAnswer response D.screen
      invocations := D.invocations.set place
        { invocation with loading := true, began := D.fleet.calls.length } }
  | _, _ => D

/-- The lists are set to the four answers. -/
def onLoaded (place servers registrationRequests tasks approvals : ℕ) (D : Device n) : Device n :=
  match D.answer servers, D.answer registrationRequests, D.answer tasks, D.answer approvals with
  | some (.servers serverData), some (.registrations registrationRequestData),
    some (.tasks taskData), some (.approvals approvalData) =>
    { D with
      screen := D.screen.loaded serverData registrationRequestData taskData approvalData
      invocations := D.invocations.eraseIdx place }
  | _, _, _, _ => D

/-- What an action does. -/
def step (D : Device n) : DeviceAction n → Device n
  | .hub action => D.onFleet (D.fleet.step env detectors action)
  | .openSession user => { D with user := some user }.effect
  | .logout => { D with user := none, clearing := true }.effect
  | .clear => { D with screen := .cleared, clearing := false }
  | .renew => D.effect
  | .connect => { D with socket := some [] }
  | .disconnect => { D with socket := none }
  | .receive => D.receive
  | .press button => D.press button
  | .selectServer serverId => { D with screen.selectedServerId := some serverId }
  | .answered place i => D.onAnswer place i
  | .loaded place servers registrationRequests tasks approvals =>
    D.onLoaded place servers registrationRequests tasks approvals
  | .failed place => { D with invocations := D.invocations.eraseIdx place }

/-! ## When an action can happen -/

/-- Whether a call of the Hub serves a request of a callback under way. -/
def requested (invocation : Invocation) (resource : Resource) (i : ℕ) (D : Device n) : Prop :=
  invocation.began ≤ i ∧ (D.fleet.calls[i]?).map (·.call) = some (resource.call invocation.user)

/-- **The four answers of a `loadAll`.** -/
structure Loads (D : Device n) (invocation : Invocation)
    (servers registrationRequests tasks approvals : ℕ) (serverData : List PublicServer)
    (registrationRequestData : List PublicRegistration) (taskData : List (TaskId × Task))
    (approvalData : List (ApprovalId × Approval × Task)) : Prop where
  servers_requested : D.requested invocation .servers servers
  servers_answered : D.answer servers = some (.servers serverData)
  registrations_requested : D.requested invocation .registrationRequests registrationRequests
  registrations_answered :
    D.answer registrationRequests = some (.registrations registrationRequestData)
  tasks_requested : D.requested invocation .tasks tasks
  tasks_answered : D.answer tasks = some (.tasks taskData)
  approvals_requested : D.requested invocation .pendingApprovals approvals
  approvals_answered : D.answer approvals = some (.approvals approvalData)

/-- Whether a button is on the screen. -/
def shows (D : Device n) : Button → Prop
  | .loadAll | .createTask _ _ => True
  | .decideApproval approvalId _ => ∃ row ∈ D.screen.approvals, row.1 = approvalId
  | .decideServerRegistration requestId _ => ∃ row ∈ D.screen.registrationRequests,
    row.id = requestId

def enabled (D : Device n) : DeviceAction n → Prop
  | .hub action => D.fleet.enabled action
  | .openSession _ => True
  | .logout | .renew => D.user ≠ none
  | .clear => D.clearing = true
  | .connect => D.user ≠ none ∧ D.socket = none
  | .disconnect => D.socket ≠ none
  | .receive => ∃ inbox, D.socket = some inbox ∧ inbox ≠ []
  | .press button => D.user ≠ none ∧ D.shows button
  | .selectServer serverId => ∃ row ∈ D.screen.servers, row.id = serverId
  | .answered place i => ∃ invocation resource response, D.invocations[place]? = some invocation ∧
      invocation.loading = false ∧ invocation.callback.resource = some resource ∧
      D.requested invocation resource i ∧ D.answer i = some response
  | .loaded place servers registrationRequests tasks approvals =>
    ∃ invocation serverData registrationRequestData taskData approvalData,
      D.invocations[place]? = some invocation ∧ invocation.loading = true ∧
      D.Loads invocation servers registrationRequests tasks approvals serverData
        registrationRequestData taskData approvalData
  | .failed place => place < D.invocations.length

/-- An app that has just started, next to a deployment at rest. -/
structure Initial (D : Device n) : Prop where
  fleet : D.fleet.Initial
  user : D.user = none
  socket : D.socket = none
  screen : D.screen = .cleared
  clearing : D.clearing = false
  invocations : D.invocations = []

end Device

/-- **A device in a deployment.** -/
def deviceMachine (n : ℕ) (env : Env) (detectors : Detectors) :
    Machine (Device n) (DeviceAction n) where
  start := Device.Initial
  enabled := Device.enabled
  step := Device.step env detectors

end CodeCaller
