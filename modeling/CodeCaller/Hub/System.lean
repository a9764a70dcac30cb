import CodeCaller.Hub.Approvals
import CodeCaller.Hub.Registrations
import CodeCaller.Hub.Tasks
import CodeCaller.Library.Machine

/-!
# The Hub as a machine

Everything that can set the Hub to work is a `HubCall`: a request of the mobile app, a request of a
host that wants to be registered, an event of the `/daemon` namespace, a job of the queue.
`perform` gives the program of a call, `Hub.after` the state it leaves when nothing interrupts it,
and `hubMachine` runs calls one after the other.

### Main definitions

* `HubCall.possible`: a user has to be known, a socket connected, a job waiting, the watchdog
  scheduled.  These are the conditions under which NestJS, Socket.IO and BullMQ make a call at all.
* `HubCall.Typed`: a daemon keeps to the types of the event contract.  The code validates the
  requests of users, not the messages of daemons, so this is a condition, and results that do not
  need it do not have it.
* `hubMachine env allowed`: the runs from a `Hub.Fresh` state in which every call is `allowed`.

### Two machines

A handler of the Hub can be interrupted at every `await`.  Results about single handlers, and those
that hold with interruptions, use the pool of programs in `Library.Pool` on the same `perform`; the
runs of this module are those in which each call finishes first.  What holds only here is a
statement about sequential use, and says so by its machine.

The last section is a small deployment: two users, three servers, three keys.
-/

namespace CodeCaller

open Async

variable (env : Env)

/-! ## Calls -/

/-- **What sets the Hub to work.**  The first group is authenticated by the JWT
of a user; a call of the last two groups carries no user. -/
inductive HubCall where
  | submit (ownerId : UserId) (dto : CreateTaskDto)
  | findAllTasks (ownerId : UserId)
  | findOneTask (ownerId : UserId) (taskId : TaskId)
  | cancel (ownerId : UserId) (taskId : TaskId)
  | listApprovals (ownerId : UserId) (status : Option (Option ApprovalStatus))
  | decideApproval (ownerId : UserId) (approvalId : ApprovalId) (dto : DecideApprovalDto)
  | createServer (ownerId : UserId) (dto : CreateServerDto)
  | findAllServers (ownerId : UserId)
  | findOneServer (ownerId : UserId) (serverId : ServerId)
  | getHealth (ownerId : UserId) (serverId : ServerId)
  | removeServer (ownerId : UserId) (serverId : ServerId)
  | findPendingRegistrations (ownerId : UserId)
  | decideRegistration (ownerId : UserId) (requestId : RegistrationId) (approve : Bool)
  | createRegistration (dto : CreateServerRegistrationRequestDto)
  | getRegistrationResult (requestId : RegistrationId) (requestSecret : JsString)
  | openSocket (apiKey : Option JsString)
  | handleConnection (socketId : ℕ)
  | handleDisconnect (socketId : ℕ)
  | message (socketId : ℕ) (message : DaemonInbound)
  | dispatch (jobId : ℕ)
  | watchdog

/-- The user of a call that carries a JWT. -/
def HubCall.user : HubCall → Option UserId
  | submit ownerId _ | findAllTasks ownerId | findOneTask ownerId _ | cancel ownerId _
  | listApprovals ownerId _ | decideApproval ownerId _ _ | createServer ownerId _
  | findAllServers ownerId | findOneServer ownerId _ | getHealth ownerId _
  | removeServer ownerId _ | findPendingRegistrations ownerId | decideRegistration ownerId _ _ =>
    some ownerId
  | createRegistration _ | getRegistrationResult _ _ | openSocket _ | handleConnection _
  | handleDisconnect _ | message _ _ | dispatch _ | watchdog => none

/-- **A call as the event contract types it**: only a daemon can send what it
is not supposed to. -/
def HubCall.Typed : HubCall → Prop
  | message _ inbound => inbound.Typed
  | _ => True

instance : DecidablePred HubCall.Typed
  | .message _ inbound => inferInstanceAs (Decidable inbound.Typed)
  | .submit .. | .findAllTasks .. | .findOneTask .. | .cancel .. | .listApprovals ..
  | .decideApproval .. | .createServer .. | .findAllServers .. | .findOneServer ..
  | .getHealth .. | .removeServer .. | .findPendingRegistrations .. | .decideRegistration ..
  | .createRegistration .. | .getRegistrationResult .. | .openSocket .. | .handleConnection ..
  | .handleDisconnect .. | .dispatch .. | .watchdog => inferInstanceAs (Decidable True)

/-- What the caller is answered. -/
inductive Response where
  | done
  | task (taskId : TaskId) (task : Task)
  | tasks (rows : List (TaskId × Task))
  | approval (approvalId : ApprovalId) (approval : Approval)
  | approvals (rows : List (ApprovalId × Approval × Task))
  | serverCreated (server : PublicServer) (apiKey : JsString)
  | server (server : PublicServer)
  | servers (rows : List PublicServer)
  | health (status : ServerStatus) (lastHeartbeatAt : Option Time)
  | registration (registration : PublicRegistration)
  | registrations (rows : List PublicRegistration)
  | registrationCreated (registration : PublicRegistration) (requestSecret : JsString)
  | registrationResult (result : DaemonRegistrationResult)

/-! ## Messages of daemons -/

/-- `@SubscribeMessage`: a heartbeat is for the server of the socket; the other
messages are passed on as they are, without the socket they came from. -/
def DaemonGateway.onMessage (socketId : ℕ) : DaemonInbound → HubM Unit
  | .HEARTBEAT => DaemonGateway.onHeartbeat env socketId
  | .TASK_STATUS_UPDATE payload => TasksService.handleDaemonTaskStatus env payload
  | .TASK_LOG payload => TasksService.handleDaemonTaskLog env payload
  | .TASK_RESULT payload => TasksService.handleDaemonTaskResult env payload
  | .APPROVAL_REQUEST payload => ApprovalsService.handleDaemonApprovalRequest env payload

/-! ## The queue -/

/-- BullMQ after a processor returned or threw: a job that threw is retried
until its attempts are used. -/
def DispatchJob.after (job : DispatchJob) : Except HubError Unit → DispatchJob
  | .ok _ => { job with state := .completed }
  | .error _ =>
    { job with
      attemptsMade := job.attemptsMade + 1
      state := if job.attemptsMade + 1 ≥ job.attempts then .failed else .waiting }

/-- One attempt at a job.  Its outcome is the queue's to record. -/
def runJob (jobId : ℕ) : HubM Unit := do
  match ← Proc.read fun h => h.jobs jobId with
  | none => return
  | some job =>
    let outcome ← tryCatch
      (do TasksProcessor.processDispatch env job.taskId
          pure (Except.ok ()))
      (fun error => pure (Except.error error))
    Proc.atomically fun h =>
      (.ok (), { h with jobs := h.jobs.modify jobId fun _ => job.after outcome })

/-! ## The machine -/

/-- The program a call runs. -/
def perform : HubCall → HubM Response
  | .submit ownerId dto => do
    let (id, task) ← TasksService.submit env ownerId dto
    return .task id task
  | .findAllTasks ownerId => .tasks <$> TasksService.findAllForOwner env ownerId
  | .findOneTask ownerId taskId => do
    let (id, task) ← TasksService.findOneForOwner ownerId taskId
    return .task id task
  | .cancel ownerId taskId => do
    let (id, task) ← TasksService.cancel env ownerId taskId
    return .task id task
  | .listApprovals ownerId status =>
    .approvals <$> ApprovalsService.listForOwner env ownerId status
  | .decideApproval ownerId approvalId dto => do
    let (id, approval) ← ApprovalsService.decide env ownerId approvalId dto
    return .approval id approval
  | .createServer ownerId dto => do
    let (server, apiKey) ← ServersService.create env ownerId dto
    return .serverCreated server apiKey
  | .findAllServers ownerId => .servers <$> ServersService.findAllForOwner env ownerId
  | .findOneServer ownerId serverId => .server <$> ServersService.findOneForOwner ownerId serverId
  | .getHealth ownerId serverId => do
    let (status, lastHeartbeatAt) ← ServersService.getHealth ownerId serverId
    return .health status lastHeartbeatAt
  | .removeServer ownerId serverId => do
    ServersService.remove ownerId serverId
    return .done
  | .findPendingRegistrations ownerId =>
    .registrations <$> ServerRegistrationsService.findPendingForOwner env ownerId
  | .decideRegistration ownerId requestId approve =>
    .registration <$> ServerRegistrationsService.decide env ownerId requestId approve
  | .createRegistration dto => do
    let (registration, requestSecret) ← ServerRegistrationsService.create env dto
    return .registrationCreated registration requestSecret
  | .getRegistrationResult requestId requestSecret =>
    .registrationResult <$> ServerRegistrationsService.getResult env requestId requestSecret
  | .openSocket apiKey => do
    Proc.modify fun h => { h with sockets := h.sockets.insert ⟨apiKey, none, none⟩ }
    return .done
  | .handleConnection socketId => do
    DaemonGateway.handleConnection env socketId
    return .done
  | .handleDisconnect socketId => do
    DaemonGateway.handleDisconnect socketId
    return .done
  | .message socketId inbound => do
    DaemonGateway.onMessage env socketId inbound
    return .done
  | .dispatch jobId => do
    runJob env jobId
    return .done
  | .watchdog => do
    let _ ← TasksProcessor.scanStuckTasksOnce env
    return .done

/-- The Hub after a call ran to completion. -/
def Hub.after (h : Hub) (call : HubCall) : Hub := ((perform env call).run h).2

/-- What the caller got. -/
def Hub.answer (h : Hub) (call : HubCall) : Except HubError Response :=
  ((perform env call).run h).1

/-- When what sets the Hub to work is there: its socket is connected, its job is
waiting. -/
def HubCall.ready (h : Hub) : HubCall → Prop
  | handleConnection socketId | handleDisconnect socketId | message socketId _ =>
    h.sockets socketId ≠ none
  | dispatch jobId => ∃ job, h.jobs jobId = some job ∧ job.state = .waiting
  | watchdog => h.watchdogScheduled = true
  | _ => True

/-- When a call can happen: its user is known, and it is ready. -/
def HubCall.possible (call : HubCall) (h : Hub) : Prop :=
  (∀ user ∈ call.user, h.users user ≠ none) ∧ call.ready h

instance (h : Hub) (call : HubCall) : Decidable (call.ready h) :=
  match call with
  | .handleConnection socketId | .handleDisconnect socketId | .message socketId _ =>
    inferInstanceAs (Decidable (h.sockets socketId ≠ none))
  | .dispatch jobId =>
    decidable_of_iff ((h.jobs jobId).any (·.state == .waiting) = true) <| by
      simp only [Option.any_eq_true, beq_iff_eq]
      rfl
  | .watchdog => inferInstanceAs (Decidable (h.watchdogScheduled = true))
  | .submit .. | .findAllTasks .. | .findOneTask .. | .cancel .. | .listApprovals ..
  | .decideApproval .. | .createServer .. | .findAllServers .. | .findOneServer ..
  | .getHealth .. | .removeServer .. | .findPendingRegistrations .. | .decideRegistration ..
  | .createRegistration .. | .getRegistrationResult .. | .openSocket .. =>
    inferInstanceAs (Decidable True)

instance (h : Hub) (call : HubCall) : Decidable (call.possible h) :=
  inferInstanceAs (Decidable (_ ∧ _))

/-- A Hub that has just started: users, servers, profiles and registrations may
be there, but no task was ever submitted and no daemon is connected. -/
structure Hub.Fresh (h : Hub) : Prop where
  profile_server : ∀ id profile, h.workerProfiles id = some profile →
    ∃ server, h.servers profile.serverId = some server
  tasks : h.tasks = Table.empty
  attempts : h.attempts = Table.empty
  approvals : h.approvals = Table.empty
  jobs : h.jobs = Table.empty
  sockets : h.sockets = Table.empty
  emitted : h.emitted = []

/-- **The Hub with uninterrupted handlers**, for the calls `allowed`. -/
def hubMachine (allowed : HubCall → Prop) : Machine Hub HubCall where
  start := Hub.Fresh
  enabled h call := allowed call ∧ call.possible h
  step h call := h.after env call

instance (allowed : HubCall → Prop) [DecidablePred allowed] (h : Hub) (calls : List HubCall) :
    Decidable ((hubMachine env allowed).Runs h calls) :=
  inferInstanceAs (Decidable (∀ visit ∈ (hubMachine env allowed).visits h calls,
    allowed visit.2 ∧ visit.2.possible visit.1))

/-! ## A deployment -/

/-- The digests of the keys `a`, `b` and `c`. -/
def sampleDigests : List (Bytes × Bytes) :=
  [([97],
    [0xca, 0x97, 0x81, 0x12, 0xca, 0x1b, 0xbd, 0xca, 0xfa, 0xc2, 0x31, 0xb3, 0x9a, 0x23, 0xdc, 0x4d,
      0xa7, 0x86, 0xef, 0xf8, 0x14, 0x7c, 0x4e, 0x72, 0xb9, 0x80, 0x77, 0x85, 0xaf, 0xee, 0x48,
      0xbb]),
    ([98],
    [0x3e, 0x23, 0xe8, 0x16, 0x00, 0x39, 0x59, 0x4a, 0x33, 0x89, 0x4f, 0x65, 0x64, 0xe1, 0xb1, 0x34,
      0x8b, 0xbd, 0x7a, 0x00, 0x88, 0xd4, 0x2c, 0x4a, 0xcb, 0x73, 0xee, 0xae, 0xd5, 0x9c, 0x00,
      0x9d]),
    ([99],
    [0x2e, 0x7d, 0x2c, 0x03, 0xa9, 0x50, 0x7a, 0xe2, 0x65, 0xec, 0xf5, 0xb5, 0x35, 0x68, 0x85, 0xa5,
      0x33, 0x93, 0xa2, 0x02, 0x9d, 0x24, 0x13, 0x94, 0x99, 0x72, 0x65, 0xa1, 0xa2, 0x5a, 0xef,
      0xc6])]

/-- Surroundings to run the Hub in: the defaults of every variable, rows in the
order of creation, twenty minutes between two readings of the clock, and a hash
that knows three keys. -/
def Env.sample : Env where
  clock n := 1200000 * (n + 1)
  rowOrder rows := rows
  rowOrder_perm _ := .refl _
  sort compare items := items.insertionSort fun a b => compare a b ≤ 0
  sort_perm _ items := List.perm_insertionSort _ items
  localeCompare _ _ := 0
  processEnv _ := none
  fcmReady := false
  crypto :=
    { sha256 := fun bytes => (sampleDigests.lookup bytes).getD []
      randomBytes := fun draw size => List.replicate size draw.toUInt8
      encrypt := fun _ _ plain => (plain, [])
      decrypt := fun _ _ _ data => some data }

/-- A server with the key `key`. -/
def Server.sample (ownerId : UserId) (key : JsString) : Server :=
  { ownerId, name := key, osType := .UBUNTU, tailscaleIp := js "100.64.0.1",
    apiKeyHash := hashApiKey Env.sample.crypto key, status := .OFFLINE, lastHeartbeatAt := none,
    createdAt := 0 }

/-- The Codex profile of a server. -/
def WorkerProfile.sample (serverId : ServerId) : WorkerProfile :=
  ⟨serverId, .CODEX, js "default", true⟩

/-- User 0 with the servers 0 and 1, user 1 with the server 2. -/
def Hub.sample : Hub where
  users := (Table.empty.insert ⟨js "u0"⟩).insert ⟨js "u1"⟩
  servers := ((Table.empty.insert (.sample 0 (js "a"))).insert (.sample 0 (js "b"))).insert
    (.sample 1 (js "c"))
  workerProfiles := ((Table.empty.insert (.sample 0)).insert (.sample 1)).insert (.sample 2)
  registrations := Table.empty
  tasks := Table.empty
  attempts := Table.empty
  approvals := Table.empty
  jobs := Table.empty
  watchdogScheduled := false
  pushTokens := Table.empty
  sockets := Table.empty
  emitted := []
  notified := []
  pushes := []
  reads := 0
  draws := 0

/-- The daemons of the three servers connect, each on the socket with the number
of its server. -/
def sampleConnects : List HubCall :=
  [.openSocket (some (js "a")), .handleConnection 0, .openSocket (some (js "b")),
    .handleConnection 1, .openSocket (some (js "c")), .handleConnection 2]

theorem Hub.sample_fresh : Hub.sample.Fresh where
  profile_server id profile hrow := by
    have hid : id < 3 := Table.lt_next hrow
    obtain rfl | rfl | rfl : id = 0 ∨ id = 1 ∨ id = 2 := by omega
    all_goals
      cases hrow
      exact ⟨_, rfl⟩
  tasks := rfl
  attempts := rfl
  approvals := rfl
  jobs := rfl
  sockets := rfl
  emitted := rfl

end CodeCaller
