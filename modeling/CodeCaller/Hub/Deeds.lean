import CodeCaller.Hub.Handlers
import CodeCaller.Hub.Nodes
import CodeCaller.Library.Recall

/-!
# What a node of a call does, and why

A `Deed` is what one node of an interleaved call does to the Hub: a write to the rows, a notice to
an app, or nothing of either.  Every change comes with the reason its call has for it: a row that
an earlier node of the same call has found, or a write that an earlier node has made.

### Main definitions

* `Past`: the nodes a call has run, each with the state it found and the state it left.
* `Entitled`, `FoundFor`, `Authenticated`, `Signalled`: what a call may have found out about a
  task, a server or a socket.  Each is about the past only.
* `SendReason`, `NoticeReason`, `StatusReason`: why a message goes to the room of a server, why a
  user is told about a row, why a task gets a status.
* `Write`: the writes of a node to `Rows`, with their reasons; `Deed` puts them together with the
  notices and with what is kept of the registrations.

### Effects and deeds

An `Effect` describes a call that nothing interrupts, and may say that what the call has checked is
still so.  A deed is one node, and nothing is said about the time before it: a reason may be out of
date when it is acted on.  Which reasons are still good is a question about the history of the Hub,
and `Hub.Archive` answers it for the columns that never change.
-/

namespace CodeCaller

open Async

/-! ## What a call may have found -/

/-- The nodes a call has run: the states it found and the states it left. -/
abbrev Past := List (Hub × Hub)

namespace Hub

/-- A task is on a server. -/
def TaskOn (h : Hub) (taskId : TaskId) (serverId : ServerId) : Prop :=
  ∃ task, h.tasks taskId = some task ∧ task.serverId = serverId

/-- A server belongs to a user. -/
def ServerOf (h : Hub) (serverId : ServerId) (ownerId : UserId) : Prop :=
  ∃ server, h.servers serverId = some server ∧ server.ownerId = ownerId

/-- A server is stored under the digest of a key. -/
def HasKey (env : Env) (h : Hub) (serverId : ServerId) (apiKey : JsString) : Prop :=
  ∃ server, h.servers serverId = some server ∧
    server.apiKeyHash = hashApiKey env.crypto apiKey

/-- A task of a user has asked for an approval. -/
structure AskedOf (h : Hub) (approvalId : ApprovalId) (ownerId : UserId) (taskId : TaskId) :
    Prop where
  approval : ∃ approval, h.approvals approvalId = some approval ∧ approval.taskId = taskId
  owner : h.ownerOf taskId = some ownerId

end Hub

/-- The calls of the Hub's own queue, which may be about any task. -/
def HubCall.Queued (call : HubCall) : Prop := (∃ jobId, call = .dispatch jobId) ∨ call = .watchdog

/-- **The tasks a call has a reason to write to**: a task that was of its user when it looked,
and a task its message selects. -/
structure HubCall.Entitled (call : HubCall) (past : Past) (taskId : TaskId) : Prop where
  user : ∀ user, call.user = some user → Saw past fun h => h.ownerOf taskId = some user
  reports : ∀ ref, call.reports = some ref →
    ∃ selects, ref.selects = some selects ∧ selects taskId = true
  queued : call.user = none → call.reports = none → call.Queued

/-- **A server found for a task**: one of the user who owned the server the task was on. -/
def FoundFor (past : Past) (taskId : TaskId) (serverId : ServerId) : Prop :=
  ∃ home ownerId, (Saw past fun h => h.TaskOn taskId home) ∧
    (Saw past fun h => h.ServerOf home ownerId) ∧ Saw past fun h => h.ServerOf serverId ownerId

/-- The server that `findByApiKey` found for the key of a socket. -/
def Authenticated (env : Env) (past : Past) (socketId : ℕ) (serverId : ServerId)
    (ownerId : UserId) : Prop :=
  ∃ apiKey, (Saw past fun h => DaemonGateway.handshakeKey h socketId = some apiKey) ∧
    Saw past fun h => h.ServerOf serverId ownerId ∧ h.HasKey env serverId apiKey

/-- A server whose socket the call is about. -/
def Signalled (env : Env) (call : HubCall) (past : Past) (serverId : ServerId) : Prop :=
  (∃ socketId ownerId, call = .handleConnection socketId ∧
    Authenticated env past socketId serverId ownerId) ∨
  ∃ socketId ownerId, (call = .handleDisconnect socketId ∨ call = .message socketId .HEARTBEAT) ∧
    Saw past fun h => (h.sockets socketId).bind (·.data) = some (serverId, ownerId)

/-! ## Reasons -/

/-- **Why a message goes to the room of a server.** -/
inductive SendReason (call : HubCall) (past : Past) : ServerId → DaemonOutbound → Prop where
  | cancel {ownerId : UserId} {taskId : TaskId} {serverId : ServerId}
      (hcall : call = .cancel ownerId taskId)
      (howner : Saw past fun h => h.ownerOf taskId = some ownerId)
      (hon : Saw past fun h => h.TaskOn taskId serverId) :
      SendReason call past serverId (.TASK_CANCEL taskId)
  /-- The decision is stored before it is sent. -/
  | decision {ownerId : UserId} {approvalId : ApprovalId} {dto : DecideApprovalDto}
      {taskId : TaskId} {serverId : ServerId}
      (hcall : call = .decideApproval ownerId approvalId dto)
      (hasked : Saw past fun h => h.AskedOf approvalId ownerId taskId ∧ h.TaskOn taskId serverId)
      (hstored : Left past fun h => ∃ approval, h.approvals approvalId = some approval ∧
        approval.status = if dto.approve then .APPROVED else .REJECTED) :
      SendReason call past serverId (.APPROVAL_DECISION taskId dto.approve dto.reason)
  /-- An attempt on the server is stored before the task is sent there. -/
  | submit {jobId : ℕ} {taskId : TaskId} {serverId : ServerId} {input : Json}
      (hcall : call = .dispatch jobId) (hfound : FoundFor past taskId serverId)
      (hinput : Saw past fun h => ∃ task, h.tasks taskId = some task ∧ task.input = input)
      (hattempt : Left past fun h => ∃ id attempt, h.attempts id = some attempt ∧
        attempt.taskId = taskId ∧ attempt.serverId = serverId) :
      SendReason call past serverId (.TASK_SUBMIT taskId input)

/-- **Why a user is told about a row**: the call has left it as it is told, and has found the
user to be its owner. -/
inductive NoticeReason (past : Past) : UserId → AppOutbound → Prop where
  | updated {ownerId : UserId} {taskId : TaskId} {task : Task}
      (hrow : Left past fun h => h.tasks taskId = some task)
      (howner : (Saw past fun h => h.ownerOf taskId = some ownerId) ∨
        Saw past fun h => h.ServerOf task.serverId ownerId) :
      NoticeReason past ownerId (.TASK_UPDATED taskId task)
  | pending {ownerId : UserId} {approvalId : ApprovalId} {approval : Approval}
      (hrow : Left past fun h => h.approvals approvalId = some approval)
      (howner : Saw past fun h => h.ownerOf approval.taskId = some ownerId) :
      NoticeReason past ownerId (.APPROVAL_PENDING approvalId approval)
  | resolved {ownerId : UserId} {approvalId : ApprovalId} {approval : Approval} {taskId : TaskId}
      (hrow : Left past fun h => h.approvals approvalId = some approval)
      (hasked : Saw past fun h => h.AskedOf approvalId ownerId taskId) :
      NoticeReason past ownerId (.APPROVAL_RESOLVED approvalId approval)

/-- The status a message of a daemon names. -/
def DaemonInbound.status : DaemonInbound → StatusRef
  | TASK_STATUS_UPDATE payload => payload.status
  | TASK_RESULT payload => payload.status
  | HEARTBEAT | TASK_LOG _ | APPROVAL_REQUEST _ => .undefined

/-- **Why a task gets a status.** -/
inductive StatusReason (call : HubCall) (past : Past) (taskId : TaskId) : TaskStatus → Prop where
  | reported {socketId : ℕ} {inbound : DaemonInbound} {status : TaskStatus}
      (hcall : call = .message socketId inbound) (hreports : call.reports = some (.id taskId))
      (hstatus : inbound.status = .status status) : StatusReason call past taskId status
  | asked {socketId : ℕ} {payload : DaemonApprovalRequestPayload}
      (hcall : call = .message socketId (.APPROVAL_REQUEST payload))
      (hid : payload.taskId = .id taskId) : StatusReason call past taskId .AWAITING_APPROVAL
  | decided {ownerId : UserId} {approvalId : ApprovalId} {dto : DecideApprovalDto}
      (hcall : call = .decideApproval ownerId approvalId dto)
      (hasked : Saw past fun h => h.AskedOf approvalId ownerId taskId) :
      StatusReason call past taskId (if dto.approve then .RUNNING else .CANCELLED)
  | cancelled {ownerId : UserId} (hcall : call = .cancel ownerId taskId)
      (howner : Saw past fun h => h.ownerOf taskId = some ownerId) :
      StatusReason call past taskId .CANCELLED
  | placed {jobId : ℕ} (hcall : call = .dispatch jobId) : StatusReason call past taskId .RUNNING
  /-- The Hub gives the task back to the queue, or gives it up. -/
  | returned {status : TaskStatus} (hown : call.user = none)
      (hstatus : status = .QUEUED ∨ status = .FAILED) : StatusReason call past taskId status

/-! ## Deeds -/

/-- **One write of a node to the rows, with its reason.** -/
inductive Write (env : Env) (call : HubCall) (past : Past) : Rows → Rows → Prop where
  | serverAdded (r : Rows) {server : Server} (profiles : List (WorkerProvider × JsString × Bool))
      (howner : call.user = some server.ownerId) :
      Write env call past r { r with
        servers := r.servers.insert server
        workerProfiles := profiles.foldl (fun table profile =>
          table.insert ⟨r.servers.next, profile.1, profile.2.1, profile.2.2⟩) r.workerProfiles }
  | serverMarked (r : Rows) {serverId : ServerId} {f : Server → Server}
      (hsignalled : Signalled env call past serverId)
      (hkeeps : ∀ server, (f server).ownerId = server.ownerId ∧
        (f server).apiKeyHash = server.apiKeyHash) :
      Write env call past r { r with servers := r.servers.modify serverId f }
  | serverDeleted (r : Rows) {ownerId : UserId} {serverId : ServerId}
      (hcall : call = .removeServer ownerId serverId)
      (howner : Saw past fun h => h.ServerOf serverId ownerId) :
      Write env call past r { r with
        servers := r.servers.filter fun id _ => id != serverId
        workerProfiles := r.workerProfiles.filter fun _ profile => profile.serverId != serverId
        tasks := r.tasks.filter fun _ task => task.serverId != serverId
        attempts := r.attempts.filter fun _ attempt => attempt.serverId != serverId &&
          (r.tasks attempt.taskId).any fun task => task.serverId != serverId
        approvals := r.approvals.filter fun _ approval =>
          (r.tasks approval.taskId).any fun task => task.serverId != serverId }
  | taskCreated (r : Rows) {ownerId : UserId} {dto : CreateTaskDto} {task : Task}
      (hcall : call = .submit ownerId dto) (hserver : r.servers dto.serverId ≠ none)
      (howner : Saw past fun h => h.ServerOf dto.serverId ownerId)
      (hon : task.serverId = dto.serverId) (hinput : task.input = dto.input)
      (hstatus : task.status = .QUEUED) :
      Write env call past r { r with tasks := r.tasks.insert task }
  | taskWritten (r : Rows) {taskId : TaskId} {f : Task → Task}
      (hentitled : call.Entitled past taskId)
      (hkeeps : ∀ task, (f task).serverId = task.serverId ∧ (f task).input = task.input)
      (hstatus : ∀ task, (f task).status = task.status ∨
        StatusReason call past taskId (f task).status) :
      Write env call past r { r with tasks := r.tasks.modify taskId f }
  /-- Dispatch records where it has sent a task. -/
  | taskMoved (r : Rows) {jobId : ℕ} {taskId : TaskId} {serverId : ServerId} {f : Task → Task}
      (hcall : call = .dispatch jobId) (hfound : FoundFor past taskId serverId)
      (hserver : (∀ task, r.tasks taskId = some task → task.serverId = serverId) ∨
        r.servers serverId ≠ none)
      (hmoves : ∀ task, (f task).serverId = serverId ∧ (f task).input = task.input)
      (hstatus : ∀ task, StatusReason call past taskId (f task).status) :
      Write env call past r { r with tasks := r.tasks.modify taskId f }
  | attemptCreated (r : Rows) {jobId : ℕ} {attempt : TaskAttempt} (hcall : call = .dispatch jobId)
      (htask : r.tasks attempt.taskId ≠ none) (hserver : r.servers attempt.serverId ≠ none)
      (hfound : FoundFor past attempt.taskId attempt.serverId) :
      Write env call past r { r with attempts := r.attempts.insert attempt }
  | attemptWritten (r : Rows) {id : TaskAttemptId} {f : TaskAttempt → TaskAttempt}
      (huser : call.user = none)
      (hselected : ∀ ref, call.reports = some ref → ∃ selects, ref.selects = some selects ∧
        Saw past fun h => ∃ attempt, h.attempts id = some attempt ∧ selects attempt.taskId = true)
      (hqueued : call.reports = none → call.Queued)
      (hkeeps : ∀ attempt, (f attempt).taskId = attempt.taskId ∧
        (f attempt).serverId = attempt.serverId) :
      Write env call past r { r with attempts := r.attempts.modify id f }
  | jobAdded (r : Rows) (taskId : TaskId) :
      Write env call past r { r with jobs := r.jobs.insert ⟨some taskId, 0, 5, .waiting⟩ }
  | jobWritten (r : Rows) {jobId : ℕ} (job : DispatchJob) (outcome : Except HubError Unit)
      (hcall : call = .dispatch jobId) :
      Write env call past r { r with jobs := r.jobs.modify jobId fun _ => job.after outcome }
  | approvalCreated (r : Rows) {socketId : ℕ} {payload : DaemonApprovalRequestPayload}
      {approval : Approval} (hcall : call = .message socketId (.APPROVAL_REQUEST payload))
      (hid : payload.taskId = .id approval.taskId) (hreason : approval.reason = payload.reason)
      (hpending : approval.status = .PENDING) (hundecided : approval.decidedAt = none)
      (htask : r.tasks approval.taskId ≠ none)
      (hnone : ∀ id other, r.approvals id = some other → other.taskId ≠ approval.taskId) :
      Write env call past r { r with approvals := r.approvals.insert approval }
  | approvalDecided (r : Rows) {ownerId : UserId} {approvalId : ApprovalId}
      {dto : DecideApprovalDto} {taskId : TaskId} (date : Time)
      (hcall : call = .decideApproval ownerId approvalId dto)
      (hasked : Saw past fun h => h.AskedOf approvalId ownerId taskId) :
      Write env call past r { r with
        approvals := r.approvals.modify approvalId (Approval.decided dto date) }
  | sent (r : Rows) {serverId : ServerId} {message : DaemonOutbound}
      (hreason : SendReason call past serverId message) :
      Write env call past r { r with emitted := r.emitted ++ [⟨serverId, message⟩] }
  | socketOpened (r : Rows) {apiKey : Option JsString} (hcall : call = .openSocket apiKey) :
      Write env call past r { r with sockets := r.sockets.insert ⟨apiKey, none, none⟩ }
  | socketAuthenticated (r : Rows) {socketId : ℕ} {serverId : ServerId} {ownerId : UserId}
      (hcall : call = .handleConnection socketId)
      (hkey : Authenticated env past socketId serverId ownerId) :
      Write env call past r { r with
        sockets := r.sockets.modify socketId fun socket =>
          { socket with data := some (serverId, ownerId) } }
  | socketJoined (r : Rows) {socketId : ℕ} {serverId : ServerId} {ownerId : UserId}
      (hcall : call = .handleConnection socketId)
      (hkey : Authenticated env past socketId serverId ownerId) :
      Write env call past r { r with
        sockets := r.sockets.modify socketId fun socket => { socket with room := some serverId } }
  | socketClosed (r : Rows) {socketId : ℕ}
      (hcall : call = .handleConnection socketId ∨ call = .handleDisconnect socketId) :
      Write env call past r { r with sockets := r.sockets.filter fun id _ => id != socketId }

/-- Requests for a registration come and are decided, and never change hands. -/
def Hub.RegistrationsKept (h h' : Hub) : Prop :=
  h.registrations.Evolves ServerRegistrationRequest.ownerId h'.registrations

/-- **What a node of a call does to the Hub**: nothing to the rows and the notices, one write
to the rows, or one notice. -/
inductive Deed (env : Env) (call : HubCall) (past : Past) (h : Hub) : Hub → Prop where
  | quiet {h' : Hub} (hrows : h'.rows = h.rows) (hnotified : h'.notified = h.notified)
      (hregistrations : h.RegistrationsKept h') : Deed env call past h h'
  | wrote {h' : Hub} (hwritten : Write env call past h.rows h'.rows)
      (hnotified : h'.notified = h.notified) (hregistrations : h.RegistrationsKept h') :
      Deed env call past h h'
  | notified {h' : Hub} {userId : UserId} {message : AppOutbound}
      (hreason : NoticeReason past userId message) (hrows : h'.rows = h.rows)
      (hnotified : h'.notified = h.notified ++ [(userId, message)])
      (hregistrations : h.RegistrationsKept h') : Deed env call past h h'

theorem Hub.RegistrationsKept.of_eq {h h' : Hub} (hsame : h'.registrations = h.registrations) :
    h.RegistrationsKept h' := Table.Evolves.of_eq hsame

/-- A stored request is updated. -/
theorem Hub.RegistrationsKept.updated {h h' : Hub} {requestId : RegistrationId}
    {request request' : ServerRegistrationRequest}
    (hrow : h.registrations requestId = some request)
    (hafter : h'.registrations = h.registrations.modify requestId fun _ => request')
    (howner : request'.ownerId = request.ownerId) : h.RegistrationsKept h' := by
  unfold RegistrationsKept
  rw [hafter]
  refine Table.evolves_modify _ _ fun stored hstored => ?_
  rw [hrow] at hstored
  cases hstored
  exact howner

theorem Deed.refl {env : Env} {call : HubCall} (past : Past) (h : Hub) : Deed env call past h h :=
  .quiet rfl rfl (.of_eq rfl)

/-- A write to the rows, by an operation that does nothing else. -/
theorem Deed.of_write {env : Env} {call : HubCall} {past : Past} {h h' : Hub}
    (hwritten : Write env call past h.rows h'.rows)
    (hnotified : h'.notified = h.notified) (hregistrations : h'.registrations = h.registrations) :
    Deed env call past h h' :=
  .wrote hwritten hnotified (.of_eq hregistrations)

/-- What was found stays found; the same holds for the other reasons. -/
theorem FoundFor.later {past past' : Past} {taskId : TaskId} {serverId : ServerId}
    (h : FoundFor past taskId serverId) (hgrows : past <+: past') :
    FoundFor past' taskId serverId := by
  obtain ⟨home, ownerId, hon, hhome, hserver⟩ := h
  exact ⟨home, ownerId, hon.later hgrows, hhome.later hgrows, hserver.later hgrows⟩

theorem SendReason.later {call : HubCall} {past past' : Past} {serverId : ServerId}
    {message : DaemonOutbound} (h : SendReason call past serverId message)
    (hgrows : past <+: past') : SendReason call past' serverId message := by
  cases h with
  | cancel hcall howner hon => exact .cancel hcall (howner.later hgrows) (hon.later hgrows)
  | decision hcall hasked hstored =>
      exact .decision hcall (hasked.later hgrows) (hstored.later hgrows)
  | submit hcall hfound hinput hattempt =>
      exact .submit hcall (hfound.later hgrows) (hinput.later hgrows) (hattempt.later hgrows)

theorem Authenticated.later {env : Env} {past past' : Past} {socketId : ℕ} {serverId : ServerId}
    {ownerId : UserId} (h : Authenticated env past socketId serverId ownerId)
    (hgrows : past <+: past') : Authenticated env past' socketId serverId ownerId := by
  obtain ⟨apiKey, hkey, hserver⟩ := h
  exact ⟨apiKey, hkey.later hgrows, hserver.later hgrows⟩

theorem Signalled.later {env : Env} {call : HubCall} {past past' : Past} {serverId : ServerId}
    (h : Signalled env call past serverId) (hgrows : past <+: past') :
    Signalled env call past' serverId := by
  rcases h with ⟨socketId, ownerId, hcall, hkey⟩ | ⟨socketId, ownerId, hcall, hdata⟩
  · exact .inl ⟨socketId, ownerId, hcall, hkey.later hgrows⟩
  · exact .inr ⟨socketId, ownerId, hcall, hdata.later hgrows⟩

end CodeCaller
