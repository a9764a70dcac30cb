import CodeCaller.Hub.System

/-!
# What a call can do to the rows

`Rows` is the part of the Hub a task, its attempts, its approval and its jobs live in.  `Effect`
lists every change a call can make to it, each with what the code checked before: the handlers are
reduced to chains of effects once, and everything that is to hold in all reachable states is proved
about one effect.

### Main definitions

* `Rows`, `Hub.rows`: the tables of tasks, attempts, approvals, jobs, servers and profiles, with
  the sockets and the messages sent.  What the projection drops (notices, pushes, registrations,
  the counters) no effect speaks of.
* `updateActive`: the update of the latest active attempt of a task, which is how a report of a
  daemon reaches an attempt.
* `Candidate`, `Dispatchable`: what dispatch has found out about a server when it tries it.
* `HubCall.Concerns`: the tasks a call may change at all.
* `Effect env call r r'`: one change `call` makes to the rows `r`.

### What is load-bearing

The grain of an effect.  It is larger than a node, since a handler runs to its end here and the
states between two of its nodes are seen by nobody, and smaller than a call, since a pass over
several candidates is several effects.  Each constructor has the guards the code has established by
then and no others; where a handler skips a check that its siblings make, the constructor has no
hypothesis in that place, and the invariant that would need it cannot be proved.
-/

namespace CodeCaller

open Async

/-! ## Queries on attempts -/

section Queries

variable {env : Env}

@[simp] theorem mem_orderByDesc {ρ : Type} {key : ρ → ℕ} {rows : List (ℕ × ρ)} {row : ℕ × ρ} :
    row ∈ orderByDesc env key rows ↔ row ∈ rows := by
  unfold orderByDesc
  rw [List.mem_insertionSort]
  exact (env.rowOrder_perm rows).mem_iff

theorem orderByDesc_eq_nil {ρ : Type} {key : ρ → ℕ} {rows : List (ℕ × ρ)}
    (h : orderByDesc env key rows = []) : rows = [] := by
  refine List.eq_nil_iff_forall_not_mem.mpr fun row hrow => ?_
  have hmem : row ∈ orderByDesc env key rows := mem_orderByDesc.mpr hrow
  rw [h] at hmem
  cases hmem

/-- The latest active attempt is stored, active, and of a selected task. -/
theorem latestActive_some {attempts : Table TaskAttempt} {selects : TaskId → Bool}
    {id : TaskAttemptId} {attempt : TaskAttempt}
    (h : latestActive env attempts selects = some (id, attempt)) :
    attempts id = some attempt ∧ selects attempt.taskId = true ∧ attempt.active = true := by
  have hmem := List.mem_of_mem_head? h
  rw [mem_orderByDesc, List.mem_filter, Table.mem_toList, Bool.and_eq_true] at hmem
  exact hmem

/-- Without a latest active attempt there is no active one. -/
theorem latestActive_none {attempts : Table TaskAttempt} {selects : TaskId → Bool}
    (h : latestActive env attempts selects = none) {id : TaskAttemptId} {attempt : TaskAttempt}
    (hrow : attempts id = some attempt) (hsel : selects attempt.taskId = true) :
    attempt.active = false := by
  have hnil := orderByDesc_eq_nil (List.head?_eq_none_iff.mp h)
  rw [List.filter_eq_nil_iff] at hnil
  simpa [hsel] using hnil (id, attempt) (Table.mem_toList.mpr hrow)

theorem latestAttempt_some {attempts : Table TaskAttempt} {taskId : TaskId} {id : TaskAttemptId}
    {attempt : TaskAttempt} (h : latestAttempt env attempts taskId = some (id, attempt)) :
    attempts id = some attempt ∧ attempt.taskId = taskId := by
  have hmem := List.mem_of_mem_head? h
  rw [mem_orderByDesc, List.mem_filter, Table.mem_toList, beq_iff_eq] at hmem
  exact hmem

end Queries

/-- The attempts after an update of the latest active one that is selected. -/
def updateActive (env : Env) (selects : TaskId → Bool) (f : TaskAttempt → TaskAttempt)
    (attempts : Table TaskAttempt) : Table TaskAttempt :=
  match latestActive env attempts selects with
  | none => attempts
  | some (id, _) => attempts.modify id f

/-- **An update of the latest active attempt** changes nothing, and then none is
active, or one active attempt. -/
theorem updateActive_cases (env : Env) (selects : TaskId → Bool) (f : TaskAttempt → TaskAttempt)
    (attempts : Table TaskAttempt) :
    (updateActive env selects f attempts = attempts ∧
      ∀ id attempt, attempts id = some attempt → selects attempt.taskId = true →
        attempt.active = false) ∨
    ∃ id attempt, attempts id = some attempt ∧ selects attempt.taskId = true ∧
      attempt.active = true ∧ updateActive env selects f attempts = attempts.modify id f := by
  unfold updateActive
  cases h : latestActive env attempts selects with
  | none => exact .inl ⟨rfl, fun _ _ hrow hsel => latestActive_none h hrow hsel⟩
  | some found =>
    obtain ⟨hrow, hsel, hactive⟩ := latestActive_some h
    exact .inr ⟨found.1, found.2, hrow, hsel, hactive, rfl⟩

/-! ## Rows -/

/-- **The rows the handlers of tasks and approvals work on**, with the sockets
and the messages sent. -/
structure Rows where
  servers : Table Server
  workerProfiles : Table WorkerProfile
  tasks : Table Task
  attempts : Table TaskAttempt
  approvals : Table Approval
  jobs : Table DispatchJob
  sockets : Table DaemonSocket
  emitted : List Emission

/-- The rows of the Hub. -/
def Hub.rows (h : Hub) : Rows where
  servers := h.servers
  workerProfiles := h.workerProfiles
  tasks := h.tasks
  attempts := h.attempts
  approvals := h.approvals
  jobs := h.jobs
  sockets := h.sockets
  emitted := h.emitted

namespace Rows

/-- The owner of the server a task is on. -/
def ownerOf (r : Rows) (taskId : TaskId) : Option UserId :=
  (r.tasks taskId).bind fun task => (r.servers task.serverId).map (·.ownerId)

/-- The number of attempts of a task the watchdog has closed. -/
def timedOut (r : Rows) (taskId : TaskId) : ℕ :=
  r.attempts.count fun attempt => attempt.taskId == taskId && attempt.status == .TIMED_OUT

/-- **What dispatch checked before it tries a server for a task**: the task is
queued for Codex; the server is online by its row, is owned by the owner of the
server the task is on, and no attempt spent it. -/
structure Candidate (r : Rows) (taskId : TaskId) (serverId : ServerId) : Prop where
  queued : ∃ task home server, r.tasks taskId = some task ∧ task.status = .QUEUED ∧
    task.workerType = .CODEX ∧ r.servers task.serverId = some home ∧
    r.servers serverId = some server ∧ server.ownerId = home.ownerId ∧ server.status = .ONLINE
  unspent : ∀ id attempt, r.attempts id = some attempt → attempt.taskId = taskId →
    spentAttempt attempt = true → attempt.serverId ≠ serverId

/-- **A queued task dispatch can place**: some candidate has an enabled Codex
profile and a connected daemon. -/
def Dispatchable (r : Rows) (taskId : TaskId) : Prop :=
  ∃ serverId, r.Candidate taskId serverId ∧
    (∃ id profile, r.workerProfiles id = some profile ∧ profile.serverId = serverId ∧
      profile.enabled = true ∧ profile.provider = .CODEX) ∧
    ∃ id socket, r.sockets id = some socket ∧ socket.room = some serverId

end Rows

@[simp] theorem Hub.rows_ownerOf (h : Hub) (taskId : TaskId) :
    h.rows.ownerOf taskId = h.ownerOf taskId := rfl

/-! ## Calls and the tasks they are about -/

/-- The `taskId` of a message of a daemon. -/
def HubCall.reports : HubCall → Option TaskRef
  | message _ (.TASK_STATUS_UPDATE payload) => some payload.taskId
  | message _ (.TASK_LOG payload) => some payload.taskId
  | message _ (.TASK_RESULT payload) => some payload.taskId
  | message _ (.APPROVAL_REQUEST payload) => some payload.taskId
  | _ => none

/-- **The tasks whose rows a call may change**: those of its user, and those the
`taskId` of its message selects. -/
def HubCall.Concerns (call : HubCall) (r : Rows) (taskId : TaskId) : Prop :=
  (∀ user, call.user = some user → r.ownerOf taskId = some user) ∧
    ∀ ref, call.reports = some ref → ∃ selects, ref.selects = some selects ∧
      selects taskId = true

/-- The calls by which a socket tells that its server is there or gone. -/
def HubCall.Signals : HubCall → Prop
  | handleConnection _ | handleDisconnect _ | message _ .HEARTBEAT => True
  | _ => False

theorem HubCall.Signals.user {call : HubCall} (h : call.Signals) : call.user = none := by
  unfold HubCall.Signals at h
  split at h <;> first | rfl | exact h.elim

/-- The calls that write a status to a task that is there, apart from dispatch and
the watchdog. -/
def HubCall.Writes : HubCall → Prop
  | message _ (.TASK_STATUS_UPDATE _) | message _ (.TASK_RESULT _)
  | message _ (.APPROVAL_REQUEST _) | decideApproval _ _ _ | cancel _ _ => True
  | _ => False

/-- An active attempt a message was received for. -/
def TaskAttempt.seen (date : Time) (attempt : TaskAttempt) : TaskAttempt :=
  { attempt with status := .RUNNING, lastSeenAt := date }

/-- An active attempt the watchdog closes. -/
def TaskAttempt.expired (env : Env) (finished : Time) (attempt : TaskAttempt) : TaskAttempt :=
  { attempt with
    status := .TIMED_OUT
    failureReason := some (TasksProcessor.watchdogReason env)
    finishedAt := some finished }

/-- An approval with the decision of the owner. -/
def Approval.decided (dto : DecideApprovalDto) (date : Time) (approval : Approval) : Approval :=
  { approval with
    status := if dto.approve then .APPROVED else .REJECTED
    decidedAt := some date
    reason := match dto.reason with
      | some reason => some reason
      | none => approval.reason }

/-- An active attempt that a result closes. -/
def TaskAttempt.closed (payload : DaemonTaskResultPayload) (lastSeen finished : Time)
    (attempt : TaskAttempt) : TaskAttempt :=
  if TasksService.isRetryableCapacityFailure payload then
    { attempt with
      status := .FAILED
      failureReason := some (TasksService.formatStructuredFailureReason payload)
      lastSeenAt := lastSeen
      finishedAt := some finished }
  else
    { attempt with
      status := if payload.status = .status .COMPLETED then .SUCCEEDED else .FAILED
      failureReason := if payload.status = .status .FAILED
        then some (js "Daemon reported task failure.") else attempt.failureReason
      lastSeenAt := lastSeen
      finishedAt := some finished }

/-! ## Effects -/

/-- **One change a call makes to the rows.** -/
inductive Effect (env : Env) (call : HubCall) : Rows → Rows → Prop where
  /-- `submit`: a task and its first job. -/
  | submitted (r : Rows) {ownerId : UserId} {dto : CreateTaskDto} {server : Server} (date : Time)
      (hcall : call = .submit ownerId dto) (hserver : r.servers dto.serverId = some server)
      (howner : server.ownerId = ownerId) :
      Effect env call r { r with
        tasks := r.tasks.insert
          { serverId := dto.serverId, workerType := dto.workerType, status := .QUEUED,
            input := dto.input, result := none, logs := [], createdAt := date,
            updatedAt := date }
        jobs := r.jobs.insert ⟨some r.tasks.next, 0, 5, .waiting⟩ }
  /-- `touchRunningAttempt`. -/
  | touched (r : Rows) {ref : TaskRef} {selects : TaskId → Bool} (date : Time)
      (hcall : call.reports = some ref) (hsel : ref.selects = some selects) :
      Effect env call r { r with
        attempts := updateActive env selects (TaskAttempt.seen date) r.attempts }
  /-- `finishRunningAttempt`. -/
  | settled (r : Rows) {socketId : ℕ} {payload : DaemonTaskResultPayload}
      {selects : TaskId → Bool} (lastSeen finished : Time)
      (hcall : call = .message socketId (.TASK_RESULT payload))
      (hsel : payload.taskId.selects = some selects) :
      Effect env call r { r with
        attempts := updateActive env selects (TaskAttempt.closed payload lastSeen finished)
          r.attempts }
  /-- An update of a task that leaves it where it is. -/
  | relabelled (r : Rows) {taskId : TaskId} {f : Task → Task}
      (hconcern : call.Concerns r taskId) (hserver : ∀ task, (f task).serverId = task.serverId)
      (hworker : ∀ task, (f task).workerType = task.workerType)
      (hstatus : ∀ task, (f task).status = task.status ∨
        call.Writes ∧ (call.Typed → (f task).status ≠ .QUEUED)) :
      Effect env call r { r with tasks := r.tasks.modify taskId f }
  /-- A capacity failure with another candidate: the attempt is closed, the task
  waits again. -/
  | failedOver (r : Rows) {socketId : ℕ} {payload : DaemonTaskResultPayload} {taskId : TaskId}
      {task : Task} (lastSeen finished updated : Time) (logs : JsString)
      (hcall : call = .message socketId (.TASK_RESULT payload))
      (hid : payload.taskId = .id taskId)
      (hcapacity : TasksService.isRetryableCapacityFailure payload = true)
      (htask : r.tasks taskId = some task) :
      Effect env call r { r with
        attempts := updateActive env (fun other => other == taskId)
          (TaskAttempt.closed payload lastSeen finished) r.attempts
        tasks := r.tasks.modify taskId fun row =>
          { row with status := .QUEUED, logs, updatedAt := updated }
        jobs := r.jobs.insert ⟨some taskId, 0, 5, .waiting⟩ }
  /-- Dispatch reached a candidate. -/
  | assigned (r : Rows) {jobId : ℕ} {job : DispatchJob} {taskId : TaskId} {serverId : ServerId}
      (input : Json) (started lastSeen updated : Time) (hcall : call = .dispatch jobId)
      (hjob : r.jobs jobId = some job) (hid : job.taskId = some taskId)
      (hcandidate : r.Candidate taskId serverId) :
      Effect env call r { r with
        attempts := r.attempts.insert
          { taskId, serverId, status := .RUNNING, failureReason := none, startedAt := started,
            lastSeenAt := lastSeen, finishedAt := none }
        tasks := r.tasks.modify taskId fun row =>
          { row with serverId, status := .RUNNING, updatedAt := updated }
        emitted := r.emitted ++ [⟨serverId, .TASK_SUBMIT taskId input⟩] }
  /-- Dispatch did not reach a candidate. -/
  | rejected (r : Rows) {jobId : ℕ} {job : DispatchJob} {taskId : TaskId} {serverId : ServerId}
      (started lastSeen finished : Time) (hcall : call = .dispatch jobId)
      (hjob : r.jobs jobId = some job) (hid : job.taskId = some taskId)
      (hcandidate : r.Candidate taskId serverId) :
      Effect env call r { r with
        attempts := r.attempts.insert
          { taskId, serverId, status := .FAILED,
            failureReason := some (HubError.offline serverId).message, startedAt := started,
            lastSeenAt := lastSeen, finishedAt := some finished } }
  /-- The queue records the outcome of a job. -/
  | jobTaken (r : Rows) {jobId : ℕ} {job : DispatchJob} (outcome : Except HubError Unit)
      (hcall : call = .dispatch jobId) (hjob : r.jobs jobId = some job) :
      Effect env call r { r with jobs := r.jobs.modify jobId fun _ => job.after outcome }
  /-- The watchdog gives a task up. -/
  | expired (r : Rows) {taskId : TaskId} {task : Task} {id : TaskAttemptId}
      {attempt : TaskAttempt} (finished updated : Time) (logs : JsString)
      (hcall : call = .watchdog) (htask : r.tasks taskId = some task)
      (hrunning : task.status = .RUNNING) (hattempt : r.attempts id = some attempt)
      (hid : attempt.taskId = taskId) (hactive : attempt.active = true)
      (hcount : TasksService.watchdogMaxRequeues env ≤ r.timedOut taskId) :
      Effect env call r { r with
        attempts := r.attempts.modify id (TaskAttempt.expired env finished)
        tasks := r.tasks.modify taskId fun row =>
          { row with status := .FAILED, logs, updatedAt := updated } }
  /-- The watchdog queues a task again. -/
  | requeued (r : Rows) {taskId : TaskId} {task : Task} {id : TaskAttemptId}
      {attempt : TaskAttempt} (finished updated : Time) (logs : JsString)
      (hcall : call = .watchdog) (htask : r.tasks taskId = some task)
      (hrunning : task.status = .RUNNING) (hattempt : r.attempts id = some attempt)
      (hid : attempt.taskId = taskId) (hactive : attempt.active = true)
      (hcount : r.timedOut taskId < TasksService.watchdogMaxRequeues env) :
      Effect env call r { r with
        attempts := r.attempts.modify id (TaskAttempt.expired env finished)
        tasks := r.tasks.modify taskId fun row =>
          { row with status := .QUEUED, logs, updatedAt := updated }
        jobs := r.jobs.insert ⟨some taskId, 0, 5, .waiting⟩ }
  /-- A daemon asked for approval of a task that has none. -/
  | approvalCreated (r : Rows) {socketId : ℕ} {payload : DaemonApprovalRequestPayload}
      {taskId : TaskId} {task : Task} (date : Time)
      (hcall : call = .message socketId (.APPROVAL_REQUEST payload))
      (hid : payload.taskId = .id taskId) (htask : r.tasks taskId = some task)
      (hnone : ∀ id approval, r.approvals id = some approval → approval.taskId ≠ taskId) :
      Effect env call r { r with
        approvals := r.approvals.insert
          { taskId, status := .PENDING, requestedAt := date, decidedAt := none,
            reason := payload.reason } }
  /-- The owner decided. -/
  | approvalDecided (r : Rows) {ownerId : UserId} {approvalId : ApprovalId}
      {dto : DecideApprovalDto} {approval : Approval} (date : Time)
      (hcall : call = .decideApproval ownerId approvalId dto)
      (happroval : r.approvals approvalId = some approval) (hpending : approval.status = .PENDING)
      (howner : r.ownerOf approval.taskId = some ownerId) :
      Effect env call r { r with
        approvals := r.approvals.modify approvalId (Approval.decided dto date) }
  /-- A cancellation or a decision was sent to the server the task is on. -/
  | sent (r : Rows) {message : DaemonOutbound} {task : Task}
      (hconcern : call.Concerns r message.taskId) (htask : r.tasks message.taskId = some task)
      (honline : ∃ id socket, r.sockets id = some socket ∧ socket.room = some task.serverId)
      (hmessage : (∃ ownerId, call = .cancel ownerId message.taskId ∧
          message = .TASK_CANCEL message.taskId) ∨
        ∃ ownerId approvalId dto approval, call = .decideApproval ownerId approvalId dto ∧
          r.approvals approvalId = some approval ∧ approval.taskId = message.taskId ∧
          approval.status = (if dto.approve then .APPROVED else .REJECTED) ∧
          message = .APPROVAL_DECISION message.taskId dto.approve dto.reason) :
      Effect env call r { r with emitted := r.emitted ++ [⟨task.serverId, message⟩] }
  /-- A server was created with its worker profiles. -/
  | serverAdded (r : Rows) {server : Server} (profiles : List (WorkerProvider × JsString × Bool))
      (howner : call.user = some server.ownerId) :
      Effect env call r { r with
        servers := r.servers.insert server
        workerProfiles := profiles.foldl (fun table profile =>
          table.insert ⟨r.servers.next, profile.1, profile.2.1, profile.2.2⟩) r.workerProfiles }
  /-- The status of a server followed one of its sockets. -/
  | serverMarked (r : Rows) {serverId : ServerId} {f : Server → Server} (hcall : call.Signals)
      (howner : ∀ server, (f server).ownerId = server.ownerId) :
      Effect env call r { r with servers := r.servers.modify serverId f }
  /-- A server was deleted with all that refers to it. -/
  | serverDeleted (r : Rows) {ownerId : UserId} {serverId : ServerId} {server : Server}
      (hcall : call = .removeServer ownerId serverId) (hserver : r.servers serverId = some server)
      (howner : server.ownerId = ownerId) :
      Effect env call r { r with
        servers := r.servers.filter fun id _ => id != serverId
        workerProfiles := r.workerProfiles.filter fun _ profile => profile.serverId != serverId
        tasks := r.tasks.filter fun _ task => task.serverId != serverId
        attempts := r.attempts.filter fun _ attempt => attempt.serverId != serverId &&
          (r.tasks attempt.taskId).any fun task => task.serverId != serverId
        approvals := r.approvals.filter fun _ approval =>
          (r.tasks approval.taskId).any fun task => task.serverId != serverId }
  | socketOpened (r : Rows) {apiKey : Option JsString} (hcall : call = .openSocket apiKey) :
      Effect env call r { r with sockets := r.sockets.insert ⟨apiKey, none, none⟩ }
  /-- The key of a socket was that of a server. -/
  | socketAccepted (r : Rows) {socketId : ℕ} {serverId : ServerId} {server : Server}
      (hcall : call = .handleConnection socketId) (hserver : r.servers serverId = some server) :
      Effect env call r { r with
        sockets := r.sockets.modify socketId fun socket =>
          { socket with data := some (serverId, server.ownerId), room := some serverId } }
  | socketClosed (r : Rows) (socketId : ℕ)
      (hcall : call = .handleConnection socketId ∨ call = .handleDisconnect socketId) :
      Effect env call r { r with sockets := r.sockets.filter fun id _ => id != socketId }

end CodeCaller
