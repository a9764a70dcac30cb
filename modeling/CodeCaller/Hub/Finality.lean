import CodeCaller.Hub.ApprovalRuns
import CodeCaller.Hub.DaemonChannel
import CodeCaller.Hub.Failover

/-!
# Terminal statuses

Seven handlers write the status of a task, and five of them do so whatever the status was.
`WritesStatus` says, for a call and the state it finds, which task gets which status; with it the
runs in which a terminal status is final are told apart exactly from those in which it is not.

### Main definitions

* `HubCall.WritesStatus`: what a call writes, from what it finds.  For a capacity failure this
  depends on whether a server remains (`Rows.Remains`), in terms of the rows before the attempt is
  closed.
* `HubCall.Harmless`: a call that writes to a terminal task the status it has, or nothing.
* `TerminalFinal`: whatever two states of a run are compared, a task that is terminal in the first
  one has the same status in the second, unless it was deleted.

### Main results

* `writes_spec`: each of the calls writes what `WritesStatus` says, and not merely at most that.
* `after_kept_iff`: one call keeps the terminal statuses exactly when it is harmless.
* `terminal_final_iff`: and so does a run.  `terminal_not_final` is a run that does not.

### What is load-bearing

The exactness of `WritesStatus`.  An invariant would need an upper bound of what a call may write;
for the converse there has to be a lemma for each handler that says it gets as far as its update,
which is why deliveries, approvals and candidates come up here at all.
-/

namespace CodeCaller

open Async

variable {env : Env} {call : HubCall} {r r' : Rows} {h : Hub} {α β : Type}

/-- **A server that is left for a task** once its active attempt is closed for
capacity: online by its row, owned by the same user, with an enabled Codex
profile, and without an attempt of the task that is active or spent it. -/
structure Rows.Remains (r : Rows) (taskId : TaskId) (serverId : ServerId) : Prop where
  online : ∃ task home server, r.tasks taskId = some task ∧ r.servers task.serverId = some home ∧
    r.servers serverId = some server ∧ server.ownerId = home.ownerId ∧ server.status = .ONLINE
  profile : ∃ id profile, r.workerProfiles id = some profile ∧ profile.serverId = serverId ∧
    profile.enabled = true ∧ profile.provider = .CODEX
  unspent : ∀ id attempt, r.attempts id = some attempt → attempt.taskId = taskId →
    attempt.active = true ∨ spentAttempt attempt = true → attempt.serverId ≠ serverId

/-- **What a call writes**: the status a task gets from a call that finds the
state `h`, apart from dispatch and the watchdog, which look at the status
first. -/
def HubCall.WritesStatus (h : Hub) (taskId : TaskId) (status : TaskStatus) : HubCall → Prop
  | message _ (.TASK_STATUS_UPDATE payload) =>
    payload.taskId = .id taskId ∧ payload.status = .status status
  | message _ (.TASK_RESULT payload) =>
    payload.taskId = .id taskId ∧
      if TasksService.isRetryableCapacityFailure payload = true then
        (∃ task, h.tasks taskId = some task ∧ task.workerType = .CODEX) ∧
          ((∃ serverId, h.rows.Remains taskId serverId) ∧ status = .QUEUED ∨
            (¬∃ serverId, h.rows.Remains taskId serverId) ∧ status = .FAILED)
      else payload.status = .status status
  | message _ (.APPROVAL_REQUEST payload) =>
    payload.taskId = .id taskId ∧ status = .AWAITING_APPROVAL ∧
      ∀ id approval, h.approvals id = some approval → approval.taskId ≠ taskId
  | decideApproval ownerId approvalId dto =>
    (∃ approval, h.approvals approvalId = some approval ∧ approval.taskId = taskId ∧
      approval.status = .PENDING) ∧ h.ownerOf taskId = some ownerId ∧
      status = if dto.approve then .RUNNING else .CANCELLED
  | cancel ownerId id =>
    id = taskId ∧ h.ownerOf taskId = some ownerId ∧ status = .CANCELLED ∧
      ∃ task, h.tasks taskId = some task ∧ task.workerType = .CODEX ∧
        h.online task.serverId = true
  | _ => False

/-! ## Updates of a status -/

/-- The tasks are as they were. -/
def SparesTasks (h h' : Hub) : Prop := h'.tasks = h.tasks

/-- What leaves the rows alone leaves the tasks alone. -/
theorem Quiet.spares_tasks (h h' : Hub) (hquiet : Quiet h h') : SparesTasks h h' :=
  congrArg Rows.tasks hquiet

/-- The tasks after a sequence whose rest spares them. -/
theorem tasks_of_rest {p : HubM α} {f : α → HubM β} (hf : ∀ value, (f value).Guarantees SparesTasks)
    (h : Hub) : ((p >>= f).run h).2.tasks = (p.run h).2.tasks :=
  Proc.Guarantees.run_rest hf (fun _ => rfl) (fun hab hbc => Eq.trans hbc hab) h

/-- A job is no task. -/
theorem requeueTask_spares_tasks (taskId : TaskId) :
    (TasksService.requeueTask taskId).Guarantees SparesTasks :=
  Proc.guarantees_atomically fun _ => rfl

/-- **A status is written to one task**, and nothing else to others. -/
def Written (taskId : TaskId) (status : TaskStatus) (tasks tasks' : Table Task) : Prop :=
  ∃ f : Task → Task, tasks' = tasks.modify taskId f ∧ ∀ task, (f task).status = status

/-- An update that keeps the server writes what it is given. -/
theorem taskUpdate_written {taskId : TaskId} {status : TaskStatus} {f : Task → Task}
    (hserver : ∀ task, (f task).serverId = task.serverId)
    (hstatus : ∀ task, (f task).status = status) :
    Written taskId status h.tasks ((Prisma.taskUpdate env taskId f).run h).2.tasks :=
  ⟨_, congrArg Rows.tasks (taskUpdate_rows hserver), hstatus⟩

/-- The update comes first, so it happens even if the owner cannot be notified. -/
theorem updateStatus_written {taskId : TaskId} {status : TaskStatus} {result : Option Json} :
    Written taskId status h.tasks
      ((TasksService.updateStatus env (.id taskId) (.status status) result).run h).2.tasks := by
  unfold TasksService.updateStatus
  rw [Proc.run_bind_of_ok (show (Prisma.key (.id taskId)).run h = (.ok taskId, h) from rfl),
    if_neg nofun, tasks_of_rest fun task => ((serverOf_quiet task).mono Quiet.spares_tasks).bind
      fun server => ((notifyUser_quiet _ _).mono Quiet.spares_tasks).bind fun _ =>
        Proc.guarantees_pure _]
  exact taskUpdate_written (fun _ => rfl) fun _ => rfl

/-- The notice is no task, so the update is all that is written. -/
theorem updateTaskAndNotify_written {taskId : TaskId} {status : TaskStatus} {result : Option Json}
    {logs : JsString} :
    Written taskId status h.tasks
      ((TasksService.updateTaskAndNotify env taskId status result logs).run h).2.tasks := by
  unfold TasksService.updateTaskAndNotify
  rw [tasks_of_rest fun task => ((serverOf_quiet task).mono Quiet.spares_tasks).bind
    fun server => ((notifyUser_quiet _ _).mono Quiet.spares_tasks).bind fun _ =>
      Proc.guarantees_pure _]
  exact taskUpdate_written (fun _ => rfl) fun _ => rfl

/-- What a message does to the tasks is what its handler does. -/
theorem message_tasks (env : Env) (h : Hub) (socketId : ℕ) (inbound : DaemonInbound) :
    (h.after env (.message socketId inbound)).tasks =
      ((DaemonGateway.onMessage env socketId inbound).run h).2.tasks :=
  congrArg Rows.tasks (message_rows env h socketId inbound)

/-! ## Status updates and results -/

/-- A status update writes the status it carries. -/
theorem statusUpdate_written {socketId : ℕ} {payload : DaemonTaskStatusPayload} {taskId : TaskId}
    {status : TaskStatus} (hid : payload.taskId = .id taskId)
    (hstatus : payload.status = .status status) :
    Written taskId status h.tasks
      (h.after env (.message socketId (.TASK_STATUS_UPDATE payload))).tasks := by
  rw [message_tasks]
  change Written taskId status h.tasks
    ((TasksService.handleDaemonTaskStatus env payload).run h).2.tasks
  unfold TasksService.handleDaemonTaskStatus
  rw [hid, hstatus]
  obtain ⟨reads, htouch⟩ := @touchRunningAttempt_run env h (.id taskId) _ rfl
  rw [Proc.run_bind_of_ok htouch, tasks_of_rest fun _ => Proc.guarantees_pure _]
  exact updateStatus_written

/-- So does a result that is no capacity failure. -/
theorem result_written {socketId : ℕ} {payload : DaemonTaskResultPayload} {taskId : TaskId}
    {status : TaskStatus} (hid : payload.taskId = .id taskId)
    (hcapacity : ¬TasksService.isRetryableCapacityFailure payload = true)
    (hstatus : payload.status = .status status) :
    Written taskId status h.tasks
      (h.after env (.message socketId (.TASK_RESULT payload))).tasks := by
  rw [message_tasks]
  change Written taskId status h.tasks
    ((TasksService.handleDaemonTaskResult env payload).run h).2.tasks
  unfold TasksService.handleDaemonTaskResult
  rw [if_neg hcapacity, hid]
  obtain ⟨reads, hfinish⟩ := @finishRunningAttempt_run env h (.id taskId) _ _ _ rfl
  rw [Proc.run_bind_of_ok hfinish, tasks_of_rest fun _ =>
    (sendPush_quiet _ _ _).mono Quiet.spares_tasks, hstatus]
  exact updateStatus_written

/-! ## Capacity failures -/

/-- After the active attempt of a task is closed for capacity, the servers it
spent are those of its active and of its spent attempts. -/
theorem spent_of_closed (hd : r.Disciplined) {payload : DaemonTaskResultPayload}
    (hcapacity : TasksService.isRetryableCapacityFailure payload = true) {lastSeen finished : Time}
    {taskId : TaskId} {serverId : ServerId} :
    (∃ id attempt, updateActive env (fun other => other == taskId)
        (TaskAttempt.closed payload lastSeen finished) r.attempts id = some attempt ∧
        attempt.taskId = taskId ∧ spentAttempt attempt = true ∧ attempt.serverId = serverId) ↔
      ∃ id attempt, r.attempts id = some attempt ∧ attempt.taskId = taskId ∧
        (attempt.active = true ∨ spentAttempt attempt = true) ∧ attempt.serverId = serverId := by
  rcases updateActive_cases env (fun other => other == taskId)
    (TaskAttempt.closed payload lastSeen finished) r.attempts with
    ⟨hsame, hnone⟩ | ⟨found, old, hold, hsel, hactive, hmodify⟩
  · rw [hsame]
    constructor
    · rintro ⟨id, attempt, hrow, hof, hspent, hserver⟩
      exact ⟨id, attempt, hrow, hof, .inr hspent, hserver⟩
    · rintro ⟨id, attempt, hrow, hof, hopen | hspent, hserver⟩
      · rw [hnone id attempt hrow (beq_iff_eq.mpr hof)] at hopen
        cases hopen
      · exact ⟨id, attempt, hrow, hof, hspent, hserver⟩
  · rw [hmodify]
    have hold' : r.attempts.modify found (TaskAttempt.closed payload lastSeen finished) found =
        some (old.closed payload lastSeen finished) := by
      rw [Table.modify_apply, if_pos rfl, hold]
      rfl
    have hserver' := (closed_of_capacity hcapacity lastSeen finished old)
    constructor
    · rintro ⟨id, attempt, hrow, hof, hspent, hserver⟩
      rw [Table.modify_apply] at hrow
      split at hrow
      · next heq =>
        rw [hold] at hrow
        cases hrow
        rw [hserver'] at hserver
        exact ⟨found, old, hold, beq_iff_eq.mp hsel, .inl hactive, hserver⟩
      · exact ⟨id, attempt, hrow, hof, .inr hspent, hserver⟩
    · rintro ⟨id, attempt, hrow, hof, hcases, hserver⟩
      by_cases heq : id = found
      · -- the attempt is the active one, and closed for capacity it is spent
        subst heq
        rw [hold] at hrow
        cases hrow
        exact ⟨id, _, hold', by rw [TaskAttempt.closed_taskId, hof],
          closed_capacity_spent hcapacity lastSeen finished old, by rw [hserver', ← hserver]⟩
      · rcases hcases with hopen | hspent
        · exact absurd (hd.unique hold hrow (hof.trans (beq_iff_eq.mp hsel).symm) hactive hopen) heq
        · refine ⟨id, attempt, ?_, hof, hspent, hserver⟩
          rw [Table.modify_apply, if_neg heq]
          exact hrow

/-- The candidates found after the attempt was closed are the servers that
remain. -/
theorem remains_iff {taskId : TaskId} {task : Task} {home : Server} {excluded : List ServerId}
    (htask : h.tasks taskId = some task) (hhome : h.servers task.serverId = some home)
    (hexcluded : ∀ serverId, serverId ∈ excluded ↔ ∃ id attempt, h.attempts id = some attempt ∧
      attempt.taskId = taskId ∧ (attempt.active = true ∨ spentAttempt attempt = true) ∧
      attempt.serverId = serverId) (serverId : ServerId) :
    (∃ id profile server, h.workerProfiles id = some profile ∧ profile.serverId = serverId ∧
        h.servers serverId = some server ∧
        WorkerRegistry.compatible home.ownerId .CODEX excluded profile server = true) ↔
      h.rows.Remains taskId serverId := by
  unfold WorkerRegistry.compatible
  simp only [Bool.and_eq_true, beq_iff_eq, Bool.not_eq_true', List.contains_eq_mem,
    decide_eq_false_iff_not]
  constructor
  · rintro ⟨id, profile, server, hprofile, rfl, hserver, ⟨⟨⟨henabled, hprovider⟩, howner⟩,
      hstatus⟩, hunspent⟩
    exact ⟨⟨task, home, server, htask, hhome, hserver, howner, hstatus⟩,
      ⟨id, profile, hprofile, rfl, henabled, hprovider⟩,
      fun other attempt hrow hof hcases hback =>
        hunspent ((hexcluded _).mpr ⟨other, attempt, hrow, hof, hcases, hback⟩)⟩
  · rintro ⟨⟨task', home', server, htask', hhome', hserver, howner, hstatus⟩,
      ⟨id, profile, hprofile, rfl, henabled, hprovider⟩, hunspent⟩
    obtain rfl : task = task' := Option.some.inj (htask.symm.trans htask')
    obtain rfl : home = home' := Option.some.inj (hhome.symm.trans hhome')
    refine ⟨id, profile, server, hprofile, rfl, hserver, ⟨⟨⟨henabled, hprovider⟩, howner⟩,
      hstatus⟩, fun hmem => ?_⟩
    obtain ⟨other, attempt, hrow, hof, hcases, hback⟩ := (hexcluded _).mp hmem
    exact hunspent other attempt hrow hof hcases hback

/-- What `handleRetryableCapacityFailure` finds after it closed the attempt of a
stored task: nobody to ask, or the servers that remain. -/
theorem candidates_of_closed {payload : DaemonTaskResultPayload} {taskId : TaskId} {task : Task}
    {home : Server} {lastSeen finished : Time} {h₁ : Hub} (hd : h.rows.Disciplined)
    (hcapacity : TasksService.isRetryableCapacityFailure payload = true)
    (htask : h.tasks taskId = some task) (hhome : h.servers task.serverId = some home)
    (hrows : h₁.rows = { h.rows with
      attempts := updateActive env (fun other => other == taskId)
        (TaskAttempt.closed payload lastSeen finished) h.attempts }) :
    ∃ excluded outcome, (retryExcludedServerIds env taskId).run h₁ = (.ok excluded, h₁) ∧
      (WorkerRegistry.getDispatchCandidates env task.workerType task.serverId excluded).run h₁ =
        (outcome, h₁) ∧
      ((∃ error, outcome = .error error) ∧ task.workerType ≠ .CODEX ∨
        ∃ candidates, outcome = .ok candidates ∧ task.workerType = .CODEX ∧ ∀ serverId,
          (∃ candidate ∈ candidates, candidate.serverId = serverId) ↔
            h.rows.Remains taskId serverId) := by
  have hservers₁ : h₁.servers = h.servers := congrArg Rows.servers hrows
  have hprofiles₁ : h₁.workerProfiles = h.workerProfiles := congrArg Rows.workerProfiles hrows
  have hattempts₁ : h₁.attempts = _ := congrArg Rows.attempts hrows
  obtain ⟨excluded, hexcluded, hspent⟩ := retryExcludedServerIds_run env h₁ taskId
  rw [hattempts₁] at hspent
  have hremains := remains_iff htask hhome
    fun serverId => (hspent serverId).trans (spent_of_closed hd hcapacity)
  cases hcandidates : (WorkerRegistry.getDispatchCandidates env task.workerType task.serverId
      excluded).run h₁ with
  | mk outcome h₂ =>
    obtain ⟨rfl, hok, herror⟩ := getDispatchCandidates_spec hcandidates
    refine ⟨excluded, outcome, hexcluded, hcandidates, ?_⟩
    cases outcome with
    | error error =>
        refine .inl ⟨⟨error, rfl⟩, fun hcodex => ?_⟩
        have hnone := herror error rfl hcodex
        rw [hservers₁, hhome] at hnone
        cases hnone
    | ok candidates =>
        obtain ⟨hcodex, home', hhome', hmem⟩ := hok candidates rfl
        rw [hservers₁] at hhome' hmem
        rw [hprofiles₁] at hmem
        obtain rfl : home = home' := Option.some.inj (hhome.symm.trans hhome')
        exact .inr ⟨candidates, rfl, hcodex, fun serverId =>
          (hmem serverId).trans (hremains serverId)⟩

/-- **A capacity failure** of a Codex task writes `QUEUED` or, when no server
remains, `FAILED`; a task of another kind is left alone. -/
theorem capacity_tasks {socketId : ℕ} {payload : DaemonTaskResultPayload} {taskId : TaskId}
    {task : Task} (hs : h.rows.Sound) (hd : h.rows.Disciplined)
    (hid : payload.taskId = .id taskId)
    (hcapacity : TasksService.isRetryableCapacityFailure payload = true)
    (htask : h.tasks taskId = some task) :
    (task.workerType ≠ .CODEX ∧
      (h.after env (.message socketId (.TASK_RESULT payload))).tasks = h.tasks) ∨
    (task.workerType = .CODEX ∧ ∃ status,
      ((∃ serverId, h.rows.Remains taskId serverId) ∧ status = .QUEUED ∨
        (¬∃ serverId, h.rows.Remains taskId serverId) ∧ status = .FAILED) ∧
      Written taskId status h.tasks
        (h.after env (.message socketId (.TASK_RESULT payload))).tasks) := by
  -- what follows the handler leaves the tasks alone
  have hrun : (h.after env (.message socketId (.TASK_RESULT payload))).tasks =
      ((TasksService.handleRetryableCapacityFailure env payload).run h).2.tasks := by
    rw [message_tasks]
    change ((TasksService.handleDaemonTaskResult env payload).run h).2.tasks = _
    unfold TasksService.handleDaemonTaskResult
    rw [if_pos hcapacity]
    exact tasks_of_rest (fun _ => Proc.guarantees_pure _) h
  obtain ⟨home, hhome, hfound⟩ := taskFindUniqueWithServer_run hs htask
  obtain ⟨h₁, hfinish, hrows⟩ := @finishRunningAttempt_closes env h payload (.id taskId) _ .FAILED
    (some (TasksService.formatStructuredFailureReason payload)) rfl (closed_of_capacity hcapacity)
  have htasks₁ : h₁.tasks = h.tasks := congrArg Rows.tasks hrows
  -- after the attempt is closed its server is not a candidate
  obtain ⟨excluded, outcome, hexcluded, hcandidates, hcases⟩ :=
    candidates_of_closed hd hcapacity htask hhome hrows
  rw [hrun]
  unfold TasksService.handleRetryableCapacityFailure
  rw [hid, Proc.run_bind_of_ok (show (Prisma.key (.id taskId)).run h = (.ok taskId, h) from rfl),
    Proc.run_bind_of_ok hfound]
  dsimp only
  rw [Proc.run_bind_of_ok hfinish, Proc.run_bind_of_ok hexcluded]
  rcases hcases with ⟨⟨error, rfl⟩, hcodex⟩ | ⟨candidates, rfl, hcodex, hmem⟩
  · -- the registry has no adapter for a task of another kind
    rw [Proc.run_bind_of_error hcandidates]
    exact .inl ⟨hcodex, htasks₁⟩
  · rw [Proc.run_bind_of_ok hcandidates, ← htasks₁]
    refine .inr ⟨hcodex, ?_⟩
    cases candidates with
    | nil =>
        refine ⟨.FAILED, .inr ⟨?_, rfl⟩, ?_⟩
        · rintro ⟨serverId, hserver⟩
          obtain ⟨candidate, hcandidate, -⟩ := (hmem serverId).mpr hserver
          cases hcandidate
        · dsimp only
          rw [tasks_of_rest fun _ => (sendPush_quiet _ _ _).mono Quiet.spares_tasks]
          exact updateTaskAndNotify_written
    | cons first rest =>
        refine ⟨.QUEUED, .inl ⟨⟨first.serverId, (hmem _).mp ⟨first, List.mem_cons_self, rfl⟩⟩,
          rfl⟩, ?_⟩
        dsimp only
        rw [tasks_of_rest fun _ => requeueTask_spares_tasks taskId]
        exact updateTaskAndNotify_written

/-! ## Approvals and cancellation -/

/-- **A request for approval** writes `AWAITING_APPROVAL` to a stored task without
approval. -/
theorem approvalRequest_tasks {socketId : ℕ} {payload : DaemonApprovalRequestPayload}
    {taskId : TaskId} {task : Task} (hs : h.rows.Sound) (hid : payload.taskId = .id taskId)
    (htask : h.tasks taskId = some task) :
    ((∃ id approval, h.approvals id = some approval ∧ approval.taskId = taskId) ∧
      (h.after env (.message socketId (.APPROVAL_REQUEST payload))).tasks = h.tasks) ∨
    ((∀ id approval, h.approvals id = some approval → approval.taskId ≠ taskId) ∧
      Written taskId .AWAITING_APPROVAL h.tasks
        (h.after env (.message socketId (.APPROVAL_REQUEST payload))).tasks) := by
  have hafter : (h.after env (.message socketId (.APPROVAL_REQUEST payload))).tasks =
      ((ApprovalsService.handleDaemonApprovalRequest env payload).run h).2.tasks :=
    message_tasks env h socketId _
  rw [hafter]
  by_cases hexists : ∃ id approval, h.approvals id = some approval ∧ approval.taskId = taskId
  · obtain ⟨id, approval, happroval, hof⟩ := hexists
    rw [approvalRequest_refused hs hid htask happroval hof]
    exact .inl ⟨⟨id, approval, happroval, hof⟩, rfl⟩
  · have hnone : ∀ id approval, h.approvals id = some approval → approval.taskId ≠ taskId :=
      fun id approval happroval hof => hexists ⟨id, approval, happroval, hof⟩
    exact .inr ⟨hnone, _, congrArg Rows.tasks (approvalRequest_run hs hid htask hnone),
      fun _ => rfl⟩

/-- **A decision** of the owner on a pending approval writes `RUNNING` or
`CANCELLED`; any other attempt at one writes nothing. -/
theorem decide_tasks {ownerId : UserId} {approvalId : ApprovalId} {dto : DecideApprovalDto} :
    ((h.after env (.decideApproval ownerId approvalId dto)).tasks = h.tasks ∧
      ∀ taskId, ¬((∃ approval, h.approvals approvalId = some approval ∧
        approval.taskId = taskId ∧ approval.status = .PENDING) ∧
        h.ownerOf taskId = some ownerId)) ∨
    ∃ approval, h.approvals approvalId = some approval ∧ approval.status = .PENDING ∧
      h.ownerOf approval.taskId = some ownerId ∧
      Written approval.taskId (if dto.approve then .RUNNING else .CANCELLED) h.tasks
        (h.after env (.decideApproval ownerId approvalId dto)).tasks := by
  have hafter : (h.after env (.decideApproval ownerId approvalId dto)).tasks =
      ((ApprovalsService.decide env ownerId approvalId dto).run h).2.tasks :=
    tasks_of_rest (fun _ => Proc.guarantees_pure _) h
  rw [hafter]
  by_cases hdecidable : h.CanDecide ownerId approvalId
  · obtain ⟨approval, happroval, hpending, howns⟩ := hdecidable
    obtain ⟨task, -, htask, -⟩ := ownerOf_some (r := h.rows) howns
    obtain ⟨h', hrun, hrows⟩ := @decide_run env h ownerId approvalId dto approval task happroval
      hpending htask howns
    rw [hrun]
    exact .inr ⟨approval, happroval, hpending, howns, _, congrArg Rows.tasks hrows, fun _ => rfl⟩
  · obtain ⟨error, hrun⟩ := @decide_refused env h ownerId approvalId dto hdecidable
    rw [hrun]
    refine .inl ⟨rfl, ?_⟩
    rintro taskId ⟨⟨approval, happroval, rfl, hpending⟩, howns⟩
    exact hdecidable ⟨approval, happroval, hpending, howns⟩

/-- The owner of a task gets it. -/
theorem getOwnedTask_run {ownerId : UserId} {taskId : TaskId}
    (howns : h.ownerOf taskId = some ownerId) :
    ∃ task, (TasksService.getOwnedTask ownerId taskId).run h = (.ok task, h) := by
  obtain ⟨task, server, htask, hserver, howner⟩ := ownerOf_some (r := h.rows) howns
  have hfound : (Prisma.taskFindUniqueWithServer taskId).run h =
      (.ok (some (task, server)), h) := by
    change (Except.ok (h.taskWithServer taskId), h) = _
    unfold Hub.taskWithServer
    rw [show h.tasks taskId = some task from htask, Option.bind_some,
      show h.servers task.serverId = some server from hserver]
    rfl
  refine ⟨task, ?_⟩
  unfold TasksService.getOwnedTask
  rw [Proc.run_bind_of_ok hfound]
  dsimp only
  rw [if_neg (not_not.mpr howner)]
  rfl

/-- **A cancellation** by the owner of a Codex task whose daemon is connected
writes `CANCELLED`; any other attempt at one writes nothing. -/
theorem cancel_tasks {ownerId : UserId} {taskId : TaskId} :
    ((h.after env (.cancel ownerId taskId)).tasks = h.tasks ∧
      ¬(h.ownerOf taskId = some ownerId ∧ ∃ task, h.tasks taskId = some task ∧
        task.workerType = .CODEX ∧ h.online task.serverId = true)) ∨
    (h.ownerOf taskId = some ownerId ∧ (∃ task, h.tasks taskId = some task ∧
        task.workerType = .CODEX ∧ h.online task.serverId = true) ∧
      Written taskId .CANCELLED h.tasks (h.after env (.cancel ownerId taskId)).tasks) := by
  have hrun : (h.after env (.cancel ownerId taskId)).tasks =
      ((TasksService.cancel env ownerId taskId).run h).2.tasks :=
    tasks_of_rest (fun _ => Proc.guarantees_pure _) h
  rw [hrun]
  unfold TasksService.cancel
  cases hget : (TasksService.getOwnedTask ownerId taskId).run h with
  | mk outcome h' =>
    obtain ⟨rfl, howned⟩ := getOwnedTask_spec hget
    cases outcome with
    | error error =>
        rw [Proc.run_bind_of_error hget]
        refine .inl ⟨rfl, ?_⟩
        rintro ⟨howns, -⟩
        obtain ⟨task, htask⟩ := getOwnedTask_run howns
        rw [hget] at htask
        cases htask
    | ok task =>
        obtain ⟨htask, howns⟩ := howned task rfl
        rw [Proc.run_bind_of_ok hget]
        -- the stored task is the one the service has read
        have hguard : ∀ {p : Prop}, (task.workerType = .CODEX → h.online task.serverId = true → p) →
            (∃ row, h.tasks taskId = some row ∧ row.workerType = .CODEX ∧
              h.online row.serverId = true) → p := by
          rintro p hp ⟨row, hrow, hcodex, honline⟩
          rw [htask] at hrow
          cases hrow
          exact hp hcodex honline
        unfold WorkerRegistry.get
        by_cases hcodex : task.workerType = CodexAdapter.workerType
        · rw [if_pos hcodex, Proc.run_bind_of_ok (Proc.run_pure _ h)]
          -- the adapter finds the task, and asks its server
          have hsend : (CodexAdapter.cancelTask taskId).run h =
              (RealtimeService.dispatchToServer task.serverId (.TASK_CANCEL taskId)).run h := by
            unfold CodexAdapter.cancelTask CodexAdapter.findTaskOrThrow Prisma.taskFindUnique
            simp only [Proc.run_bind, Proc.run_read, htask, Proc.run_pure]
          rw [dispatchToServer_run] at hsend
          dsimp only
          cases honline : h.online task.serverId with
          | false =>
              rw [honline] at hsend
              rw [Proc.run_bind_of_error hsend]
              exact .inl ⟨rfl, fun hwrites => hguard (fun _ hon => by
                rw [honline] at hon
                cases hon) hwrites.2⟩
          | true =>
              rw [honline] at hsend
              rw [Proc.run_bind_of_ok hsend, tasks_of_rest fun _ => Proc.guarantees_pure _]
              exact .inr ⟨howns, ⟨task, htask, hcodex, honline⟩, updateStatus_written⟩
        · rw [if_neg hcodex, Proc.run_bind_of_error (Proc.run_throw _ h)]
          exact .inl ⟨rfl, fun hwrites => hguard (fun hc _ => hcodex hc) hwrites.2⟩

/-! ## One call -/

/-- A typed reference is the id of a task, -/
theorem TaskRef.IsId.exists_id {ref : TaskRef} (h : ref.IsId) : ∃ taskId, ref = .id taskId := by
  cases ref with
  | id taskId => exact ⟨taskId, rfl⟩
  | filter _ => exact h.elim
  | invalid => exact h.elim

/-- a typed status update has a status, -/
theorem StatusRef.Reportable.exists_status {ref : StatusRef} (h : ref.Reportable) :
    ∃ status, ref = .status status := by
  cases ref with
  | status status => exact ⟨status, rfl⟩
  | undefined => exact h.elim
  | invalid => exact h.elim

/-- and so has a typed result. -/
theorem StatusRef.Result.exists_status {ref : StatusRef} (h : ref.Result) :
    ∃ status, ref = .status status := by
  cases ref with
  | status status => exact ⟨status, rfl⟩
  | undefined => exact h.elim
  | invalid => exact h.elim

/-- A message about a task that is not there writes nothing. -/
theorem unstored_tasks {socketId : ℕ} {inbound : DaemonInbound} {taskId : TaskId}
    (hreports : HubCall.reports (.message socketId inbound) = some (.id taskId))
    (htask : h.tasks taskId = none) : (h.after env (.message socketId inbound)).tasks = h.tasks :=
  Touches.tasks (after_message_unstored hreports fun other heq => by
    cases heq
    exact htask)

/-- **What a call that writes a status comes to**: nothing is written to a stored task, or one
status to one task. -/
def WritesOne (env : Env) (h : Hub) (call : HubCall) : Prop :=
  ((h.after env call).tasks = h.tasks ∧
    ∀ taskId status, h.tasks taskId ≠ none → ¬call.WritesStatus h taskId status) ∨
  ∃ taskId status, Written taskId status h.tasks (h.after env call).tasks ∧
    ∀ taskId' status', h.tasks taskId' ≠ none →
      (call.WritesStatus h taskId' status' ↔ taskId' = taskId ∧ status' = status)

/-- A status update writes the status it carries, whatever the status was: this is where a terminal
status is lost. -/
theorem statusUpdate_writes {socketId : ℕ} {payload : DaemonTaskStatusPayload}
    (htyped : HubCall.Typed (.message socketId (.TASK_STATUS_UPDATE payload))) :
    WritesOne env h (.message socketId (.TASK_STATUS_UPDATE payload)) := by
  obtain ⟨taskId, hid⟩ := htyped.1.exists_id
  obtain ⟨status, hstatus⟩ := htyped.2.exists_status
  refine .inr ⟨taskId, status, statusUpdate_written hid hstatus, fun taskId' status' _ => ?_⟩
  change payload.taskId = .id taskId' ∧ payload.status = .status status' ↔ _
  rw [hid, hstatus, TaskRef.id.injEq, StatusRef.status.injEq, eq_comm, @eq_comm _ status]

/-- A result, of either kind. -/
theorem result_writes {socketId : ℕ} {payload : DaemonTaskResultPayload} (hs : h.rows.Sound)
    (hd : h.rows.Disciplined)
    (htyped : HubCall.Typed (.message socketId (.TASK_RESULT payload))) :
    WritesOne env h (.message socketId (.TASK_RESULT payload)) := by
  obtain ⟨taskId, hid⟩ := htyped.1.exists_id
  by_cases hcapacity : TasksService.isRetryableCapacityFailure payload = true
  · have hwrites : ∀ taskId' status',
        HubCall.WritesStatus h taskId' status' (.message socketId (.TASK_RESULT payload)) ↔
          taskId' = taskId ∧ (∃ task, h.tasks taskId' = some task ∧ task.workerType = .CODEX) ∧
            ((∃ serverId, h.rows.Remains taskId' serverId) ∧ status' = .QUEUED ∨
              (¬∃ serverId, h.rows.Remains taskId' serverId) ∧ status' = .FAILED) := by
      intro taskId' status'
      rw [HubCall.WritesStatus, if_pos hcapacity, hid, TaskRef.id.injEq, @eq_comm _ taskId]
    cases htask : h.tasks taskId with
    | none =>
        refine .inl ⟨unstored_tasks (congrArg some hid) htask, fun taskId' status' hstored hw => ?_⟩
        obtain ⟨rfl, -⟩ := (hwrites _ _).mp hw
        exact hstored htask
    | some task =>
        rcases @capacity_tasks env h socketId payload taskId task hs hd hid hcapacity htask with
          ⟨hcodex, hsame⟩ | ⟨hcodex, status, hstatus, hwritten⟩
        · refine .inl ⟨hsame, fun taskId' status' _ hw => ?_⟩
          obtain ⟨rfl, ⟨task', htask', hcodex'⟩, -⟩ := (hwrites _ _).mp hw
          rw [htask] at htask'
          cases htask'
          exact hcodex hcodex'
        · refine .inr ⟨taskId, status, hwritten, fun taskId' status' _ => ?_⟩
          rw [hwrites]
          constructor
          · rintro ⟨rfl, -, hstatus'⟩
            refine ⟨rfl, ?_⟩
            rcases hstatus with ⟨hsome, rfl⟩ | ⟨hnone, rfl⟩ <;>
              rcases hstatus' with ⟨hsome', rfl⟩ | ⟨hnone', rfl⟩
            · rfl
            · exact absurd hsome hnone'
            · exact absurd hsome' hnone
            · rfl
          · rintro ⟨rfl, rfl⟩
            exact ⟨rfl, ⟨task, htask, hcodex⟩, hstatus⟩
  · obtain ⟨status, hstatus⟩ := htyped.2.exists_status
    refine .inr ⟨taskId, status, result_written hid hcapacity hstatus, fun taskId' status' _ => ?_⟩
    rw [HubCall.WritesStatus, if_neg hcapacity, hid, hstatus, TaskRef.id.injEq,
      StatusRef.status.injEq, eq_comm, @eq_comm _ status]

/-- A prompt that is reported for the second time writes nothing. -/
theorem approvalRequest_writes {socketId : ℕ} {payload : DaemonApprovalRequestPayload}
    (hs : h.rows.Sound) (htyped : HubCall.Typed (.message socketId (.APPROVAL_REQUEST payload))) :
    WritesOne env h (.message socketId (.APPROVAL_REQUEST payload)) := by
  obtain ⟨taskId, hid⟩ := htyped.1.exists_id
  have hsame : ∀ {other}, payload.taskId = .id other → taskId = other :=
    fun hother => TaskRef.id.inj (hid.symm.trans hother)
  cases htask : h.tasks taskId with
  | none =>
      refine .inl ⟨unstored_tasks (congrArg some hid) htask, ?_⟩
      rintro other status hstored ⟨hother, -⟩
      obtain rfl := hsame hother
      exact hstored htask
  | some task =>
      rcases @approvalRequest_tasks env h socketId payload taskId task hs hid htask with
        ⟨⟨id, approval, happroval, hof⟩, hkept⟩ | ⟨hnone, hwritten⟩
      · refine .inl ⟨hkept, ?_⟩
        rintro other status - ⟨hother, -, hnone⟩
        obtain rfl := hsame hother
        exact hnone id approval happroval hof
      · refine .inr ⟨_, _, hwritten, fun other status _ => ⟨?_, ?_⟩⟩
        · rintro ⟨hother, rfl, -⟩
          exact ⟨(hsame hother).symm, rfl⟩
        · rintro ⟨rfl, rfl⟩
          exact ⟨hid, rfl, hnone⟩

/-- The status follows the decision. -/
theorem decide_writes {ownerId : UserId} {approvalId : ApprovalId} {dto : DecideApprovalDto} :
    WritesOne env h (.decideApproval ownerId approvalId dto) := by
  rcases @decide_tasks env h ownerId approvalId dto with
    ⟨hsame, hnone⟩ | ⟨approval, happroval, hpending, howns, hwritten⟩
  · refine .inl ⟨hsame, ?_⟩
    rintro taskId status - ⟨hguard, howns, -⟩
    exact hnone taskId ⟨hguard, howns⟩
  · refine .inr ⟨_, _, hwritten, fun taskId status _ => ⟨?_, ?_⟩⟩
    · rintro ⟨⟨row, hrow, rfl, -⟩, -, hstatus⟩
      obtain rfl : approval = row := Option.some.inj (happroval.symm.trans hrow)
      exact ⟨rfl, hstatus⟩
    · rintro ⟨rfl, rfl⟩
      exact ⟨⟨approval, happroval, rfl, hpending⟩, howns, rfl⟩

/-- `CANCELLED`, if the daemon could be told. -/
theorem cancel_writes {ownerId : UserId} {id : TaskId} : WritesOne env h (.cancel ownerId id) := by
  rcases @cancel_tasks env h ownerId id with ⟨hsame, hnone⟩ | ⟨howns, htask, hwritten⟩
  · refine .inl ⟨hsame, ?_⟩
    rintro taskId status - ⟨rfl, howns, -, htask⟩
    exact hnone ⟨howns, htask⟩
  · refine .inr ⟨_, _, hwritten, fun taskId status _ => ⟨?_, ?_⟩⟩
    · rintro ⟨rfl, -, rfl, -⟩
      exact ⟨rfl, rfl⟩
    · rintro ⟨rfl, rfl⟩
      exact ⟨rfl, howns, rfl, htask⟩

/-- **The calls that write a status** write one, or nothing. -/
theorem writes_spec (hs : h.rows.Sound) (hd : h.rows.Disciplined) (htyped : call.Typed)
    (hwrites : call.Writes) : WritesOne env h call := by
  cases call with
  | message socketId inbound =>
      cases inbound with
      | TASK_STATUS_UPDATE payload => exact statusUpdate_writes htyped
      | TASK_RESULT payload => exact result_writes hs hd htyped
      | APPROVAL_REQUEST payload => exact approvalRequest_writes hs htyped
      | HEARTBEAT => exact hwrites.elim
      | TASK_LOG payload => exact hwrites.elim
  | decideApproval ownerId approvalId dto => exact decide_writes
  | cancel ownerId id => exact cancel_writes
  | _ => exact hwrites.elim

/-- The other calls leave a terminal status alone. -/
theorem Effect.terminal_kept (h : Effect env call r r') (hwrites : ¬call.Writes) {taskId : TaskId}
    {task task' : Task} (htask : r.tasks taskId = some task)
    (hterminal : task.status.terminal = true) (htask' : r'.tasks taskId = some task') :
    task'.status = task.status := by
  have hchange := h.task taskId
  rw [htask, htask'] at hchange
  cases hchange with
  | kept => rfl
  | relabelled _ _ hstatus =>
      rcases hstatus with hkept | ⟨hcall, -⟩
      · exact hkept
      · exact absurd hcall hwrites
  | failedOver hcall =>
      rw [hcall] at hwrites
      exact absurd trivial hwrites
  | assigned _ _ hqueued =>
      rw [hqueued] at hterminal
      cases hterminal
  | expired _ hrunning =>
      rw [hrunning] at hterminal
      cases hterminal
  | requeued _ hrunning =>
      rw [hrunning] at hterminal
      cases hterminal

/-- A task that was deleted stays so. -/
theorem Effect.task_gone (h : Effect env call r r') {taskId : TaskId}
    (hold : taskId < r.tasks.next) (hnone : r.tasks taskId = none) : r'.tasks taskId = none := by
  have hchange := h.task taskId
  rw [hnone] at hchange
  generalize r'.tasks taskId = row' at hchange ⊢
  cases hchange with
  | kept => rfl
  | submitted _ _ _ _ _ hnew => exact absurd hnew hold.ne

/-- **Terminal statuses are kept** from one state to another: what is left of a
terminal task has its status, and what was deleted stays so. -/
structure Rows.Settles (r r' : Rows) : Prop where
  next : r.tasks.next ≤ r'.tasks.next
  kept : ∀ {taskId task task'}, r.tasks taskId = some task → task.status.terminal = true →
    r'.tasks taskId = some task' → task'.status = task.status
  gone : ∀ {taskId}, taskId < r.tasks.next → r.tasks taskId = none → r'.tasks taskId = none

/-- What is settled stays, if nothing happens. -/
theorem Rows.Settles.refl (r : Rows) : r.Settles r where
  next := le_rfl
  kept htask _ htask' := by
    rw [htask] at htask'
    cases htask'
    rfl
  gone _ hnone := hnone

/-- What is kept over each part of a run is kept over the whole. -/
theorem Rows.Settles.trans {r'' : Rows} (h : r.Settles r') (h' : r'.Settles r'') :
    r.Settles r'' where
  next := h.next.trans h'.next
  kept {taskId task task''} htask hterminal htask'' := by
    cases htask' : r'.tasks taskId with
    | none =>
        rw [h'.gone ((Table.lt_next htask).trans_le h.next) htask'] at htask''
        cases htask''
    | some task' =>
        have hstatus := h.kept htask hterminal htask'
        exact (h'.kept htask' (hstatus ▸ hterminal) htask'').trans hstatus
  gone hold hnone := h'.gone (hold.trans_le h.next) (h.gone hold hnone)

/-- **A call that harms no terminal task**: what it writes to one, if anything, is
the status the task has. -/
def HubCall.Harmless (h : Hub) (call : HubCall) : Prop :=
  ∀ taskId task status, h.tasks taskId = some task → task.status.terminal = true →
    call.WritesStatus h taskId status → status = task.status

/-- Only the calls that write a status are ever harmful. -/
theorem HubCall.writes_of_status {taskId : TaskId} {status : TaskStatus}
    (hw : call.WritesStatus h taskId status) : call.Writes := by
  unfold HubCall.WritesStatus at hw
  split at hw <;> trivial

/-- **A call keeps the terminal statuses exactly when it is harmless.** -/
theorem after_kept_iff (hs : h.rows.Sound) (hd : h.rows.Disciplined) (htyped : call.Typed) :
    (∀ taskId task task', h.tasks taskId = some task → task.status.terminal = true →
      (h.after env call).tasks taskId = some task' → task'.status = task.status) ↔
    call.Harmless h := by
  by_cases hwrites : call.Writes
  · rcases @writes_spec env call h hs hd htyped hwrites with
      ⟨hsame, hnone⟩ | ⟨other, written, ⟨f, hmodify, hstatus⟩, hiff⟩
    · refine iff_of_true ?_ ?_
      · intro taskId task task' htask _ htask'
        rw [hsame, htask] at htask'
        cases htask'
        rfl
      · intro taskId task status htask _ hw
        exact absurd hw (hnone taskId status (by rw [htask]; exact nofun))
    · constructor
      · intro hkept taskId task status htask hterminal hw
        obtain ⟨rfl, rfl⟩ := (hiff taskId status (by rw [htask]; exact nofun)).mp hw
        have hkept := hkept taskId task (f task) htask hterminal (by
          rw [hmodify, Table.modify_apply, if_pos rfl, htask]
          rfl)
        exact (hstatus task).symm.trans hkept
      · intro hharmless taskId task task' htask hterminal htask'
        rw [hmodify, Table.modify_apply] at htask'
        split at htask'
        · next heq =>
          subst heq
          rw [htask] at htask'
          cases htask'
          have hw := (hiff taskId written (by rw [htask]; exact nofun)).mpr ⟨rfl, rfl⟩
          exact (hstatus task).trans (hharmless taskId task written htask hterminal hw)
        · rw [htask] at htask'
          cases htask'
          rfl
  · refine iff_of_true ?_ fun taskId task status _ _ hw =>
      absurd (HubCall.writes_of_status hw) hwrites
    have hchain := after_effects env h call
    have hall : h.rows.Settles (h.after env call).rows := by
      generalize (h.after env call).rows = r at hchain ⊢
      induction hchain with
      | refl => exact .refl _
      | tail _ hstep ih =>
          exact ih.trans ⟨hstep.tasks_next, hstep.terminal_kept hwrites, hstep.task_gone⟩
    exact fun taskId task task' htask hterminal htask' => hall.kept htask hterminal htask'

/-- A harmless call keeps terminal statuses, and deleted tasks deleted. -/
theorem after_settles (hs : h.rows.Sound) (hd : h.rows.Disciplined) (htyped : call.Typed)
    (hharmless : call.Harmless h) : h.rows.Settles (h.after env call).rows where
  next := by
    have hchain := after_effects env h call
    generalize (h.after env call).rows = r at hchain ⊢
    induction hchain with
    | refl => exact le_rfl
    | tail _ hstep ih => exact ih.trans hstep.tasks_next
  kept {taskId task task'} := (after_kept_iff hs hd htyped).mpr hharmless taskId task task'
  gone {taskId} hold hnone := by
    have hchain := after_effects env h call
    generalize (h.after env call).rows = r at hchain ⊢
    suffices hall : h.rows.tasks.next ≤ r.tasks.next ∧ r.tasks taskId = none from hall.2
    induction hchain with
    | refl => exact ⟨le_rfl, hnone⟩
    | tail _ hstep ih =>
        exact ⟨ih.1.trans hstep.tasks_next, hstep.task_gone (hold.trans_le ih.1) ih.2⟩

/-! ## Runs -/

/-- **Terminal statuses are final along a run**: whatever states of it are
compared, a task that is terminal in the earlier one has the same status in the
later one, unless it was deleted. -/
def TerminalFinal (env : Env) (first : Hub) (calls : List HubCall) : Prop :=
  ∀ front middle back, calls = front ++ middle ++ back → ∀ taskId task task',
    ((hubMachine env HubCall.Typed).exec first front).tasks taskId = some task →
    task.status.terminal = true →
    ((hubMachine env HubCall.Typed).exec first (front ++ middle)).tasks taskId = some task' →
    task'.status = task.status

/-- **Terminal statuses are final in a run exactly when none of its calls is
harmful.** -/
theorem terminal_final_iff {first : Hub} {calls : List HubCall} (hstart : first.Fresh)
    (hruns : (hubMachine env HubCall.Typed).Runs first calls) :
    TerminalFinal env first calls ↔
      ∀ visit ∈ (hubMachine env HubCall.Typed).visits first calls, visit.2.Harmless visit.1 := by
  have hreach : (hubMachine env HubCall.Typed).Reachable first := .of_start hstart
  have hvisit : ∀ visit ∈ (hubMachine env HubCall.Typed).visits first calls,
      visit.1.rows.Sound ∧ visit.1.rows.Disciplined ∧ visit.2.Typed := fun visit hmem =>
    have hreach := hreach.visits hruns hmem
    ⟨reachable_sound hreach, reachable_disciplined hreach, (hruns visit hmem).1⟩
  constructor
  · intro hfinal visit hmem
    obtain ⟨hs, hd, htyped⟩ := hvisit visit hmem
    obtain ⟨front, back, rfl, hfront⟩ := (Machine.mem_visits_iff _).mp hmem
    refine (@after_kept_iff env visit.2 visit.1 hs hd htyped).mp
      fun taskId task task' htask hterminal
      htask' => ?_
    rw [hfront] at htask htask'
    refine hfinal front [visit.2] back (by simp) taskId task task' htask hterminal ?_
    rw [Machine.exec_append]
    exact htask'
  · rintro hharmless front middle back rfl taskId task task' htask hterminal htask'
    rw [Machine.exec_append] at htask'
    have hsettles := @Machine.exec_related _ _ (hubMachine env HubCall.Typed)
      (fun h h' => h.rows.Settles h'.rows) (fun h => .refl h.rows)
      (fun hab hbc => hab.trans hbc) ((hubMachine env HubCall.Typed).exec first front) middle
      fun visit hmem => by
        have hmem : visit ∈ (hubMachine env HubCall.Typed).visits first
          (front ++ middle ++ back) := by
          rw [Machine.visits_append, Machine.visits_append]
          exact List.mem_append_left _ (List.mem_append_right _ hmem)
        obtain ⟨hs, hd, htyped⟩ := hvisit visit hmem
        exact after_settles hs hd htyped (hharmless visit hmem)
    exact hsettles.kept htask hterminal htask'

/-- Without a terminal task no call is harmful. -/
theorem HubCall.harmless_of_open (hopen : ∀ row ∈ h.tasks.toList, row.2.status.terminal = false) :
    call.Harmless h := by
  intro taskId task status htask hterminal
  rw [hopen (taskId, task) (Table.mem_toList.mpr htask)] at hterminal
  cases hterminal

/-- A task that runs, is done, and has a last log line. -/
theorem terminal_final_done :
    TerminalFinal Env.sample Hub.sample (sampleConnects ++ [.submit 0 ⟨0, .CODEX, sampleInput⟩,
      .dispatch 0, .message 0 (.TASK_STATUS_UPDATE ⟨.id 0, .status .RUNNING⟩),
      .message 0 (.TASK_RESULT ⟨.id 0, .status .COMPLETED, none, none⟩)] ++
      [.message 0 (.TASK_LOG ⟨.id 0, js "bye"⟩)]) := by
  refine (terminal_final_iff Hub.sample_fresh (by decide)).mpr ?_
  rw [Machine.visits_append]
  refine List.forall_mem_append.mpr ⟨fun visit hvisit => ?_, ?_⟩
  · have hopen : ∀ visit ∈ (hubMachine Env.sample HubCall.Typed).visits Hub.sample
        (sampleConnects ++ [.submit 0 ⟨0, .CODEX, sampleInput⟩, .dispatch 0,
          .message 0 (.TASK_STATUS_UPDATE ⟨.id 0, .status .RUNNING⟩),
          .message 0 (.TASK_RESULT ⟨.id 0, .status .COMPLETED, none, none⟩)]),
        ∀ row ∈ visit.1.tasks.toList, row.2.status.terminal = false := by decide
    exact HubCall.harmless_of_open (hopen visit hvisit)
  · rintro visit hvisit
    rw [Machine.visits_cons, Machine.visits_nil, List.mem_singleton] at hvisit
    rw [hvisit]
    exact fun _ _ _ _ _ hw => hw.elim

/-- **A finished task that runs again**: the status update of the runner arrives
after its result. -/
theorem terminal_not_final :
    let calls := sampleConnects ++ [.submit 0 ⟨0, .CODEX, sampleInput⟩, .dispatch 0,
      .message 0 (.TASK_RESULT ⟨.id 0, .status .COMPLETED, none, none⟩)] ++
      [.message 0 (.TASK_STATUS_UPDATE ⟨.id 0, .status .RUNNING⟩)]
    (hubMachine Env.sample HubCall.Typed).Runs Hub.sample calls ∧
      ¬TerminalFinal Env.sample Hub.sample calls := by
  intro calls
  have hruns : (hubMachine Env.sample HubCall.Typed).Runs Hub.sample calls := by decide
  refine ⟨hruns, fun hfinal => ?_⟩
  have hdone : (((hubMachine Env.sample HubCall.Typed).exec Hub.sample (sampleConnects ++
      [.submit 0 ⟨0, .CODEX, sampleInput⟩, .dispatch 0,
        .message 0 (.TASK_RESULT ⟨.id 0, .status .COMPLETED, none, none⟩)])).tasks 0).map
      (·.status) = some .COMPLETED := by decide
  have hagain : (((hubMachine Env.sample HubCall.Typed).exec Hub.sample calls).tasks 0).map
      (·.status) = some .RUNNING := by decide
  obtain ⟨task, htask, hstatus⟩ := Option.map_eq_some_iff.mp hdone
  obtain ⟨task', htask', hstatus'⟩ := Option.map_eq_some_iff.mp hagain
  have hsame := hfinal _ _ [] (List.append_nil _).symm 0 task task' htask (by rw [hstatus]; rfl)
    htask'
  rw [hstatus, hstatus'] at hsame
  cases hsame

end CodeCaller
