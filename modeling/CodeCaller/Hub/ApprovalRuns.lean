import CodeCaller.Hub.Integrity
import CodeCaller.Hub.Operations

/-!
# Runs of `ApprovalsService`

An uninterrupted `decide` either refuses and leaves the Hub as it was, or makes one change to the
approval, one to the task and at most one emission.  A request for approval is stored, with the
status of its task, unless the task has an approval already.

These are equations about the rows, finer than the effects of `Hub.ServiceEffects`: they say which
branch is taken, and they give the whole call at once.  They are what the equivalences about
approvals are proved from, where it matters that a call does not merely allow a change but makes
it.
-/

namespace CodeCaller

open Async

variable {env : Env} {h : Hub}

/-- The rows after a message are those its handler left. -/
theorem message_rows (env : Env) (h : Hub) (socketId : ℕ) (inbound : DaemonInbound) :
    (h.after env (.message socketId inbound)).rows =
      ((DaemonGateway.onMessage env socketId inbound).run h).2.rows :=
  Proc.Guarantees.run_rest (fun _ => Proc.guarantees_pure _) Quiet.refl Quiet.trans h

/-- A stored task is found with its server. -/
theorem taskFindUniqueWithServer_run {taskId : TaskId} {task : Task} (hs : h.rows.Sound)
    (htask : h.tasks taskId = some task) :
    ∃ home, h.servers task.serverId = some home ∧
      (Prisma.taskFindUniqueWithServer taskId).run h = (.ok (some (task, home)), h) := by
  obtain ⟨home, hhome⟩ := hs.task_server htask
  refine ⟨home, hhome, ?_⟩
  change (Except.ok (h.taskWithServer taskId), h) = _
  unfold Hub.taskWithServer
  rw [htask, Option.bind_some, show h.servers task.serverId = some home from hhome]
  rfl

/-- What `decide` checks: the approval is there, pending, and of a task of its
user. -/
def Hub.CanDecide (h : Hub) (ownerId : UserId) (approvalId : ApprovalId) : Prop :=
  ∃ approval, h.approvals approvalId = some approval ∧ approval.status = .PENDING ∧
    h.ownerOf approval.taskId = some ownerId

/-- A task with the decision of the owner. -/
def Task.decided (dto : DecideApprovalDto) (date : Time) (task : Task) : Task :=
  { task with status := if dto.approve then .RUNNING else .CANCELLED, updatedAt := date }

/-- **`decide` refuses** whatever it does not find decidable. -/
theorem decide_refused {ownerId : UserId} {approvalId : ApprovalId} {dto : DecideApprovalDto}
    (hnot : ¬h.CanDecide ownerId approvalId) :
    ∃ error, (ApprovalsService.decide env ownerId approvalId dto).run h = (.error error, h) := by
  unfold ApprovalsService.decide
  rw [Proc.run_bind_of_ok (Proc.run_read _ h)]
  cases hfound : ApprovalsService.approvalWithTask h approvalId with
  | none => exact ⟨_, rfl⟩
  | some found =>
      obtain ⟨approval, task, server⟩ := found
      obtain ⟨happroval, htask, hserver⟩ := approvalWithTask_some hfound
      dsimp only
      by_cases hforeign : server.ownerId ≠ ownerId
      · rw [if_pos hforeign]
        exact ⟨_, rfl⟩
      · rw [if_neg hforeign]
        by_cases hdecided : approval.status ≠ .PENDING
        · rw [if_pos hdecided]
          exact ⟨_, rfl⟩
        · refine absurd ⟨approval, happroval, not_not.mp hdecided, ?_⟩ hnot
          rw [← not_not.mp hforeign]
          exact ownerOf_of_rows (r := h.rows) htask hserver

/-- **`decide` decides** what it finds decidable: the approval, then its task, and
the server the task is on is told if its daemon is connected. -/
theorem decide_run {ownerId : UserId} {approvalId : ApprovalId} {dto : DecideApprovalDto}
    {approval : Approval} {task : Task} (happroval : h.approvals approvalId = some approval)
    (hpending : approval.status = .PENDING) (htask : h.tasks approval.taskId = some task)
    (howner : h.ownerOf approval.taskId = some ownerId) :
    ∃ h', (ApprovalsService.decide env ownerId approvalId dto).run h =
        (.ok (approvalId, approval.decided dto (env.clock h.reads)), h') ∧
      h'.rows = { h.rows with
        approvals := h.approvals.modify approvalId (Approval.decided dto (env.clock h.reads))
        tasks := h.tasks.modify approval.taskId (Task.decided dto (env.clock (h.reads + 1)))
        emitted := h.emitted ++
          if h.online task.serverId = true then
            [⟨task.serverId, .APPROVAL_DECISION approval.taskId dto.approve dto.reason⟩]
          else [] } := by
  obtain ⟨task', server, htask', hserver, hsame⟩ := ownerOf_some (r := h.rows) howner
  obtain rfl : task = task' := Option.some.inj (htask.symm.trans htask')
  have hfound : ApprovalsService.approvalWithTask h approvalId = some (approval, task, server) := by
    unfold ApprovalsService.approvalWithTask Hub.taskWithServer
    rw [happroval, Option.bind_some, htask, Option.bind_some,
      show h.servers task.serverId = some server from hserver]
    rfl
  unfold ApprovalsService.decide
  rw [Proc.run_bind_of_ok (Proc.run_read _ h), hfound]
  dsimp only
  rw [if_neg (not_not.mpr hsame), if_neg (not_not.mpr hpending), Proc.run_bind_of_ok now_run]
  -- the state after the update of the approval, and after the one of the task
  obtain ⟨h₁, hh₁⟩ : ∃ h₁ : Hub, h₁ = { h with
    reads := h.reads + 1
    approvals := h.approvals.modify approvalId (Approval.decided dto (env.clock h.reads)) } :=
    ⟨_, rfl⟩
  obtain ⟨h₂, hh₂⟩ : ∃ h₂ : Hub, h₂ = { h₁ with
    reads := h₁.reads + 1
    tasks := h₁.tasks.modify approval.taskId (Task.decided dto (env.clock h₁.reads)) } := ⟨_, rfl⟩
  have htask₁ : h₁.tasks approval.taskId = some task := by rw [hh₁]; exact htask
  have happrove : (Prisma.approvalUpdate approvalId (Approval.decided dto (env.clock h.reads))).run
      { h with reads := h.reads + 1 } =
        (.ok (approval.decided dto (env.clock h.reads)), h₁) := by
    rw [hh₁]
    exact approvalUpdate_run happroval
  have hwrite : (Prisma.taskUpdate env approval.taskId fun row =>
      { row with status := if dto.approve then .RUNNING else .CANCELLED }).run h₁ =
        (.ok (task.decided dto (env.clock h₁.reads)), h₂) := by
    rw [hh₂]
    exact taskUpdate_run htask₁ rfl
  have honline : h₂.online task.serverId = h.online task.serverId := by
    rw [hh₂, hh₁]
    rfl
  refine ⟨{ h₂ with
      emitted := h₂.emitted ++ if h.online task.serverId = true then
        [⟨task.serverId, .APPROVAL_DECISION approval.taskId dto.approve dto.reason⟩] else []
      notified := h₂.notified ++ [(ownerId, .APPROVAL_RESOLVED approvalId
        (approval.decided dto (env.clock h.reads)))] },
    (Proc.run_bind_of_ok happrove).trans ((Proc.run_bind_of_ok hwrite).trans ?_), ?_⟩
  · -- a daemon that is not connected is not told
    simp only [Proc.run_bind, Proc.run_tryCatch, dispatchToServer_run, honline]
    cases h.online task.serverId with
    | true => rfl
    | false =>
        simp only [Bool.false_eq_true, if_false, List.append_nil]
        rfl
  · rw [hh₂, hh₁]
    rfl

/-- A request for approval of a task that is not there is ignored. -/
theorem approvalRequest_unstored {payload : DaemonApprovalRequestPayload} {taskId : TaskId}
    (hid : payload.taskId = .id taskId) (htask : h.tasks taskId = none) :
    (ApprovalsService.handleDaemonApprovalRequest env payload).run h = (.ok (), h) := by
  have hfound : (Prisma.taskFindUniqueWithServer taskId).run h = (.ok none, h) := by
    change (Except.ok (h.taskWithServer taskId), h) = _
    unfold Hub.taskWithServer
    rw [htask]
    rfl
  unfold ApprovalsService.handleDaemonApprovalRequest
  rw [hid, Proc.run_bind_of_ok (show (Prisma.key (.id taskId)).run h = (.ok taskId, h) from rfl),
    Proc.run_bind_of_ok hfound]
  rfl

/-- **A request for approval of a task that has one** is refused by the schema. -/
theorem approvalRequest_refused {payload : DaemonApprovalRequestPayload} {taskId : TaskId}
    {task : Task} {id : ApprovalId} {approval : Approval} (hs : h.rows.Sound)
    (hid : payload.taskId = .id taskId) (htask : h.tasks taskId = some task)
    (happroval : h.approvals id = some approval) (hof : approval.taskId = taskId) :
    (ApprovalsService.handleDaemonApprovalRequest env payload).run h =
      (.error .uniqueConstraint, h) := by
  obtain ⟨home, -, hfound⟩ := taskFindUniqueWithServer_run hs htask
  have hcreate : (Prisma.approvalCreate env taskId payload.reason).run h =
      (.error .uniqueConstraint, h) := by
    unfold Prisma.approvalCreate
    rw [Proc.run_atomically, htask]
    refine if_pos (List.any_eq_true.mpr ⟨(id, approval), Table.mem_toList.mpr happroval, ?_⟩)
    exact beq_iff_eq.mpr hof
  unfold ApprovalsService.handleDaemonApprovalRequest
  rw [hid, Proc.run_bind_of_ok (show (Prisma.key (.id taskId)).run h = (.ok taskId, h) from rfl),
    Proc.run_bind_of_ok hfound]
  exact Proc.run_bind_of_error hcreate

/-- An approval as a daemon asks for it. -/
def Approval.asked (taskId : TaskId) (reason : Option JsString) (date : Time) : Approval :=
  { taskId, status := .PENDING, requestedAt := date, decidedAt := none, reason }

/-- A task that waits for approval. -/
def Task.held (date : Time) (task : Task) : Task :=
  { task with status := .AWAITING_APPROVAL, updatedAt := date }

/-- **A request for approval of a task without one** is stored, and the task
waits. -/
theorem approvalRequest_run {payload : DaemonApprovalRequestPayload} {taskId : TaskId}
    {task : Task} (hs : h.rows.Sound) (hid : payload.taskId = .id taskId)
    (htask : h.tasks taskId = some task)
    (hnone : ∀ id approval, h.approvals id = some approval → approval.taskId ≠ taskId) :
    ((ApprovalsService.handleDaemonApprovalRequest env payload).run h).2.rows = { h.rows with
      approvals := h.approvals.insert (.asked taskId payload.reason (env.clock h.reads))
      tasks := h.tasks.modify taskId (Task.held (env.clock (h.reads + 1))) } := by
  obtain ⟨home, -, hfound⟩ := taskFindUniqueWithServer_run hs htask
  obtain ⟨h₁, hh₁⟩ : ∃ h₁ : Hub, h₁ = { h with
    approvals := h.approvals.insert (.asked taskId payload.reason (env.clock h.reads))
    reads := h.reads + 1 } := ⟨_, rfl⟩
  have hcreate : (Prisma.approvalCreate env taskId payload.reason).run h =
      (.ok (h.approvals.next, .asked taskId payload.reason (env.clock h.reads)), h₁) := by
    have hany : ¬h.approvals.toList.any (fun row => row.2.taskId == taskId) = true := by
      intro hany
      obtain ⟨row, hmem, hof⟩ := List.any_eq_true.mp hany
      exact hnone row.1 row.2 (Table.mem_toList.mp hmem) (beq_iff_eq.mp hof)
    unfold Prisma.approvalCreate
    rw [Proc.run_atomically, htask]
    dsimp only
    rw [if_neg hany, hh₁]
    rfl
  unfold ApprovalsService.handleDaemonApprovalRequest
  rw [hid, Proc.run_bind_of_ok (show (Prisma.key (.id taskId)).run h = (.ok taskId, h) from rfl),
    Proc.run_bind_of_ok hfound]
  dsimp only
  rw [Proc.run_bind_of_ok hcreate]
  -- what follows the update of the task leaves the rows alone
  have hrest := Proc.Guarantees.run_rest (p := Prisma.taskUpdate env taskId fun row =>
      { row with status := .AWAITING_APPROVAL })
    (f := fun _ => do
      RealtimeService.notifyUser home.ownerId (.APPROVAL_PENDING h.approvals.next
        (.asked taskId payload.reason (env.clock h.reads)))
      NotificationsService.sendPush env home.ownerId (js "승인 필요") (payload.reason.getD []))
    (fun _ => (notifyUser_quiet _ _).bind fun _ => sendPush_quiet _ _ _) Quiet.refl Quiet.trans h₁
  have hwrite := @taskUpdate_rows env h₁ taskId
    (fun row => { row with status := .AWAITING_APPROVAL }) fun _ => rfl
  refine Eq.trans hrest (hwrite.trans ?_)
  rw [hh₁]
  rfl

end CodeCaller
