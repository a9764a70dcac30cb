import CodeCaller.Hub.Operations

/-!
# `TasksService` and `ApprovalsService` as chains of effects

For each handler `p` of a task or an approval, `p_reaches`: an uninterrupted run of `p` moves the
rows along a chain of `Effect`s of the call it is made for.  The proofs follow the handlers line by
line.  A query leaves the rows alone and gives the facts the next branch is taken on; a write is
one effect, and its guard is what the queries have given; what comes after the last write (notices,
pushes) is quiet, so it does not matter whether it throws.

The handler of a result is one effect or two, since a result that is not a capacity failure closes
an attempt and writes the status in separate steps, and the second may fail after the first.
`TaskAttempt.closed` describes the attempt in both cases, and `finishRunningAttempt_closes` is the
one lemma both handlers use for it.
-/

namespace CodeCaller

open Async

variable {env : Env} {call : HubCall} {h : Hub} {α β : Type}

/-! ## Messages of daemons -/

/-- `updateStatus` is one effect, if the `taskId` and the status are of the right type, and none
otherwise. -/
theorem updateStatus_reaches {ref : TaskRef} {status : StatusRef} {result : Option Json}
    (hconcern : ∀ taskId, ref = .id taskId → call.Concerns h.rows taskId)
    (hwrites : call.Writes) (hstatus : call.Typed → status ≠ .status .QUEUED) :
    (TasksService.updateStatus env ref status result).Reaches (Effect env call) Hub.rows h := by
  unfold TasksService.updateStatus
  cases ref with
  | filter selects => exact .of_eq rfl
  | invalid => exact .of_eq rfl
  | id taskId =>
      refine .bind (.of_eq rfl) fun id h' hkey => ?_
      obtain ⟨rfl, rfl⟩ : taskId = id ∧ h = h' := by simpa [Prisma.key] using hkey
      refine .ite (fun _ => .of_eq rfl) fun _ =>
        .bind (taskUpdate_reaches (hconcern taskId rfl) (fun _ => rfl) (fun _ => rfl) ?_)
          fun task h' _ => reaches_of_quiet ((serverOf_quiet task).bind fun server =>
            (notifyUser_quiet _ _).bind fun _ => Proc.guarantees_pure _) h'
      · intro task
        cases status with
        | status value => exact .inr ⟨hwrites, fun htyped hqueued =>
            hstatus htyped (congrArg _ hqueued)⟩
        | undefined => exact .inl rfl
        | invalid => exact .inl rfl

/-- `touchRunningAttempt` on behalf of a message. -/
theorem touchRunningAttempt_reaches {ref : TaskRef} (hreports : call.reports = some ref) :
    (TasksService.touchRunningAttempt env ref).Reaches (Effect env call) Hub.rows h := by
  cases hsel : ref.selects with
  | none => exact .of_eq (by rw [touchRunningAttempt_run_invalid hsel])
  | some selects =>
      obtain ⟨reads, hrun⟩ := touchRunningAttempt_run hsel
      refine .single ?_
      rw [hrun]
      exact .touched h.rows (env.clock h.reads) hreports hsel

theorem handleDaemonTaskStatus_reaches {socketId : ℕ} {payload : DaemonTaskStatusPayload}
    (hcall : call = .message socketId (.TASK_STATUS_UPDATE payload)) :
    (TasksService.handleDaemonTaskStatus env payload).Reaches (Effect env call) Hub.rows h := by
  subst hcall
  refine .bind (touchRunningAttempt_reaches rfl) fun _ h' _ => .bind
    (updateStatus_reaches ?_ trivial ?_) fun _ _ _ => .of_eq rfl
  · intro taskId hid
    exact concerns_id rfl (congrArg some hid)
  · rintro ⟨-, hreportable⟩ hqueued
    rw [hqueued] at hreportable
    exact hreportable rfl

/-- The attempt is seen, then the chunk is added. -/
theorem handleDaemonTaskLog_reaches {socketId : ℕ} {payload : DaemonTaskLogPayload}
    (hcall : call = .message socketId (.TASK_LOG payload)) :
    (TasksService.handleDaemonTaskLog env payload).Reaches (Effect env call) Hub.rows h := by
  subst hcall
  unfold TasksService.handleDaemonTaskLog
  cases hid : payload.taskId with
  | filter selects => exact .of_eq rfl
  | invalid => exact .of_eq rfl
  | id taskId =>
      have hreports : HubCall.reports (.message socketId (.TASK_LOG payload)) =
          some (.id taskId) := congrArg some hid
      refine .bind (.of_eq rfl) fun id h' hkey => ?_
      obtain ⟨rfl, rfl⟩ : taskId = id ∧ h = h' := by simpa [Prisma.key] using hkey
      refine .bind (.of_eq rfl) fun found h' _ => ?_
      cases found with
      | none => exact .of_eq rfl
      | some row =>
          refine .bind (touchRunningAttempt_reaches hreports) fun _ _ _ =>
            .bind (taskUpdate_reaches (concerns_id rfl hreports) (fun _ => rfl) (fun _ => rfl)
              fun _ => .inl rfl) fun _ _ _ =>
            reaches_of_quiet (notifyUser_quiet _ _) _

/-! ## Results -/

/-- `updateTaskAndNotify` on a stored task of a stored server returns. -/
theorem updateTaskAndNotify_run {taskId : TaskId} {task : Task} {server : Server}
    {status : TaskStatus} {result : Option Json} {logs : JsString}
    (htask : h.tasks taskId = some task) (hserver : h.servers task.serverId = some server) :
    ∃ updated h',
      (TasksService.updateTaskAndNotify env taskId status result logs).run h =
        (.ok (updated, server), h') ∧
      h'.rows = { h.rows with
        tasks := h.tasks.modify taskId fun row =>
          { row with
            status
            result := match result with
              | some value => some value
              | none => row.result
            logs
            updatedAt := env.clock h.reads } } := by
  unfold TasksService.updateTaskAndNotify Prisma.serverOf
  rw [Proc.run_bind, taskUpdate_run htask rfl]
  simp only [Proc.run_bind, Proc.run_read, hserver, Proc.run_pure]
  exact ⟨_, _, rfl, rfl⟩

theorem requeueTask_rows (taskId : TaskId) :
    ((TasksService.requeueTask taskId).run h).2.rows =
      { h.rows with jobs := h.jobs.insert ⟨some taskId, 0, 5, .waiting⟩ } := rfl

/-- **`finishRunningAttempt` closes the attempt as the payload says**, in both
places that call it. -/
theorem finishRunningAttempt_closes {payload : DaemonTaskResultPayload} {ref : TaskRef}
    {selects : TaskId → Bool} {status : TaskAttemptStatus} {reason : Option JsString}
    (hsel : ref.selects = some selects)
    (hclosed : ∀ lastSeen finished attempt, TaskAttempt.closed payload lastSeen finished attempt =
      { attempt with
        status
        failureReason := match reason with
          | some reason => some reason
          | none => attempt.failureReason
        lastSeenAt := lastSeen
        finishedAt := some finished }) :
    ∃ h', (TasksService.finishRunningAttempt env ref status reason).run h = (.ok (), h') ∧
      h'.rows = { h.rows with
        attempts := updateActive env selects
          (TaskAttempt.closed payload (env.clock h.reads) (env.clock (h.reads + 1)))
          h.attempts } := by
  obtain ⟨reads, hrun⟩ := @finishRunningAttempt_run env h ref selects status reason hsel
  refine ⟨_, hrun, ?_⟩
  rw [funext (hclosed (env.clock h.reads) (env.clock (h.reads + 1)))]
  rfl

/-- What a capacity failure writes into the attempt. -/
theorem closed_of_capacity {payload : DaemonTaskResultPayload}
    (hcapacity : TasksService.isRetryableCapacityFailure payload = true) (lastSeen finished : Time)
    (attempt : TaskAttempt) :
    TaskAttempt.closed payload lastSeen finished attempt =
      { attempt with
        status := .FAILED
        failureReason := some (TasksService.formatStructuredFailureReason payload)
        lastSeenAt := lastSeen
        finishedAt := some finished } :=
  if_pos hcapacity

/-- What any other result writes into it. -/
theorem closed_of_not_capacity {payload : DaemonTaskResultPayload}
    (hcapacity : ¬TasksService.isRetryableCapacityFailure payload = true)
    (lastSeen finished : Time) (attempt : TaskAttempt) :
    TaskAttempt.closed payload lastSeen finished attempt =
      { attempt with
        status := if payload.status = .status .COMPLETED then .SUCCEEDED else .FAILED
        failureReason := match if payload.status = .status .FAILED
            then some (js "Daemon reported task failure.") else none with
          | some reason => some reason
          | none => attempt.failureReason
        lastSeenAt := lastSeen
        finishedAt := some finished } := by
  unfold TaskAttempt.closed
  rw [if_neg hcapacity]
  by_cases hfailed : payload.status = .status .FAILED
  · rw [if_pos hfailed, if_pos hfailed]
  · rw [if_neg hfailed, if_neg hfailed]

/-- The attempt is closed, and then the task is queued again or failed. -/
theorem handleRetryableCapacityFailure_reaches {socketId : ℕ} {payload : DaemonTaskResultPayload}
    (hcall : call = .message socketId (.TASK_RESULT payload))
    (hcapacity : TasksService.isRetryableCapacityFailure payload = true) :
    (TasksService.handleRetryableCapacityFailure env payload).Reaches (Effect env call)
      Hub.rows h := by
  unfold TasksService.handleRetryableCapacityFailure
  cases hid : payload.taskId with
  | filter selects => exact .of_eq rfl
  | invalid => exact .of_eq rfl
  | id taskId =>
      have hreports : call.reports = some (.id taskId) := by
        rw [hcall]
        exact congrArg some hid
      have huser : call.user = none := by rw [hcall]; rfl
      have hwrites : call.Writes := by rw [hcall]; trivial
      refine .bind (.of_eq rfl) fun id h' hkey => ?_
      obtain ⟨rfl, rfl⟩ : taskId = id ∧ h = h' := by simpa [Prisma.key] using hkey
      refine .bind (.of_eq rfl) fun found h' hread => ?_
      obtain ⟨hfound, rfl⟩ : h.taskWithServer taskId = found ∧ h = h' := by
        simpa [Prisma.taskFindUniqueWithServer] using hread
      cases found with
      | none => exact .of_eq rfl
      | some found =>
          obtain ⟨task, server⟩ := found
          obtain ⟨htask, hserver⟩ := taskWithServer_some hfound
          obtain ⟨h₁, hfinish, hrows⟩ := @finishRunningAttempt_closes env h payload
            (.id taskId) _ .FAILED (some (TasksService.formatStructuredFailureReason payload)) rfl
            (closed_of_capacity hcapacity)
          have htask₁ : h₁.tasks taskId = some task := by
            rw [show h₁.tasks = h.tasks from congrArg Rows.tasks hrows, htask]
          have hserver₁ : h₁.servers task.serverId = some server := by
            rw [show h₁.servers = h.servers from congrArg Rows.servers hrows, hserver]
          -- the attempt is closed in any case
          have hsettled : Effect env call h.rows h₁.rows := by
            rw [hrows]
            exact .settled h.rows _ _ hcall (congrArg TaskRef.selects hid)
          unfold Proc.Reaches
          obtain ⟨excluded, hexcluded, -⟩ := retryExcludedServerIds_run env h₁ taskId
          rw [Proc.run_bind_of_ok hfinish, Proc.run_bind_of_ok hexcluded]
          cases hrun : (WorkerRegistry.getDispatchCandidates env task.workerType task.serverId
              excluded).run h₁ with
          | mk outcome h₂ =>
            obtain ⟨rfl, -⟩ := getDispatchCandidates_spec hrun
            cases outcome with
            | error error =>
                rw [Proc.run_bind_of_error hrun]
                exact .single hsettled
            | ok candidates =>
                rw [Proc.run_bind_of_ok hrun]
                cases candidates with
                | nil =>
                    -- without another candidate the task fails
                    obtain ⟨updated, h₃, hupdate, hrows₃⟩ :=
                      updateTaskAndNotify_run htask₁ hserver₁
                    dsimp only
                    rw [Proc.run_bind_of_ok hupdate]
                    refine (Relation.ReflTransGen.single hsettled).trans ?_
                    refine Relation.ReflTransGen.trans (.single ?_)
                      (reaches_of_quiet (sendPush_quiet _ _ _) h₃)
                    rw [hrows₃]
                    exact .relabelled h₁.rows (concerns_id huser hreports) (fun _ => rfl)
                      (fun _ => rfl) fun _ => .inr ⟨hwrites, fun _ => nofun⟩
                | cons first rest =>
                    obtain ⟨updated, h₃, hupdate, hrows₃⟩ :=
                      updateTaskAndNotify_run htask₁ hserver₁
                    dsimp only
                    rw [Proc.run_bind_of_ok hupdate]
                    -- with one it is queued again, in one effect with the attempt
                    refine .single ?_
                    have htasks : h₁.tasks = h.tasks := congrArg Rows.tasks hrows
                    have hjobs : h₃.jobs = h.jobs :=
                      (congrArg Rows.jobs hrows₃).trans (congrArg Rows.jobs hrows)
                    rw [requeueTask_rows, hjobs, hrows₃, htasks, hrows]
                    exact .failedOver h.rows _ _ _ _ hcall hid hcapacity htask

theorem handleDaemonTaskResult_reaches {socketId : ℕ} {payload : DaemonTaskResultPayload}
    (hcall : call = .message socketId (.TASK_RESULT payload)) :
    (TasksService.handleDaemonTaskResult env payload).Reaches (Effect env call) Hub.rows h := by
  have hreports : call.reports = some payload.taskId := by rw [hcall]; rfl
  have huser : call.user = none := by rw [hcall]; rfl
  have hwrites : call.Writes := by rw [hcall]; trivial
  refine .ite (fun hcapacity => .bind (handleRetryableCapacityFailure_reaches hcall hcapacity)
    fun _ _ _ => .of_eq rfl) fun hcapacity => ?_
  refine .bind ?_ fun _ h' _ => .bind (updateStatus_reaches ?_ hwrites ?_) fun _ _ _ =>
    reaches_of_quiet (sendPush_quiet _ _ _) _
  · cases hsel : payload.taskId.selects with
    | none => exact .of_eq (by rw [finishRunningAttempt_run_invalid hsel])
    | some selects =>
        obtain ⟨h₁, hrun, hrows⟩ := @finishRunningAttempt_closes env h payload _ _ _ _ hsel
          (closed_of_not_capacity hcapacity)
        refine .single ?_
        rw [hrun, hrows]
        exact .settled h.rows _ _ hcall hsel
  · intro taskId hid
    exact concerns_id huser (hreports.trans (congrArg some hid))
  · intro htyped hqueued
    rw [hcall] at htyped
    have hresult : payload.status.Result := htyped.2
    rw [hqueued] at hresult
    rcases hresult with h | h <;> cases h

/-! ## Approvals -/

/-- The approval and the status of its task are two effects: the second may fail. -/
theorem handleDaemonApprovalRequest_reaches {socketId : ℕ} {payload : DaemonApprovalRequestPayload}
    (hcall : call = .message socketId (.APPROVAL_REQUEST payload)) :
    (ApprovalsService.handleDaemonApprovalRequest env payload).Reaches (Effect env call)
      Hub.rows h := by
  unfold ApprovalsService.handleDaemonApprovalRequest
  cases hid : payload.taskId with
  | filter selects => exact .of_eq rfl
  | invalid => exact .of_eq rfl
  | id taskId =>
      refine .bind (.of_eq rfl) fun id h' hkey => ?_
      obtain ⟨rfl, rfl⟩ : taskId = id ∧ h = h' := by simpa [Prisma.key] using hkey
      refine .bind (.of_eq rfl) fun found h' hread => ?_
      obtain ⟨hfound, rfl⟩ : h.taskWithServer taskId = found ∧ h = h' := by
        simpa [Prisma.taskFindUniqueWithServer] using hread
      cases found with
      | none => exact .of_eq rfl
      | some found =>
          obtain ⟨task, server⟩ := found
          obtain ⟨htask, hserver⟩ := taskWithServer_some hfound
          have hreports : call.reports = some (.id taskId) := by
            rw [hcall]
            exact congrArg some hid
          have huser : call.user = none := by rw [hcall]; rfl
          have hwrites : call.Writes := by rw [hcall]; trivial
          refine .bind ?_ fun created h' _ => .bind (taskUpdate_reaches
            (concerns_id huser hreports) (fun _ => rfl) (fun _ => rfl)
            fun _ => .inr ⟨hwrites, fun _ => nofun⟩)
            fun _ _ _ => reaches_of_quiet ((notifyUser_quiet _ _).bind fun _ =>
              sendPush_quiet _ _ _) _
          unfold Prisma.approvalCreate Proc.Reaches
          rw [Proc.run_atomically, htask]
          dsimp only
          split
          · exact .refl
          · next hnone =>
            refine .single (.approvalCreated h.rows (env.clock h.reads) hcall hid htask ?_)
            intro id approval happroval hsame
            exact hnone (List.any_eq_true.mpr
              ⟨(id, approval), Table.mem_toList.mpr happroval, beq_iff_eq.mpr hsame⟩)

/-- A message sent on behalf of a call, where a failure is caught or thrown. -/
theorem dispatchToServer_reaches {task : Task} {message : DaemonOutbound}
    (hconcern : call.Concerns h.rows message.taskId)
    (htask : h.tasks message.taskId = some task)
    (hmessage : (∃ ownerId, call = .cancel ownerId message.taskId ∧
        message = .TASK_CANCEL message.taskId) ∨
      ∃ ownerId approvalId dto approval, call = .decideApproval ownerId approvalId dto ∧
        h.approvals approvalId = some approval ∧ approval.taskId = message.taskId ∧
        approval.status = (if dto.approve then .APPROVED else .REJECTED) ∧
        message = .APPROVAL_DECISION message.taskId dto.approve dto.reason) :
    (RealtimeService.dispatchToServer task.serverId message).Reaches (Effect env call)
      Hub.rows h := by
  unfold Proc.Reaches
  rw [dispatchToServer_run]
  split
  · next honline =>
    exact .single (.sent h.rows hconcern htask (online_iff.mp honline) hmessage)
  · exact .refl

/-- The approval is decided, the task follows, and the daemon is told if it is connected. -/
theorem decide_reaches {ownerId : UserId} {approvalId : ApprovalId} {dto : DecideApprovalDto}
    (hcall : call = .decideApproval ownerId approvalId dto) :
    (ApprovalsService.decide env ownerId approvalId dto).Reaches (Effect env call) Hub.rows h := by
  have huser : call.user = some ownerId := by rw [hcall]; rfl
  have hreports : call.reports = none := by rw [hcall]; rfl
  have hwrites : call.Writes := by rw [hcall]; trivial
  unfold ApprovalsService.decide
  refine .bind (.of_eq rfl) fun found h' hread => ?_
  obtain ⟨hfound, rfl⟩ : ApprovalsService.approvalWithTask h approvalId = found ∧ h = h' := by
    simpa using hread
  cases found with
  | none => exact .of_eq rfl
  | some found =>
      obtain ⟨approval, task, server⟩ := found
      obtain ⟨happroval, htask, hserver⟩ := approvalWithTask_some hfound
      -- neither the decision of another user nor a second one writes anything
      refine .ite (fun _ => .of_eq rfl) fun howner => .ite (fun _ => .of_eq rfl) fun hpending => ?_
      refine .bind (.of_eq rfl) fun date h₁ hnow => ?_
      have happroval₁ : h₁.approvals approvalId = some approval := by
        cases hnow
        exact happroval
      have htask₁ : h₁.tasks approval.taskId = some task := by
        cases hnow
        exact htask
      have hserver₁ : h₁.servers task.serverId = some server := by
        cases hnow
        exact hserver
      -- the owner is the one of the server, as long as the task stays on it
      have howns : ∀ {r : Rows} {row : Task}, r.tasks approval.taskId = some row →
          r.servers row.serverId = some server → r.ownerOf approval.taskId = some ownerId :=
        fun hrow hrowServer => by rw [ownerOf_of_rows hrow hrowServer, not_not.mp howner]
      refine .bind (.single ?_) fun updated h₂ hupdate => ?_
      · rw [approvalUpdate_run happroval₁]
        exact .approvalDecided h₁.rows date hcall happroval₁ (not_not.mp hpending)
          (howns htask₁ hserver₁)
      rw [approvalUpdate_run happroval₁] at hupdate
      have htask₂ : h₂.tasks approval.taskId = some task := by
        cases hupdate
        exact htask₁
      have hserver₂ : h₂.servers task.serverId = some server := by
        cases hupdate
        exact hserver₁
      have happroval₂ : h₂.approvals approvalId = some (approval.decided dto date) := by
        cases hupdate
        rw [Table.modify_apply, if_pos rfl, happroval₁]
        rfl
      refine .bind (taskUpdate_reaches (concerns_owned huser hreports (howns htask₂ hserver₂))
        (fun _ => rfl) (fun _ => rfl) fun _ => .inr ⟨hwrites, fun _ => ?_⟩)
          fun moved h₃ hrelabel => ?_
      · cases dto.approve <;> exact nofun
      obtain ⟨htask₃, hmoved, hservers₃, happrovals₃⟩ := taskUpdate_kept htask₂ rfl hrelabel
      refine .bind (.tryCatch ?_ fun _ _ _ => .of_eq rfl) fun _ _ _ => .bind
        (reaches_of_quiet (notifyUser_quiet _ _) _) fun _ _ _ => .of_eq rfl
      rw [← hmoved]
      refine dispatchToServer_reaches (concerns_owned huser hreports (howns htask₃ ?_)) htask₃
        (.inr ⟨ownerId, approvalId, dto, approval.decided dto date, hcall, ?_, rfl, rfl, rfl⟩)
      · change h₃.servers moved.serverId = some server
        rw [hservers₃, hmoved, hserver₂]
      · rw [happrovals₃, happroval₂]

/-! ## Requests of users -/

/-- The message is sent before the task is cancelled. -/
theorem cancel_reaches {ownerId : UserId} {taskId : TaskId}
    (hcall : call = .cancel ownerId taskId) :
    (TasksService.cancel env ownerId taskId).Reaches (Effect env call) Hub.rows h := by
  have huser : call.user = some ownerId := by rw [hcall]; rfl
  have hreports : call.reports = none := by rw [hcall]; rfl
  have hwrites : call.Writes := by rw [hcall]; trivial
  unfold TasksService.cancel
  refine .bind (.of_eq (congrArg Hub.rows (getOwnedTask_spec rfl).1.symm)) fun task h' hget => ?_
  obtain ⟨rfl, howned⟩ := getOwnedTask_spec hget
  obtain ⟨htask, howns⟩ := howned task rfl
  unfold WorkerRegistry.get
  by_cases hcodex : task.workerType = CodexAdapter.workerType
  · rw [if_pos hcodex]
    refine .bind (.of_eq rfl) fun adapter h' hadapter => ?_
    obtain ⟨rfl, rfl⟩ : AIWorkerAdapter.mk CodexAdapter.submitTask CodexAdapter.cancelTask =
        adapter ∧ h = h' := by simpa using hadapter
    have hconcern : call.Concerns h.rows taskId := concerns_owned huser hreports howns
    have hcancel : (CodexAdapter.cancelTask taskId).run h =
        (RealtimeService.dispatchToServer task.serverId (.TASK_CANCEL taskId)).run h := by
      unfold CodexAdapter.cancelTask CodexAdapter.findTaskOrThrow Prisma.taskFindUnique
      simp only [Proc.run_bind, Proc.run_read, htask, Proc.run_pure]
    have hsent : (RealtimeService.dispatchToServer task.serverId (.TASK_CANCEL taskId)).Reaches
        (Effect env call) Hub.rows h :=
      dispatchToServer_reaches hconcern htask (.inl ⟨ownerId, hcall, rfl⟩)
    refine .bind ?_ fun _ h' hsend => .bind (updateStatus_reaches ?_ hwrites fun _ => nofun)
      fun _ _ _ => .of_eq rfl
    · unfold Proc.Reaches
      rw [hcancel]
      exact hsent
    · intro id hid
      cases hid
      rw [hcancel, dispatchToServer_run] at hsend
      split at hsend
      · cases hsend
        exact hconcern
      · cases hsend
  · rw [if_neg hcodex]
    exact .of_eq rfl

/-- **A submission** throws before it changes anything, or stores a task on a
server of the user and a job for it. -/
theorem submit_run (env : Env) (h : Hub) (ownerId : UserId) (dto : CreateTaskDto) :
    (∃ error, (TasksService.submit env ownerId dto).run h = (.error error, h)) ∨
    ∃ server task, h.servers dto.serverId = some server ∧ server.ownerId = ownerId ∧
      task = Task.mk dto.serverId dto.workerType .QUEUED dto.input none [] (env.clock h.reads)
        (env.clock h.reads) ∧
      (TasksService.submit env ownerId dto).run h = (.ok (h.tasks.next, task),
        { h with
          tasks := h.tasks.insert task
          jobs := h.jobs.insert ⟨some h.tasks.next, 0, 5, .waiting⟩
          watchdogScheduled := true
          reads := h.reads + 1 }) := by
  unfold TasksService.submit ServersService.findOneForOwner
  cases hget : (ServersService.getOwnedServer ownerId dto.serverId).run h with
  | mk outcome h' =>
    obtain ⟨rfl, howned⟩ := getOwnedServer_spec hget
    cases outcome with
    | error error => exact .inl ⟨error, Proc.run_bind_of_error (Proc.run_bind_of_error hget)⟩
    | ok server =>
        obtain ⟨hserver, howner⟩ := howned server rfl
        refine .inr ⟨server, _, hserver, howner, rfl, ?_⟩
        have hfind : (do
            let server ← ServersService.getOwnedServer ownerId dto.serverId
            return ServersService.toPublic dto.serverId server : HubM PublicServer).run h =
            (.ok (ServersService.toPublic dto.serverId server), h) :=
          Proc.run_bind_of_ok hget
        rw [Proc.run_bind_of_ok hfind]
        simp only [Prisma.taskCreate, Proc.run_bind, Proc.run_atomically, hserver]
        rfl

/-- The task and its job. -/
theorem submit_reaches {ownerId : UserId} {dto : CreateTaskDto}
    (hcall : call = .submit ownerId dto) :
    (TasksService.submit env ownerId dto).Reaches (Effect env call) Hub.rows h := by
  unfold Proc.Reaches
  rcases submit_run env h ownerId dto with
    ⟨error, hrun⟩ | ⟨server, task, hserver, howner, rfl, hrun⟩
  · rw [hrun]
  · rw [hrun]
    exact .single (.submitted h.rows (env.clock h.reads) hcall hserver howner)

end CodeCaller
