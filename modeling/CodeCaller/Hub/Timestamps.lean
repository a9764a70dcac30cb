import CodeCaller.Hub.Nodes

/-!
# `updatedAt`

Every node that writes a task stamps it, and no node turns the clock back.  So what a call did to a
task is dated after the call began, as long as the clock is monotone.

`Stamped` is the relation, and it is closed under composition only for a monotone clock
(`Stamped.trans`): a later reading of the clock must not be earlier.  Each operation keeps it node
by node, so the lemmas are `Guarantees` and would serve a pool as well.  There is one for each
operation of the Hub, and nothing is to be said about any of them: `@updatedAt` is in `taskUpdate`
and `taskCreate`, and everything else leaves the tasks alone or deletes them.

`after_stamped` is the form in which it is used.
-/

namespace CodeCaller

open Async

variable {env : Env} {h h' : Hub} {α : Type}

/-- **Time passes**: the clock was read further, and a task that was written is stamped. -/
structure Stamped (env : Env) (h h' : Hub) : Prop where
  reads : h.reads ≤ h'.reads
  task : ∀ ⦃taskId task'⦄, h'.tasks taskId = some task' →
    h.tasks taskId = some task' ∨ env.clock h.reads ≤ task'.updatedAt

/-- The tasks are left alone. -/
theorem Stamped.of_tasks (htasks : h'.tasks = h.tasks) (hreads : h.reads ≤ h'.reads) :
    Stamped env h h' := by
  refine ⟨hreads, fun taskId task' htask' => .inl ?_⟩
  rw [← htasks]
  exact htask'

@[refl] theorem Stamped.refl (h : Hub) : Stamped env h h := .of_tasks rfl le_rfl

/-- Two stamps are one, if the clock does not go back. -/
theorem Stamped.trans {h'' : Hub} (hclock : Monotone env.clock) (hfirst : Stamped env h h')
    (hsecond : Stamped env h' h'') : Stamped env h h'' where
  reads := hfirst.reads.trans hsecond.reads
  task taskId task'' htask'' := by
    rcases hsecond.task htask'' with hkept | hlate
    · exact hfirst.task hkept
    · exact .inr ((hclock hfirst.reads).trans hlate)

/-! ## Operations -/

theorem read_stamped (query : Hub → α) : (Proc.read query : HubM α).Guarantees (Stamped env) :=
  Proc.guarantees_read Stamped.refl query

theorem now_stamped : (now env).Guarantees (Stamped env) :=
  Proc.guarantees_take fun _ => .of_tasks rfl (Nat.le_succ _)

theorem draw_stamped : draw.Guarantees (Stamped env) :=
  Proc.guarantees_take fun _ => .of_tasks rfl le_rfl

/-- A notice leaves the tasks alone, and so do messages and pushes. -/
theorem notifyUser_stamped (userId : UserId) (message : AppOutbound) :
    (RealtimeService.notifyUser userId message).Guarantees (Stamped env) :=
  Proc.guarantees_modify fun _ => .of_tasks rfl le_rfl

theorem dispatchToServer_stamped (serverId : ServerId) (message : DaemonOutbound) :
    (RealtimeService.dispatchToServer serverId message).Guarantees (Stamped env) :=
  (read_stamped _).bind fun _ => .ite (fun _ => Proc.guarantees_throw _) fun _ =>
    Proc.guarantees_modify fun _ => .of_tasks rfl le_rfl

theorem sendPush_stamped (userId : UserId) (title body : JsString) :
    (NotificationsService.sendPush env userId title body).Guarantees (Stamped env) :=
  sendPush_guarantees Stamped.refl (fun _ _ => .of_tasks rfl le_rfl) userId title body

/-- `@updatedAt`: the row is stamped by the update itself. -/
theorem taskUpdate_stamped (taskId : TaskId) (f : Task → Task) :
    (Prisma.taskUpdate env taskId f).Guarantees (Stamped env) := by
  refine Proc.guarantees_atomically fun h => ?_
  cases htask : h.tasks taskId with
  | none => exact .refl h
  | some task =>
      dsimp only
      split
      · exact .refl h
      · refine ⟨Nat.le_succ _, fun other task' htask' => ?_⟩
        rw [Table.modify_apply] at htask'
        split at htask'
        · obtain ⟨row, -, rfl⟩ := Option.map_eq_some_iff.mp htask'
          exact .inr le_rfl
        · exact .inl htask'

/-- A new row is stamped with its creation. -/
theorem taskCreate_stamped (serverId : ServerId) (workerType : WorkerType) (input : Json) :
    (Prisma.taskCreate env serverId workerType input).Guarantees (Stamped env) := by
  refine Proc.guarantees_atomically fun h => ?_
  cases h.servers serverId with
  | none => exact .refl h
  | some server =>
      refine ⟨Nat.le_succ _, fun other task' htask' => ?_⟩
      rw [Table.insert_apply] at htask'
      split at htask'
      · cases htask'
        exact .inr le_rfl
      · exact .inl htask'

/-- The clock is read for `startedAt`, and no task is touched. -/
theorem attemptCreate_stamped (taskId : TaskId) (serverId : ServerId)
    (status : TaskAttemptStatus) :
    (Prisma.taskAttemptCreate env taskId serverId status).Guarantees (Stamped env) := by
  refine Proc.guarantees_atomically fun h => ?_
  split
  · exact .of_tasks rfl (Nat.le_succ _)
  · exact .refl h

theorem attemptUpdate_stamped (id : TaskAttemptId) (f : TaskAttempt → TaskAttempt) :
    (Prisma.taskAttemptUpdate id f).Guarantees (Stamped env) := by
  refine Proc.guarantees_atomically fun h => ?_
  split
  · exact .refl h
  · exact .of_tasks rfl le_rfl

/-- The clock is read for `createdAt`, and no task is touched. -/
theorem approvalCreate_stamped (taskId : TaskId) (reason : Option JsString) :
    (Prisma.approvalCreate env taskId reason).Guarantees (Stamped env) := by
  refine Proc.guarantees_atomically fun h => ?_
  split
  · exact .refl h
  · dsimp only
    split
    · exact .refl h
    · exact .of_tasks rfl (Nat.le_succ _)

theorem approvalUpdate_stamped (approvalId : ApprovalId) (f : Approval → Approval) :
    (Prisma.approvalUpdate approvalId f).Guarantees (Stamped env) := by
  refine Proc.guarantees_atomically fun h => ?_
  split
  · exact .refl h
  · exact .of_tasks rfl le_rfl

theorem serverUpdate_stamped (serverId : ServerId) (f : Server → Server) :
    (Prisma.serverUpdate serverId f).Guarantees (Stamped env) := by
  refine Proc.guarantees_atomically fun h => ?_
  split
  · exact .refl h
  · exact .of_tasks rfl le_rfl

theorem enqueueDispatch_stamped (taskId : TaskId) :
    (enqueueDispatch taskId).Guarantees (Stamped env) :=
  Proc.guarantees_atomically fun _ => .of_tasks rfl le_rfl

theorem serverOf_stamped (task : Task) : (Prisma.serverOf task).Guarantees (Stamped env) := by
  refine (read_stamped _).bind fun found => ?_
  cases found with
  | none => exact Proc.guarantees_throw _
  | some server => exact Proc.guarantees_pure _

theorem key_stamped (ref : TaskRef) : (Prisma.key ref).Guarantees (Stamped env) := by
  cases ref with
  | id taskId => exact Proc.guarantees_pure _
  | filter selects => exact Proc.guarantees_throw _
  | invalid => exact Proc.guarantees_throw _

theorem findActive_stamped (ref : TaskRef) :
    (Prisma.taskAttemptFindActive env ref).Guarantees (Stamped env) := by
  unfold Prisma.taskAttemptFindActive
  split
  · exact Proc.guarantees_throw _
  · exact read_stamped _

theorem get_stamped (workerType : WorkerType) :
    (WorkerRegistry.get workerType).Guarantees (Stamped env) :=
  .ite (fun _ => Proc.guarantees_pure _) fun _ => Proc.guarantees_throw _

theorem getDispatchCandidates_stamped (workerType : WorkerType) (serverId : ServerId)
    (excluded : List ServerId) :
    (WorkerRegistry.getDispatchCandidates env workerType serverId excluded).Guarantees
      (Stamped env) := by
  refine (get_stamped _).bind fun _ => (read_stamped _).bind fun found => ?_
  cases found with
  | none => exact Proc.guarantees_throw _
  | some server => exact (read_stamped _).bind fun _ => Proc.guarantees_pure _

theorem getOwnedTask_stamped (ownerId : UserId) (taskId : TaskId) :
    (TasksService.getOwnedTask ownerId taskId).Guarantees (Stamped env) := by
  refine (read_stamped _).bind fun found => ?_
  cases found with
  | none => exact Proc.guarantees_throw _
  | some found =>
      exact .ite (fun _ => Proc.guarantees_throw _) fun _ => Proc.guarantees_pure _

theorem getOwnedServer_stamped (ownerId : UserId) (serverId : ServerId) :
    (ServersService.getOwnedServer ownerId serverId).Guarantees (Stamped env) := by
  refine (read_stamped _).bind fun found => ?_
  cases found with
  | none => exact Proc.guarantees_throw _
  | some server =>
      exact .ite (fun _ => Proc.guarantees_throw _) fun _ => Proc.guarantees_pure _

/-! ## Tasks and approvals -/

theorem touchRunningAttempt_stamped (ref : TaskRef) :
    (TasksService.touchRunningAttempt env ref).Guarantees (Stamped env) := by
  refine (findActive_stamped _).bind fun found => ?_
  cases found with
  | none => exact Proc.guarantees_pure _
  | some id => exact now_stamped.bind fun _ => attemptUpdate_stamped _ _

theorem finishRunningAttempt_stamped (ref : TaskRef) (status : TaskAttemptStatus)
    (reason : Option JsString) :
    (TasksService.finishRunningAttempt env ref status reason).Guarantees (Stamped env) := by
  refine (findActive_stamped _).bind fun found => ?_
  cases found with
  | none => exact Proc.guarantees_pure _
  | some id => exact now_stamped.bind fun _ => now_stamped.bind fun _ => attemptUpdate_stamped _ _

theorem updateStatus_stamped (ref : TaskRef) (status : StatusRef) (result : Option Json) :
    (TasksService.updateStatus env ref status result).Guarantees (Stamped env) :=
  (key_stamped _).bind fun _ => .ite (fun _ => Proc.guarantees_throw _) fun _ =>
    (taskUpdate_stamped _ _).bind fun _ => (serverOf_stamped _).bind fun _ =>
      (notifyUser_stamped _ _).bind fun _ => Proc.guarantees_pure _

theorem updateTaskAndNotify_stamped (taskId : TaskId) (status : TaskStatus) (result : Option Json)
    (logs : JsString) :
    (TasksService.updateTaskAndNotify env taskId status result logs).Guarantees (Stamped env) :=
  (taskUpdate_stamped _ _).bind fun _ => (serverOf_stamped _).bind fun _ =>
    (notifyUser_stamped _ _).bind fun _ => Proc.guarantees_pure _

theorem submit_stamped (ownerId : UserId) (dto : CreateTaskDto) :
    (TasksService.submit env ownerId dto).Guarantees (Stamped env) :=
  ((getOwnedServer_stamped _ _).bind fun _ => Proc.guarantees_pure _).bind fun _ =>
    (taskCreate_stamped _ _ _).bind fun _ => (enqueueDispatch_stamped _).bind fun _ =>
      (Proc.guarantees_atomically fun _ => .of_tasks rfl le_rfl).bind fun _ =>
        Proc.guarantees_pure _

theorem cancel_stamped (ownerId : UserId) (taskId : TaskId) :
    (TasksService.cancel env ownerId taskId).Guarantees (Stamped env) := by
  refine (getOwnedTask_stamped _ _).bind fun task => ?_
  unfold WorkerRegistry.get
  split
  · change (CodexAdapter.cancelTask taskId >>= fun _ => _ : HubM _).Guarantees (Stamped env)
    refine Proc.Guarantees.bind ((Proc.Guarantees.bind (read_stamped _) fun found => ?_).bind
      fun _ => dispatchToServer_stamped _ _) fun _ =>
        (updateStatus_stamped _ _ _).bind fun _ => Proc.guarantees_pure _
    cases found with
    | none => exact Proc.guarantees_throw _
    | some task => exact Proc.guarantees_pure _
  · exact Proc.guarantees_throw _

theorem handleDaemonTaskStatus_stamped (payload : DaemonTaskStatusPayload) :
    (TasksService.handleDaemonTaskStatus env payload).Guarantees (Stamped env) :=
  (touchRunningAttempt_stamped _).bind fun _ => (updateStatus_stamped _ _ _).bind fun _ =>
    Proc.guarantees_pure _

theorem handleDaemonTaskLog_stamped (payload : DaemonTaskLogPayload) :
    (TasksService.handleDaemonTaskLog env payload).Guarantees (Stamped env) := by
  refine (key_stamped _).bind fun taskId => (read_stamped _).bind fun found => ?_
  cases found with
  | none => exact Proc.guarantees_pure _
  | some found =>
      exact (touchRunningAttempt_stamped _).bind fun _ => (taskUpdate_stamped _ _).bind fun _ =>
        notifyUser_stamped _ _

theorem handleDaemonTaskResult_stamped (payload : DaemonTaskResultPayload) :
    (TasksService.handleDaemonTaskResult env payload).Guarantees (Stamped env) := by
  refine .ite (fun _ => Proc.Guarantees.bind ?_ fun _ => Proc.guarantees_pure _) fun _ =>
    (finishRunningAttempt_stamped _ _ _).bind fun _ => (updateStatus_stamped _ _ _).bind fun _ =>
      sendPush_stamped _ _ _
  refine (key_stamped _).bind fun taskId => (read_stamped _).bind fun found => ?_
  cases found with
  | none => exact Proc.guarantees_pure _
  | some found =>
      refine (finishRunningAttempt_stamped _ _ _).bind fun _ =>
        (read_stamped _).bind fun excluded =>
        (getDispatchCandidates_stamped _ _ _).bind fun candidates => ?_
      cases candidates with
      | nil => exact (updateTaskAndNotify_stamped _ _ _ _).bind fun _ => sendPush_stamped _ _ _
      | cons first rest =>
          exact (updateTaskAndNotify_stamped _ _ _ _).bind fun _ => enqueueDispatch_stamped _

theorem decide_stamped (ownerId : UserId) (approvalId : ApprovalId) (dto : DecideApprovalDto) :
    (ApprovalsService.decide env ownerId approvalId dto).Guarantees (Stamped env) := by
  refine (read_stamped _).bind fun found => ?_
  cases found with
  | none => exact Proc.guarantees_throw _
  | some found =>
      refine .ite (fun _ => Proc.guarantees_throw _) fun _ =>
        .ite (fun _ => Proc.guarantees_throw _) fun _ => now_stamped.bind fun _ =>
          (approvalUpdate_stamped _ _).bind fun _ => (taskUpdate_stamped _ _).bind fun _ => ?_
      exact Proc.Guarantees.bind (Proc.Guarantees.tryCatch (dispatchToServer_stamped _ _)
        fun _ => Proc.guarantees_pure _) fun _ => (notifyUser_stamped _ _).bind fun _ =>
          Proc.guarantees_pure _

theorem handleDaemonApprovalRequest_stamped (payload : DaemonApprovalRequestPayload) :
    (ApprovalsService.handleDaemonApprovalRequest env payload).Guarantees (Stamped env) := by
  refine (key_stamped _).bind fun taskId => (read_stamped _).bind fun found => ?_
  cases found with
  | none => exact Proc.guarantees_pure _
  | some found =>
      exact (approvalCreate_stamped _ _).bind fun _ => (taskUpdate_stamped _ _).bind fun _ =>
        (notifyUser_stamped _ _).bind fun _ => sendPush_stamped _ _ _

/-! ## Dispatch and the watchdog -/

theorem tryCandidate_stamped (taskId : TaskId) (input : Json) (id : TaskAttemptId)
    (candidate : WorkerDispatchCandidate) :
    (TasksProcessor.tryCandidate env taskId input id candidate).Guarantees (Stamped env) := by
  refine Proc.Guarantees.bind ((read_stamped _).bind fun found => ?_) fun _ =>
    (taskUpdate_stamped _ _).bind fun _ => now_stamped.bind fun _ => attemptUpdate_stamped _ _
  cases found with
  | none => exact Proc.guarantees_throw _
  | some task =>
      change (WorkerRegistry.get task.workerType >>= fun adapter =>
        adapter.submitTask taskId candidate.serverId input).Guarantees (Stamped env)
      unfold WorkerRegistry.get
      split
      · exact dispatchToServer_stamped _ _
      · exact Proc.guarantees_throw _

theorem dispatchLoop_stamped (taskId : TaskId) (input : Json)
    (candidates : List WorkerDispatchCandidate) (failures : List JsString) :
    (TasksProcessor.dispatchLoop env taskId input candidates failures).Guarantees
      (Stamped env) := by
  induction candidates generalizing failures with
  | nil => exact Proc.guarantees_pure _
  | cons candidate rest ih =>
      refine (attemptCreate_stamped _ _ _).bind fun created => Proc.Guarantees.bind
        (Proc.Guarantees.tryCatch ((tryCandidate_stamped _ _ _ _).bind fun _ =>
          Proc.guarantees_pure _) fun error => ?_) fun failure => ?_
      · exact Proc.Guarantees.bind (now_stamped.bind fun _ => now_stamped.bind fun _ =>
          attemptUpdate_stamped _ _) fun _ => Proc.guarantees_pure _
      · cases failure with
        | none => exact Proc.guarantees_pure _
        | some failure => exact ih _

theorem runJob_stamped (jobId : ℕ) : (runJob env jobId).Guarantees (Stamped env) := by
  refine (read_stamped _).bind fun found => ?_
  cases found with
  | none => exact Proc.guarantees_pure _
  | some job =>
      refine Proc.Guarantees.bind (Proc.Guarantees.tryCatch (Proc.Guarantees.bind ?_ fun _ =>
        Proc.guarantees_pure _) fun _ => Proc.guarantees_pure _) fun outcome =>
          Proc.guarantees_atomically fun h => .of_tasks rfl le_rfl
      unfold TasksProcessor.processDispatch
      cases job.taskId with
      | none => exact Proc.guarantees_pure _
      | some taskId =>
          refine (read_stamped _).bind fun found => ?_
          cases found with
          | none => exact Proc.guarantees_pure _
          | some task =>
              refine .ite (fun _ => Proc.guarantees_pure _) fun _ =>
                (read_stamped _).bind fun excluded =>
                  (getDispatchCandidates_stamped _ _ _).bind fun candidates =>
                    .ite (fun _ => Proc.guarantees_throw _) fun _ =>
                      (dispatchLoop_stamped _ _ _ _).bind fun failures => ?_
              cases failures with
              | none => exact Proc.guarantees_pure _
              | some failures =>
                  exact (taskUpdate_stamped _ _).bind fun _ => Proc.guarantees_throw _

/-- The watchdog stamps what it gives up as well. -/
theorem timeOutTask_stamped (taskId : TaskId) (task : Task) (attemptId : TaskAttemptId)
    (attempt : TaskAttempt) :
    (TasksProcessor.timeOutTask env taskId task attemptId attempt).Guarantees (Stamped env) :=
  (read_stamped _).bind fun _ => now_stamped.bind fun _ => (attemptUpdate_stamped _ _).bind fun _ =>
    .ite (fun _ => (taskUpdate_stamped _ _).bind fun _ => Proc.guarantees_pure _) fun _ =>
      (taskUpdate_stamped _ _).bind fun _ => enqueueDispatch_stamped _

theorem scanLoop_stamped (staleBefore : ℤ)
    (stale : List ((TaskId × Task) × Option (TaskAttemptId × TaskAttempt))) (handled : ℕ) :
    (TasksProcessor.scanLoop env staleBefore stale handled).Guarantees (Stamped env) := by
  induction stale generalizing handled with
  | nil => exact Proc.guarantees_pure _
  | cons row rest ih =>
      obtain ⟨⟨taskId, task⟩, latest⟩ := row
      cases latest with
      | none => exact ih handled
      | some latest =>
          exact .ite (fun _ => ih handled) fun _ => (timeOutTask_stamped _ _ _ _).bind fun _ => ih _

/-! ## Servers, sockets and registrations -/

/-- Deleted tasks need no stamp. -/
theorem remove_stamped (ownerId : UserId) (serverId : ServerId) :
    (ServersService.remove ownerId serverId).Guarantees (Stamped env) := by
  refine (getOwnedServer_stamped _ _).bind fun _ => Proc.guarantees_atomically fun h => ?_
  cases h.servers serverId with
  | none => exact .refl h
  | some server =>
      exact ⟨le_rfl, fun _ _ htask' => .inl (Option.filter_eq_some_iff.mp htask').1⟩

theorem markHeartbeat_stamped (serverId : ServerId) :
    (ServersService.markHeartbeat env serverId).Guarantees (Stamped env) :=
  now_stamped.bind fun _ => serverUpdate_stamped _ _

theorem disconnect_stamped (socketId : ℕ) :
    (DaemonGateway.disconnect socketId).Guarantees (Stamped env) :=
  Proc.guarantees_modify fun _ => .of_tasks rfl le_rfl

theorem handleConnection_stamped (socketId : ℕ) :
    (DaemonGateway.handleConnection env socketId).Guarantees (Stamped env) := by
  refine Proc.Guarantees.bind (Proc.guarantees_take fun h => .refl h) fun apiKey => ?_
  cases apiKey with
  | none => exact disconnect_stamped _
  | some apiKey =>
      refine Proc.Guarantees.bind (read_stamped _) fun found => ?_
      cases found with
      | none => exact disconnect_stamped _
      | some found =>
          exact Proc.Guarantees.bind (Proc.guarantees_modify fun h => .of_tasks rfl le_rfl) fun _ =>
            Proc.Guarantees.bind (Proc.guarantees_atomically fun h => .of_tasks rfl le_rfl) fun _ =>
              markHeartbeat_stamped _

theorem handleDisconnect_stamped (socketId : ℕ) :
    (DaemonGateway.handleDisconnect socketId).Guarantees (Stamped env) := by
  refine Proc.Guarantees.bind (Proc.guarantees_take fun h => .refl h) fun data =>
    (disconnect_stamped _).bind fun _ => ?_
  cases data with
  | none => exact Proc.guarantees_pure _
  | some data => exact serverUpdate_stamped _ _

theorem onHeartbeat_stamped (socketId : ℕ) :
    (DaemonGateway.onHeartbeat env socketId).Guarantees (Stamped env) := by
  refine Proc.Guarantees.bind (Proc.guarantees_take fun h => .refl h) fun data => ?_
  cases data with
  | none => exact Proc.guarantees_pure _
  | some data => exact markHeartbeat_stamped _

/-- Registrations are no tasks. -/
theorem stamped_of_registers {p : HubM α} (hp : p.Guarantees RegistersOnly) :
    p.Guarantees (Stamped env) := by
  refine hp.mono fun h h' hregisters => ?_
  cases hregisters with
  | intro hreads _ => exact .of_tasks rfl hreads

theorem decideRegistration_stamped (ownerId : UserId) (requestId : RegistrationId)
    (approve : Bool) :
    (ServerRegistrationsService.decide env ownerId requestId approve).Guarantees (Stamped env) := by
  refine (read_stamped _).bind fun found => ?_
  cases found with
  | none => exact Proc.guarantees_throw _
  | some request =>
      refine .ite (fun _ => Proc.guarantees_throw _) fun _ =>
        (stamped_of_registers expireIfNeeded_registers).bind fun current =>
          .ite (fun _ => Proc.guarantees_pure _) fun _ => .ite (fun _ => ?_) fun _ => ?_
      · refine (stamped_of_registers (registrationUpdate_registers ?_)).bind fun _ =>
          Proc.guarantees_pure _
        exact fun _ => rfl
      · refine (stamped_of_registers draw_registers).bind fun _ =>
          (stamped_of_registers draw_registers).bind fun _ =>
            Proc.Guarantees.bind (Proc.guarantees_atomically fun h => ?_) fun _ =>
              Proc.guarantees_pure _
        dsimp only
        unfold ServersService.serverCreate Prisma.registrationUpdate
        simp only [Proc.run_bind, Proc.run_atomically]
        cases h.registrations requestId with
        | none => exact .refl h
        | some row => exact .of_tasks rfl (Nat.le_succ _)

/-! ## All calls -/

/-- **Every node of a call stamps what it writes.** -/
theorem perform_stamped (env : Env) (call : HubCall) :
    (perform env call).Guarantees (Stamped env) := by
  cases call with
  | submit ownerId dto => exact (submit_stamped _ _).bind fun _ => Proc.guarantees_pure _
  | findAllTasks ownerId => exact (read_stamped _).bind fun _ => Proc.guarantees_pure _
  | findOneTask ownerId taskId =>
      exact ((getOwnedTask_stamped _ _).bind fun _ => Proc.guarantees_pure _).bind fun _ =>
        Proc.guarantees_pure _
  | cancel ownerId taskId => exact (cancel_stamped _ _).bind fun _ => Proc.guarantees_pure _
  | listApprovals ownerId status =>
      refine Proc.Guarantees.bind ?_ fun _ => Proc.guarantees_pure _
      unfold ApprovalsService.listForOwner
      split
      · exact Proc.guarantees_throw _
      · exact read_stamped _
  | decideApproval ownerId approvalId dto =>
      exact (decide_stamped _ _ _).bind fun _ => Proc.guarantees_pure _
  | createServer ownerId dto =>
      exact (draw_stamped.bind fun _ => (Proc.guarantees_atomically fun _ =>
        .of_tasks rfl (Nat.le_succ _)).bind fun _ => Proc.guarantees_pure _).bind fun _ =>
          Proc.guarantees_pure _
  | findAllServers ownerId =>
      exact ((read_stamped _).bind fun _ => Proc.guarantees_pure _).bind fun _ =>
        Proc.guarantees_pure _
  | findOneServer ownerId serverId =>
      exact ((getOwnedServer_stamped _ _).bind fun _ => Proc.guarantees_pure _).bind fun _ =>
        Proc.guarantees_pure _
  | getHealth ownerId serverId =>
      exact ((getOwnedServer_stamped _ _).bind fun _ => Proc.guarantees_pure _).bind fun _ =>
        Proc.guarantees_pure _
  | removeServer ownerId serverId =>
      exact (remove_stamped _ _).bind fun _ => Proc.guarantees_pure _
  | findPendingRegistrations ownerId =>
      exact (stamped_of_registers findPendingForOwner_registers).bind fun _ =>
        Proc.guarantees_pure _
  | decideRegistration ownerId requestId approve =>
      exact (decideRegistration_stamped _ _ _).bind fun _ => Proc.guarantees_pure _
  | createRegistration dto =>
      exact (stamped_of_registers createRegistration_registers).bind fun _ => Proc.guarantees_pure _
  | getRegistrationResult requestId requestSecret =>
      exact (stamped_of_registers getResult_registers).bind fun _ => Proc.guarantees_pure _
  | openSocket apiKey =>
      exact Proc.Guarantees.bind (Proc.guarantees_modify fun _ => .of_tasks rfl le_rfl)
        fun _ => Proc.guarantees_pure _
  | handleConnection socketId =>
      exact (handleConnection_stamped _).bind fun _ => Proc.guarantees_pure _
  | handleDisconnect socketId =>
      exact (handleDisconnect_stamped _).bind fun _ => Proc.guarantees_pure _
  | message socketId inbound =>
      refine Proc.Guarantees.bind ?_ fun _ => Proc.guarantees_pure _
      cases inbound with
      | HEARTBEAT => exact onHeartbeat_stamped _
      | TASK_STATUS_UPDATE payload => exact handleDaemonTaskStatus_stamped _
      | TASK_LOG payload => exact handleDaemonTaskLog_stamped _
      | TASK_RESULT payload => exact handleDaemonTaskResult_stamped _
      | APPROVAL_REQUEST payload => exact handleDaemonApprovalRequest_stamped _
  | dispatch jobId => exact (runJob_stamped _).bind fun _ => Proc.guarantees_pure _
  | watchdog =>
      exact (now_stamped.bind fun _ => (read_stamped _).bind fun _ => scanLoop_stamped _ _ _).bind
        fun _ => Proc.guarantees_pure _

/-- **What a call writes is dated after it began.** -/
theorem after_stamped (hclock : Monotone env.clock) (h : Hub) (call : HubCall) :
    Stamped env h (h.after env call) :=
  (perform_stamped env call).run Stamped.refl (Stamped.trans hclock) h

end CodeCaller
