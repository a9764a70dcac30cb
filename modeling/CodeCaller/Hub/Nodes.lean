import CodeCaller.Hub.Operations
import CodeCaller.Library.Chronicle
import CodeCaller.Library.Pool

/-!
# The nodes of the operations

What every single node of an operation may do to the Hub, in whatever state the rest of the pool
has left it.  A relation that is to be kept node by node has to be closed under quiet nodes and
under the writes of the operation; the lemmas here turn that into a guarantee of the whole
operation.

The relation `G` is a parameter, and so are the hypotheses on it: `quiet`, for every node that
leaves the rows alone, and one hypothesis for each write of the operation, which gets what the node
itself has checked (the row was there, the server was there) and nothing that an earlier node has
read.  This is the difference to `Hub.Operations`: there a value that was read is still true when
it is used, here only what one node does by itself can be relied on.

What is done to registrations is the same for every relation on the rows, so it has a relation of
its own: `RegistersOnly` is kept by each node of the calls about them, and what else is kept
follows from it.

The last section fixes the pools of calls that the races are about: `callPool env h calls` are the
programs of some calls, none of which has begun, on a Hub `h`.
-/

namespace CodeCaller

open Async

variable {env : Env} {α : Type} {G : Hub → Hub → Prop}

/-! ## Database operations -/

/-- An update of a task: either it fails and nothing is written, or the row is, with a new date. A
row cannot be moved to a server that is not stored. -/
theorem taskUpdate_guarantees {taskId : TaskId} {f : Task → Task}
    (quiet : ∀ h h', Quiet h h' → G h h')
    (hwrite : ∀ h task reads date, h.tasks taskId = some task →
      ((f task).serverId = task.serverId ∨ h.servers (f task).serverId ≠ none) →
      G h { h with
        tasks := h.tasks.modify taskId fun row => { f row with updatedAt := date }, reads }) :
    (Prisma.taskUpdate env taskId f).Guarantees G := by
  refine Proc.guarantees_atomically fun h => ?_
  cases htask : h.tasks taskId with
  | none => exact quiet h h rfl
  | some task =>
      dsimp only
      split
      · exact quiet h h rfl
      · next hstays =>
        have hserver : (f task).serverId = task.serverId ∨ h.servers (f task).serverId ≠ none := by
          by_contra hmoved
          rw [not_or, not_not] at hmoved
          exact hstays hmoved
        have hmodify : h.tasks.modify taskId
            (fun _ => { f task with updatedAt := env.clock h.reads }) =
            h.tasks.modify taskId fun row => { f row with updatedAt := env.clock h.reads } :=
          Table.modify_congr fun row hrow => by
            rw [htask] at hrow
            cases hrow
            rfl
        rw [hmodify]
        exact hwrite h task _ _ htask hserver

/-- A new attempt: its task and its server are stored. -/
theorem attemptCreate_guarantees {taskId : TaskId} {serverId : ServerId}
    {status : TaskAttemptStatus} (quiet : ∀ h h', Quiet h h' → G h h')
    (hwrite : ∀ h attempt reads, h.tasks taskId ≠ none → h.servers serverId ≠ none →
      attempt.taskId = taskId → attempt.serverId = serverId → attempt.status = status →
      G h { h with attempts := h.attempts.insert attempt, reads }) :
    (Prisma.taskAttemptCreate env taskId serverId status).Guarantees G := by
  refine Proc.guarantees_atomically fun h => ?_
  split
  · next task server htask hserver =>
    refine hwrite h _ _ ?_ ?_ rfl rfl rfl
    · rw [htask]; exact nofun
    · rw [hserver]; exact nofun
  · exact quiet h h rfl

/-- An update of an attempt. -/
theorem attemptUpdate_guarantees {id : TaskAttemptId} {f : TaskAttempt → TaskAttempt}
    (quiet : ∀ h h', Quiet h h' → G h h')
    (hwrite : ∀ h, G h { h with attempts := h.attempts.modify id f }) :
    (Prisma.taskAttemptUpdate id f).Guarantees G := by
  refine Proc.guarantees_atomically fun h => ?_
  split
  · exact quiet h h rfl
  · exact hwrite h

/-- **An approval as `approval.create` stores it**: pending, for a stored task that
has none. -/
structure Approval.RequestedIn (h : Hub) (taskId : TaskId) (reason : Option JsString)
    (approval : Approval) : Prop where
  task : approval.taskId = taskId
  pending : approval.status = .PENDING
  given : approval.reason = reason
  stored : h.tasks taskId ≠ none
  unique : ∀ id other, h.approvals id = some other → other.taskId ≠ taskId

/-- A new approval: its task is stored and has none yet. -/
theorem approvalCreate_guarantees {taskId : TaskId} {reason : Option JsString}
    (quiet : ∀ h h', Quiet h h' → G h h')
    (hwrite : ∀ h (approval : Approval) reads, approval.RequestedIn h taskId reason →
      G h { h with approvals := h.approvals.insert approval, reads }) :
    (Prisma.approvalCreate env taskId reason).Guarantees G := by
  refine Proc.guarantees_atomically fun h => ?_
  cases htask : h.tasks taskId with
  | none => exact quiet h h rfl
  | some task =>
      dsimp only
      split
      · exact quiet h h rfl
      · next hnone =>
        refine hwrite h _ _ ⟨rfl, rfl, rfl, by rw [htask]; exact nofun, fun id other hrow => ?_⟩
        intro hsame
        refine hnone (List.any_eq_true.mpr ⟨(id, other), Table.mem_toList.mpr hrow, ?_⟩)
        exact beq_iff_eq.mpr hsame

/-- An update of a server. -/
theorem serverUpdate_guarantees {serverId : ServerId} {f : Server → Server}
    (quiet : ∀ h h', Quiet h h' → G h h')
    (hwrite : ∀ h, G h { h with servers := h.servers.modify serverId f }) :
    (Prisma.serverUpdate serverId f).Guarantees G := by
  refine Proc.guarantees_atomically fun h => ?_
  split
  · exact quiet h h rfl
  · exact hwrite h

/-- A message, if the server is online, and otherwise nothing. -/
theorem dispatchToServer_guarantees {serverId : ServerId} {message : DaemonOutbound}
    (quiet : ∀ h h', Quiet h h' → G h h')
    (hsend : ∀ h, G h { h with emitted := h.emitted ++ [⟨serverId, message⟩] }) :
    (RealtimeService.dispatchToServer serverId message).Guarantees G := by
  refine (Proc.guarantees_read (fun h => quiet h h rfl) _).bind fun online => ?_
  exact Proc.Guarantees.ite (fun _ => Proc.guarantees_throw _) fun _ =>
    Proc.guarantees_modify hsend

/-- A new job, with its five tries. -/
theorem enqueueDispatch_guarantees {taskId : TaskId}
    (hadd : ∀ h, G h { h with jobs := h.jobs.insert ⟨some taskId, 0, 5, .waiting⟩ }) :
    (enqueueDispatch taskId).Guarantees G :=
  Proc.guarantees_atomically hadd

/-! ## Queries -/

/-- The servers to be left out are read, not written. -/
theorem retryExcludedServerIds_quiet (taskId : TaskId) :
    (retryExcludedServerIds env taskId).Guarantees Quiet := read_quiet _

/-- The candidates are read, not written. -/
theorem getDispatchCandidates_quiet (workerType : WorkerType) (serverId : ServerId)
    (excluded : List ServerId) :
    (WorkerRegistry.getDispatchCandidates env workerType serverId excluded).Guarantees Quiet := by
  have hget : (WorkerRegistry.get workerType).Guarantees Quiet := by
    unfold WorkerRegistry.get
    split
    · exact Proc.guarantees_pure _
    · exact Proc.guarantees_throw _
  refine hget.bind fun _ => (read_quiet _).bind fun found => ?_
  cases found with
  | none => exact Proc.guarantees_throw _
  | some server => exact (read_quiet _).bind fun _ => Proc.guarantees_pure _

/-! ## Services -/

/-- `touchRunningAttempt` writes attempts. -/
theorem touchRunningAttempt_guarantees {ref : TaskRef} (quiet : ∀ h h', Quiet h h' → G h h')
    (hattempt : ∀ h id f, G h { h with attempts := h.attempts.modify id f }) :
    (TasksService.touchRunningAttempt env ref).Guarantees G := by
  have hfind : (Prisma.taskAttemptFindActive env ref).Guarantees G := by
    unfold Prisma.taskAttemptFindActive
    split
    · exact Proc.guarantees_throw _
    · exact (read_quiet _).mono quiet
  refine hfind.bind fun found => ?_
  cases found with
  | none => exact Proc.guarantees_pure _
  | some id =>
      exact (now_quiet.mono quiet).bind fun _ =>
        attemptUpdate_guarantees quiet fun h => hattempt h id _

/-- `finishRunningAttempt` writes attempts. -/
theorem finishRunningAttempt_guarantees {ref : TaskRef} {status : TaskAttemptStatus}
    {reason : Option JsString} (quiet : ∀ h h', Quiet h h' → G h h')
    (hattempt : ∀ h id f, G h { h with attempts := h.attempts.modify id f }) :
    (TasksService.finishRunningAttempt env ref status reason).Guarantees G := by
  have hfind : (Prisma.taskAttemptFindActive env ref).Guarantees G := by
    unfold Prisma.taskAttemptFindActive
    split
    · exact Proc.guarantees_throw _
    · exact (read_quiet _).mono quiet
  refine hfind.bind fun found => ?_
  cases found with
  | none => exact Proc.guarantees_pure _
  | some id =>
      exact (now_quiet.mono quiet).bind fun _ => (now_quiet.mono quiet).bind fun _ =>
        attemptUpdate_guarantees quiet fun h => hattempt h id _

/-- `updateStatus` writes the status and the result of its task. -/
theorem updateStatus_guarantees {ref : TaskRef} {status : StatusRef} {result : Option Json}
    (quiet : ∀ h h', Quiet h h' → G h h')
    (htask : ∀ h taskId (f : Task → Task) reads, ref = .id taskId →
      (∀ row, (f row).serverId = row.serverId ∧ (f row).logs = row.logs ∧
        ((f row).status = row.status ∨ status = .status (f row).status)) →
      G h { h with tasks := h.tasks.modify taskId f, reads }) :
    (TasksService.updateStatus env ref status result).Guarantees G := by
  unfold TasksService.updateStatus
  cases ref with
  | filter selects => exact Proc.guarantees_throw _
  | invalid => exact Proc.guarantees_throw _
  | id taskId =>
      refine Proc.Guarantees.ite (fun _ => Proc.guarantees_throw _) fun hvalid => ?_
      refine Proc.Guarantees.bind (taskUpdate_guarantees quiet fun h task reads date _ _ => ?_)
        fun task => ?_
      · refine htask h taskId _ reads rfl fun row => ⟨rfl, rfl, ?_⟩
        cases status with
        | status value => exact .inr rfl
        | undefined => exact .inl rfl
        | invalid => exact .inl rfl
      · exact ((serverOf_quiet task).bind fun server => (notifyUser_quiet _ _).bind fun _ =>
          Proc.guarantees_pure _).mono quiet

/-- The rest of `updateTaskAndNotify` is quiet. -/
theorem updateTaskAndNotify_guarantees {taskId : TaskId} {status : TaskStatus}
    {result : Option Json} {logs : JsString} (quiet : ∀ h h', Quiet h h' → G h h')
    (htask : ∀ h task reads date, h.tasks taskId = some task →
      G h { h with
        tasks := h.tasks.modify taskId fun row =>
          { row with
            status
            result := match result with
              | some value => some value
              | none => row.result
            logs
            updatedAt := date }
        reads }) :
    (TasksService.updateTaskAndNotify env taskId status result logs).Guarantees G := by
  unfold TasksService.updateTaskAndNotify
  refine Proc.Guarantees.bind (taskUpdate_guarantees quiet fun h task reads date hrow _ =>
    htask h task reads date hrow) fun task => ?_
  exact ((serverOf_quiet task).bind fun server => (notifyUser_quiet _ _).bind fun _ =>
    Proc.guarantees_pure _).mono quiet

/-- A heartbeat writes its server. -/
theorem onHeartbeat_guarantees {socketId : ℕ} (quiet : ∀ h h', Quiet h h' → G h h')
    (hserver : ∀ h id f, G h { h with servers := h.servers.modify id f }) :
    (DaemonGateway.onHeartbeat env socketId).Guarantees G := by
  refine Proc.Guarantees.bind (Proc.guarantees_take fun h => quiet h h rfl) fun data => ?_
  cases data with
  | none => exact Proc.guarantees_pure _
  | some data =>
      exact (now_quiet.mono quiet).bind fun _ =>
        serverUpdate_guarantees quiet fun h => hserver h _ _

/-- An approval request creates its approval and writes the status of its task. -/
theorem handleDaemonApprovalRequest_guarantees {payload : DaemonApprovalRequestPayload}
    (quiet : ∀ h h', Quiet h h' → G h h')
    (happroval : ∀ h taskId (approval : Approval) reads, payload.taskId = .id taskId →
      approval.RequestedIn h taskId payload.reason →
      G h { h with approvals := h.approvals.insert approval, reads })
    (htask : ∀ h taskId reads date, payload.taskId = .id taskId →
      G h { h with
        tasks := h.tasks.modify taskId fun row =>
          { row with status := .AWAITING_APPROVAL, updatedAt := date }
        reads }) :
    (ApprovalsService.handleDaemonApprovalRequest env payload).Guarantees G := by
  unfold ApprovalsService.handleDaemonApprovalRequest
  cases hid : payload.taskId with
  | filter selects => exact Proc.guarantees_throw _
  | invalid => exact Proc.guarantees_throw _
  | id taskId =>
      change (Prisma.taskFindUniqueWithServer taskId >>= _ : HubM Unit).Guarantees G
      refine ((read_quiet _).mono quiet).bind fun found => ?_
      cases found with
      | none => exact Proc.guarantees_pure _
      | some found =>
        refine Proc.Guarantees.bind (approvalCreate_guarantees quiet fun h approval reads hnew =>
          happroval h taskId approval reads hid hnew) fun created => ?_
        refine Proc.Guarantees.bind (taskUpdate_guarantees quiet fun h _ reads date _ _ =>
          htask h taskId reads date hid) fun _ => ?_
        exact ((notifyUser_quiet _ _).bind fun _ => sendPush_quiet _ _ _).mono quiet

/-! ## Dispatch -/

/-- The `try` for one candidate moves its task and sends it. -/
theorem tryCandidate_guarantees {taskId : TaskId} {input : Json} {id : TaskAttemptId}
    {candidate : WorkerDispatchCandidate} (quiet : ∀ h h', Quiet h h' → G h h')
    (hattempt : ∀ h f, G h { h with attempts := h.attempts.modify id f })
    (htask : ∀ h reads date, (h.tasks taskId).isSome = true →
      ((∀ task, h.tasks taskId = some task → task.serverId = candidate.serverId) ∨
        h.servers candidate.serverId ≠ none) →
      G h { h with
        tasks := h.tasks.modify taskId fun row =>
          { row with serverId := candidate.serverId, status := .RUNNING, updatedAt := date }
        reads })
    (hsend : ∀ h, G h { h with
      emitted := h.emitted ++ [⟨candidate.serverId, .TASK_SUBMIT taskId input⟩] }) :
    (TasksProcessor.tryCandidate env taskId input id candidate).Guarantees G := by
  unfold TasksProcessor.tryCandidate TasksProcessor.dispatchToCandidate
  refine Proc.Guarantees.bind ?_ fun _ => ?_
  · refine ((read_quiet _).mono quiet).bind fun found => ?_
    cases found with
    | none => exact Proc.guarantees_throw _
    | some task =>
        change (WorkerRegistry.get task.workerType >>= fun adapter =>
          adapter.submitTask taskId candidate.serverId input).Guarantees G
        unfold WorkerRegistry.get
        split
        · exact dispatchToServer_guarantees quiet hsend
        · exact Proc.guarantees_throw _
  · refine Proc.Guarantees.bind (taskUpdate_guarantees quiet fun h task reads date hrow hserver =>
      htask h reads date (by rw [hrow]; rfl) ?_) fun _ => ?_
    · refine hserver.imp (fun hsame other hother => ?_) fun h => h
      rw [hrow] at hother
      cases hother
      exact hsame.symm
    · exact (now_quiet.mono quiet).bind fun _ =>
        attemptUpdate_guarantees quiet fun h => hattempt h _

/-- The `catch` for one candidate writes its attempt. -/
theorem recordFailure_guarantees {id : TaskAttemptId} {error : HubError}
    (quiet : ∀ h h', Quiet h h' → G h h')
    (hattempt : ∀ h f, G h { h with attempts := h.attempts.modify id f }) :
    (TasksProcessor.recordFailure env id error).Guarantees G :=
  (now_quiet.mono quiet).bind fun _ => (now_quiet.mono quiet).bind fun _ =>
    attemptUpdate_guarantees quiet fun h => hattempt h _

/-- The loop over the candidates writes its task, its attempts, and sends. -/
theorem dispatchLoop_guarantees {taskId : TaskId} {input : Json}
    {candidates : List WorkerDispatchCandidate} {failures : List JsString}
    (quiet : ∀ h h', Quiet h h' → G h h')
    (hcreate : ∀ h attempt reads, attempt.taskId = taskId →
      G h { h with attempts := h.attempts.insert attempt, reads })
    (hattempt : ∀ h id f, G h { h with attempts := h.attempts.modify id f })
    (htask : ∀ h serverId reads date, (h.tasks taskId).isSome = true →
      ((∀ task, h.tasks taskId = some task → task.serverId = serverId) ∨
        h.servers serverId ≠ none) →
      G h { h with
        tasks := h.tasks.modify taskId fun row =>
          { row with serverId, status := .RUNNING, updatedAt := date }
        reads })
    (hsend : ∀ h serverId, G h { h with
      emitted := h.emitted ++ [⟨serverId, .TASK_SUBMIT taskId input⟩] }) :
    (TasksProcessor.dispatchLoop env taskId input candidates failures).Guarantees G := by
  induction candidates generalizing failures with
  | nil => exact Proc.guarantees_pure _
  | cons candidate rest ih =>
      refine Proc.Guarantees.bind (attemptCreate_guarantees quiet
        fun h attempt reads _ _ hof _ _ => hcreate h attempt reads hof) fun created => ?_
      refine Proc.Guarantees.bind (Proc.Guarantees.tryCatch ?_ fun error => ?_) fun failure => ?_
      · exact Proc.Guarantees.bind (tryCandidate_guarantees quiet (fun h f => hattempt h _ f)
          (fun h reads date => htask h _ reads date) fun h => hsend h _) fun _ =>
            Proc.guarantees_pure _
      · exact Proc.Guarantees.bind (recordFailure_guarantees quiet fun h f => hattempt h _ f)
          fun _ => Proc.guarantees_pure _
      · cases failure with
        | none => exact Proc.guarantees_pure _
        | some failure => exact ih

/-! ## The watchdog -/

/-- The watchdog on one task writes an attempt, its task, and queues it. -/
theorem timeOutTask_guarantees {taskId : TaskId} {task : Task} {attemptId : TaskAttemptId}
    {attempt : TaskAttempt} (quiet : ∀ h h', Quiet h h' → G h h')
    (hattempt : ∀ h finished, G h { h with
      attempts := h.attempts.modify attemptId (TaskAttempt.expired env finished) })
    (htask : ∀ h (f : Task → Task) reads, (∀ row, (f row).serverId = row.serverId) →
      G h { h with tasks := h.tasks.modify taskId f, reads })
    (hjob : ∀ h, G h { h with jobs := h.jobs.insert ⟨some taskId, 0, 5, .waiting⟩ }) :
    (TasksProcessor.timeOutTask env taskId task attemptId attempt).Guarantees G := by
  unfold TasksProcessor.timeOutTask
  refine ((read_quiet _).mono quiet).bind fun count => (now_quiet.mono quiet).bind fun finished =>
    Proc.Guarantees.bind (attemptUpdate_guarantees quiet fun h => hattempt h finished) fun _ => ?_
  refine Proc.Guarantees.ite (fun _ => ?_) fun _ => ?_
  · refine Proc.Guarantees.bind (taskUpdate_guarantees quiet fun h _ reads _ _ _ => ?_) fun _ =>
      Proc.guarantees_pure _
    exact htask h _ reads fun _ => rfl
  · refine Proc.Guarantees.bind (taskUpdate_guarantees quiet fun h _ reads _ _ _ => ?_) fun _ =>
      enqueueDispatch_guarantees hjob
    exact htask h _ reads fun _ => rfl

/-! ## Registrations -/

/-- **What the calls about registrations do to the Hub**: they read the clock, draw, and write
registrations, none of which changes hands. -/
inductive RegistersOnly (h : Hub) : Hub → Prop where
  | intro {reads draws : ℕ} {registrations : Table ServerRegistrationRequest}
      (hreads : h.reads ≤ reads)
      (howners : h.registrations.Evolves ServerRegistrationRequest.ownerId registrations) :
      RegistersOnly h { h with reads, draws, registrations }

/-- The rows do not have the registrations. -/
theorem RegistersOnly.quiet (h h' : Hub) (hregisters : RegistersOnly h h') : Quiet h h' := by
  cases hregisters
  rfl

/-- Nothing happens. -/
theorem RegistersOnly.refl (h : Hub) : RegistersOnly h h := .intro le_rfl (.of_eq rfl)

/-- A query writes nothing. -/
theorem read_registers (query : Hub → α) : (Proc.read query : HubM α).Guarantees RegistersOnly :=
  Proc.guarantees_read RegistersOnly.refl query

/-- The clock is read further. -/
theorem now_registers : (now env).Guarantees RegistersOnly :=
  Proc.guarantees_take fun h => .intro (Nat.le_succ h.reads) (.of_eq rfl)

/-- A draw is counted. -/
theorem draw_registers : draw.Guarantees RegistersOnly :=
  Proc.guarantees_take fun _ => .intro le_rfl (.of_eq rfl)

/-- A request is updated without a change of its owner. -/
theorem registrationUpdate_registers {requestId : RegistrationId}
    {f : ServerRegistrationRequest → ServerRegistrationRequest}
    (hkeeps : ∀ request, (f request).ownerId = request.ownerId) :
    (Prisma.registrationUpdate requestId f).Guarantees RegistersOnly := by
  refine Proc.guarantees_atomically fun h => ?_
  cases hrow : h.registrations requestId with
  | none => exact .refl h
  | some request =>
      refine .intro le_rfl (Table.evolves_modify _ _ fun stored hstored => ?_)
      rw [hrow] at hstored
      cases hstored
      exact hkeeps request

/-- Expiry writes the status of the request, never its owner. -/
theorem expireIfNeeded_registers {requestId : RegistrationId}
    {request : ServerRegistrationRequest} :
    (ServerRegistrationsService.expireIfNeeded env requestId request).Guarantees
      RegistersOnly := by
  refine .ite (fun _ => Proc.guarantees_pure _) fun _ => now_registers.bind fun date => ?_
  exact .ite (fun _ => Proc.guarantees_pure _) fun _ =>
    registrationUpdate_registers fun _ => rfl

/-- A new request is a new row, and no row that was there changes. -/
theorem createRegistration_registers {dto : CreateServerRegistrationRequestDto} :
    (ServerRegistrationsService.create env dto).Guarantees RegistersOnly := by
  refine (read_registers _).bind fun user => ?_
  cases user with
  | none => exact Proc.guarantees_throw _
  | some user =>
      refine draw_registers.bind fun _ => draw_registers.bind fun _ =>
        now_registers.bind fun _ => ?_
      exact Proc.Guarantees.bind (Proc.guarantees_atomically fun h =>
        .intro (Nat.le_succ h.reads) (Table.evolves_insert _ _)) fun _ => Proc.guarantees_pure _

/-- The requests that have expired are marked first. -/
theorem findPendingForOwner_registers {ownerId : UserId} :
    (ServerRegistrationsService.findPendingForOwner env ownerId).Guarantees RegistersOnly := by
  refine Proc.Guarantees.bind (now_registers.bind fun _ => ?_) fun _ =>
    (read_registers _).bind fun _ => Proc.guarantees_pure _
  refine Proc.guarantees_atomically fun h => .intro le_rfl (Table.evolves_map _ fun request => ?_)
  split <;> rfl

/-- A result that is handed over marks the request, and says nothing to anybody in the Hub. -/
theorem getResult_registers {requestId : RegistrationId} {requestSecret : JsString} :
    (ServerRegistrationsService.getResult env requestId requestSecret).Guarantees
      RegistersOnly := by
  refine .ite (fun _ => Proc.guarantees_throw _) fun _ => (read_registers _).bind fun request => ?_
  cases request with
  | none => exact Proc.guarantees_throw _
  | some request =>
      refine .ite (fun _ => Proc.guarantees_throw _) fun _ =>
        expireIfNeeded_registers.bind fun current =>
          .ite (fun _ => Proc.guarantees_pure _) fun _ => ?_
      cases ServerRegistrationsService.storedEnvelope current with
      | none => exact Proc.guarantees_pure _
      | some envelope =>
          dsimp only
          split
          · exact Proc.guarantees_throw _
          · refine Proc.Guarantees.bind (registrationUpdate_registers ?_) fun _ =>
              Proc.guarantees_pure _
            exact fun _ => rfl

/-! ## Pools of calls -/

/-- The calls of the Hub that are under way, each at some node. -/
abbrev CallPool := Pool Hub HubError Response

/-- Pools of calls under schedules. -/
abbrev callMachine : Machine CallPool ℕ := Pool.machine Hub HubError Response

/-- The calls before any of them runs. -/
def callPool (env : Env) (h : Hub) (calls : List HubCall) : CallPool :=
  Pool.start h (calls.map (perform env))

end CodeCaller
