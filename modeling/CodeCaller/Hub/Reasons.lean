import CodeCaller.Hub.Deeds

/-!
# Every node of a call has its reason

The proofs that what a node of a call does is a `Deed`, one service after the other.  A program is
followed with its past: each read adds what it found, each write what it left, and the next node
finds its reason there.

For an operation `p` there is `p_deeds`, a `Recalls` with `Deed` for its nodes and a post-condition
that says what the caller may rely on: that a task was the user's when it was looked up, that a
candidate is a server of the owner of the task, that an approval was left as it is shown.  Programs
that neither write to the rows nor tell anybody are `Hushed` and need no reason
(`deeds_of_hushed`).

The post-conditions are what makes the modules above independent of the code: when a handler is
changed, its `p_deeds` is what has to be proved again, and nothing that uses `perform_deeds` sees
the handler at all.
-/

namespace CodeCaller

open Async

variable {env : Env} {call : HubCall} {past : Past} {α : Type}

/-! ## Programs that neither write nor tell -/

/-- The rows and the notices are as they were. -/
structure Hushed (h h' : Hub) : Prop where
  rows : h'.rows = h.rows
  notified : h'.notified = h.notified
  registrations : h.RegistrationsKept h'

theorem Hushed.refl (h : Hub) : Hushed h h := ⟨rfl, rfl, .of_eq rfl⟩

/-- A query writes nothing. -/
theorem read_hushed (query : Hub → α) : (Proc.read query : HubM α).Guarantees Hushed :=
  Proc.guarantees_read Hushed.refl query

/-- Reading the clock only counts the reading. -/
theorem now_hushed : (now env).Guarantees Hushed :=
  Proc.guarantees_take fun _ => ⟨rfl, rfl, .of_eq rfl⟩

theorem draw_hushed : draw.Guarantees Hushed := Proc.guarantees_take fun _ => ⟨rfl, rfl, .of_eq rfl⟩

/-- The flag of the repeated scan is no row. -/
theorem ensureWatchdogScheduled_hushed :
    TasksService.ensureWatchdogScheduled.Guarantees Hushed :=
  Proc.guarantees_atomically fun _ => ⟨rfl, rfl, .of_eq rfl⟩

/-- A push is no notice: it goes to the devices by way of Firebase, not to the room of the user. -/
theorem sendPush_hushed (userId : UserId) (title body : JsString) :
    (NotificationsService.sendPush env userId title body).Guarantees Hushed :=
  sendPush_guarantees Hushed.refl (fun _ _ => ⟨rfl, rfl, .of_eq rfl⟩) userId title body

/-- Requests for a registration come and go without a notice. -/
theorem RegistersOnly.hushed (h h' : Hub) (hregisters : RegistersOnly h h') : Hushed h h' := by
  cases hregisters with
  | intro _ howners => exact ⟨rfl, rfl, howners⟩

/-- Who does nothing needs no reason. -/
theorem deeds_of_hushed {p : HubM α} (hp : p.Guarantees Hushed) :
    p.Recalls (Deed env call) (fun _ _ => True) past :=
  hp.recalls fun _ _ _ h => .quiet h.rows h.notified h.registrations

/-- Nor does who touches registrations only. -/
theorem deeds_of_registers {p : HubM α} (hp : p.Guarantees RegistersOnly) :
    p.Recalls (Deed env call) (fun _ _ => True) past :=
  deeds_of_hushed (hp.mono RegistersOnly.hushed)

/-- A query, and what it found. -/
theorem read_deeds {query : Hub → α} {post : Past → α → Prop}
    (h : ∀ s, post (past ++ [(s, s)]) (query s)) :
    (Proc.read query : HubM α).Recalls (Deed env call) post past :=
  Proc.recalls_read Deed.refl h

/-! ## Database operations -/

/-- An update of a task leaves the row it returns. -/
theorem taskUpdate_deeds {taskId : TaskId} {f : Task → Task}
    (hwrite : ∀ (h : Hub) (date : Time), (h.tasks taskId).isSome = true →
      ((∀ task, h.tasks taskId = some task → (f task).serverId = task.serverId) ∨
        ∀ task, h.tasks taskId = some task → h.servers (f task).serverId ≠ none) →
      Write env call past h.rows { h.rows with
        tasks := h.tasks.modify taskId fun row => { f row with updatedAt := date } }) :
    (Prisma.taskUpdate env taskId f).Recalls (Deed env call)
      (fun past' task => Left past' fun h => h.tasks taskId = some task) past := by
  refine Proc.recalls_atomically fun h => ?_
  cases htask : h.tasks taskId with
  | none => exact ⟨Deed.refl past h, nofun⟩
  | some task =>
      dsimp only
      split
      · exact ⟨Deed.refl past h, nofun⟩
      · next hstays =>
        refine ⟨?_, fun value hvalue => ?_⟩
        · have hmodify : h.tasks.modify taskId
              (fun _ => { f task with updatedAt := env.clock h.reads }) =
              h.tasks.modify taskId fun row => { f row with updatedAt := env.clock h.reads } :=
            Table.modify_congr fun row hrow => by
              rw [htask] at hrow
              cases hrow
              rfl
          rw [hmodify]
          refine .of_write (hwrite h _ (by rw [htask]; rfl) ?_) rfl rfl
          by_cases hsame : (f task).serverId = task.serverId
          · refine .inl fun other hother => ?_
            rw [htask] at hother
            cases hother
            exact hsame
          · refine .inr fun other hother hnone => ?_
            rw [htask] at hother
            cases hother
            exact hstays ⟨hsame, hnone⟩
        · cases hvalue
          refine left_last ?_
          rw [Table.modify_apply, if_pos rfl, htask]
          rfl

/-- An update of a task that leaves it on its server with its input. -/
theorem taskUpdate_kept_deeds {taskId : TaskId} {f : Task → Task}
    (hentitled : call.Entitled past taskId)
    (hstatus : ∀ task, (f task).status = task.status ∨
      StatusReason call past taskId (f task).status)
    (hkeeps : ∀ task, (f task).serverId = task.serverId ∧ (f task).input = task.input) :
    (Prisma.taskUpdate env taskId f).Recalls (Deed env call)
      (fun past' task => Left past' fun h => h.tasks taskId = some task) past :=
  taskUpdate_deeds fun _ _ _ _ => .taskWritten _ hentitled hkeeps hstatus

/-- An update of an attempt, for a reason that is given for whatever rows it meets. -/
theorem attemptUpdate_deeds {id : TaskAttemptId} {f : TaskAttempt → TaskAttempt}
    (hwrite : ∀ r, Write env call past r { r with attempts := r.attempts.modify id f }) :
    (Prisma.taskAttemptUpdate id f).Recalls (Deed env call) (fun _ _ => True) past := by
  refine Proc.recalls_atomically fun h => ?_
  cases h.attempts id with
  | none => exact ⟨Deed.refl past h, fun _ _ => trivial⟩
  | some attempt => exact ⟨.of_write (hwrite h.rows) rfl rfl, fun _ _ => trivial⟩

/-- An update of a server that a signal came from; its owner and the digest of its key stay. -/
theorem serverUpdate_deeds {serverId : ServerId} {f : Server → Server}
    (hsignalled : Signalled env call past serverId)
    (hkeeps : ∀ server, (f server).ownerId = server.ownerId ∧
      (f server).apiKeyHash = server.apiKeyHash) :
    (Prisma.serverUpdate serverId f).Recalls (Deed env call) (fun _ _ => True) past := by
  refine Proc.recalls_atomically fun h => ?_
  cases h.servers serverId with
  | none => exact ⟨Deed.refl past h, fun _ _ => trivial⟩
  | some server =>
      exact ⟨.of_write (.serverMarked _ hsignalled hkeeps) rfl rfl, fun _ _ => trivial⟩

/-- Any call may add a job. -/
theorem enqueueDispatch_deeds (taskId : TaskId) :
    (enqueueDispatch taskId).Recalls (Deed env call) (fun _ _ => True) past :=
  Proc.recalls_atomically fun h =>
    ⟨.of_write (.jobAdded h.rows taskId) rfl rfl, fun _ _ => trivial⟩

/-- A message is sent to the sockets of the server, if there are any, and otherwise the call fails
and nothing is sent. -/
theorem dispatchToServer_deeds {serverId : ServerId} {message : DaemonOutbound}
    (hreason : SendReason call past serverId message) :
    (RealtimeService.dispatchToServer serverId message).Recalls (Deed env call)
      (fun _ _ => True) past := by
  refine Proc.Recalls.bind (deeds_of_hushed (read_hushed _)) fun online past' hgrows _ => ?_
  refine .ite (fun _ => Proc.recalls_throw _) fun _ => Proc.recalls_modify fun h => ?_
  exact ⟨.of_write (.sent h.rows (hreason.later hgrows)) rfl rfl, trivial⟩

/-- A notice needs its reason whether or not a device listens. -/
theorem notifyUser_deeds {userId : UserId} {message : AppOutbound}
    (hreason : NoticeReason past userId message) :
    (RealtimeService.notifyUser userId message).Recalls (Deed env call) (fun _ _ => True) past :=
  Proc.recalls_modify fun _ => ⟨.notified hreason rfl rfl (.of_eq rfl), trivial⟩

/-- A server, of the owner its row names. -/
theorem findServer_deeds (serverId : ServerId) :
    (Proc.read fun h : Hub => h.servers serverId : HubM (Option Server)).Recalls (Deed env call)
      (fun past' found => ∀ server, found = some server →
        Saw past' fun h => h.ServerOf serverId server.ownerId) past :=
  read_deeds fun h server hfound => saw_last (show h.ServerOf _ _ from ⟨server, hfound, rfl⟩)

/-- The server of a task is that of its owner. -/
theorem serverOf_deeds (task : Task) :
    (Prisma.serverOf task).Recalls (Deed env call)
      (fun past' server => Saw past' fun h => h.ServerOf task.serverId server.ownerId) past := by
  refine (findServer_deeds task.serverId).bind fun found past' _ hfound => ?_
  cases found with
  | none => exact Proc.recalls_throw _
  | some server => exact Proc.recalls_pure (hfound server rfl)

/-- A reference that is no id of a task makes the query fail, so what follows is about a real id.
-/
theorem key_deeds (ref : TaskRef) :
    (Prisma.key ref).Recalls (Deed env call) (fun _ taskId => ref = .id taskId) past := by
  cases ref with
  | id taskId => exact Proc.recalls_pure rfl
  | filter selects => exact Proc.recalls_throw _
  | invalid => exact Proc.recalls_throw _

/-- A task with its server, of the owner of the task. -/
theorem taskFindUniqueWithServer_deeds (taskId : TaskId) :
    (Prisma.taskFindUniqueWithServer taskId).Recalls (Deed env call)
      (fun past' found => ∀ task server, found = some (task, server) →
        Saw past' fun h => h.tasks taskId = some task ∧ h.ownerOf taskId = some server.ownerId ∧
          h.TaskOn taskId task.serverId ∧ h.ServerOf task.serverId server.ownerId) past := by
  refine read_deeds fun h task server hfound => saw_last ?_
  obtain ⟨htask, hserver⟩ := taskWithServer_some hfound
  exact ⟨htask, ownerOf_of_rows (r := h.rows) htask hserver, ⟨task, htask, rfl⟩,
    ⟨server, hserver, rfl⟩⟩

/-! ## Attempts and tasks -/

/-- What a query for an active attempt finds is stored, of a task that is selected. -/
theorem taskAttemptFindActive_deeds (ref : TaskRef) :
    (Prisma.taskAttemptFindActive env ref).Recalls (Deed env call)
      (fun past' found => ∀ id, found = some id → ∃ selects, ref.selects = some selects ∧
        Saw past' fun h => ∃ attempt, h.attempts id = some attempt ∧
          selects attempt.taskId = true) past := by
  unfold Prisma.taskAttemptFindActive
  cases hselects : ref.selects with
  | none => exact Proc.recalls_throw _
  | some selects =>
      refine read_deeds fun h id hfound => ⟨selects, rfl, saw_last ?_⟩
      obtain ⟨row, hlatest, rfl⟩ := Option.map_eq_some_iff.mp hfound
      obtain ⟨hrow, hsel, -⟩ := latestActive_some hlatest
      exact ⟨row.2, hrow, hsel⟩

/-- A write to the attempt that was found for the message of a daemon. -/
theorem attemptWritten_of_found {ref : TaskRef} {selects : TaskId → Bool} {id : TaskAttemptId}
    {f : TaskAttempt → TaskAttempt} (huser : call.user = none)
    (hreports : call.reports = some ref) (hselects : ref.selects = some selects)
    (hfound : Saw past fun h => ∃ attempt, h.attempts id = some attempt ∧
      selects attempt.taskId = true)
    (hkeeps : ∀ attempt, (f attempt).taskId = attempt.taskId ∧
      (f attempt).serverId = attempt.serverId) (r : Rows) :
    Write env call past r { r with attempts := r.attempts.modify id f } := by
  refine .attemptWritten r huser (fun other hother => ?_) (fun hnone => ?_) hkeeps
  · rw [hreports] at hother
    cases hother
    exact ⟨selects, hselects, hfound⟩
  · rw [hreports] at hnone
    cases hnone

/-- The attempt that is touched was found active for the task of the message. -/
theorem touchRunningAttempt_deeds {ref : TaskRef} (huser : call.user = none)
    (hreports : call.reports = some ref) :
    (TasksService.touchRunningAttempt env ref).Recalls (Deed env call)
      (fun _ _ => True) past := by
  refine (taskAttemptFindActive_deeds ref).bind fun found past' _ hfound => ?_
  cases found with
  | none => exact Proc.recalls_done
  | some id =>
      obtain ⟨selects, hselects, hrow⟩ := hfound id rfl
      refine (deeds_of_hushed now_hushed).bind fun date past'' hgrows _ => ?_
      exact attemptUpdate_deeds (attemptWritten_of_found huser hreports hselects
        (hrow.later hgrows) fun _ => ⟨rfl, rfl⟩)

/-- The attempt that is closed was found active for the task of the message. -/
theorem finishRunningAttempt_deeds {ref : TaskRef} {status : TaskAttemptStatus}
    {reason : Option JsString} (huser : call.user = none) (hreports : call.reports = some ref) :
    (TasksService.finishRunningAttempt env ref status reason).Recalls (Deed env call)
      (fun _ _ => True) past := by
  refine (taskAttemptFindActive_deeds ref).bind fun found past' _ hfound => ?_
  cases found with
  | none => exact Proc.recalls_done
  | some id =>
      obtain ⟨selects, hselects, hrow⟩ := hfound id rfl
      refine (deeds_of_hushed now_hushed).bind fun lastSeen past₁ hgrows₁ _ => ?_
      refine (deeds_of_hushed now_hushed).bind fun finished past₂ hgrows₂ _ => ?_
      exact attemptUpdate_deeds (attemptWritten_of_found huser hreports hselects
        (hrow.later (hgrows₁.trans hgrows₂)) fun _ => ⟨rfl, rfl⟩)

/-- A call without a user may write to the tasks its message selects. -/
theorem entitled_of_report {taskId : TaskId} (huser : call.user = none)
    (hreports : call.reports = some (.id taskId)) : call.Entitled past taskId where
  user user hcall := by
    rw [huser] at hcall
    cases hcall
  reports ref hcall := by
    rw [hreports] at hcall
    cases hcall
    exact ⟨_, rfl, beq_self_eq_true taskId⟩
  queued _ hnone := by
    rw [hreports] at hnone
    cases hnone

/-- A call of a user may write to the tasks it has found to be of the user. -/
theorem entitled_of_owner {ownerId : UserId} {taskId : TaskId} (huser : call.user = some ownerId)
    (hreports : call.reports = none) (howner : Saw past fun h => h.ownerOf taskId = some ownerId) :
    call.Entitled past taskId where
  user user hcall := by
    rw [huser] at hcall
    cases hcall
    exact howner
  reports ref hcall := by
    rw [hreports] at hcall
    cases hcall
  queued hnone _ := by
    rw [huser] at hnone
    cases hnone

/-- The row a status update leaves is the row its owner is told about. -/
theorem updateStatus_deeds {ref : TaskRef} {status : StatusRef} {result : Option Json}
    (hentitled : ∀ taskId, ref = .id taskId → call.Entitled past taskId)
    (hstatus : ∀ taskId value, ref = .id taskId → status = .status value →
      StatusReason call past taskId value) :
    (TasksService.updateStatus env ref status result).Recalls (Deed env call)
      (fun _ _ => True) past := by
  unfold TasksService.updateStatus
  cases ref with
  | filter selects => exact Proc.recalls_throw _
  | invalid => exact Proc.recalls_throw _
  | id taskId =>
      refine Proc.Recalls.ite (fun _ => Proc.recalls_throw _) fun _ => ?_
      refine Proc.Recalls.bind (taskUpdate_kept_deeds (hentitled taskId rfl) (fun task => ?_) ?_)
        fun task past₁ _ hrow => ?_
      · cases status with
        | status value => exact .inr (hstatus taskId value rfl rfl)
        | undefined => exact .inl rfl
        | invalid => exact .inl rfl
      · exact fun _ => ⟨rfl, rfl⟩
      refine (serverOf_deeds task).bind fun server past₂ hgrows₂ hserver => ?_
      refine (notifyUser_deeds (.updated (hrow.later hgrows₂) (.inr hserver))).bind
        fun _ _ _ _ => ?_
      exact Proc.recalls_done

/-- The update reads the server of the task, and tells the owner it has found there. -/
theorem updateTaskAndNotify_deeds {taskId : TaskId} {status : TaskStatus} {result : Option Json}
    {logs : JsString} (hentitled : call.Entitled past taskId)
    (hstatus : StatusReason call past taskId status) :
    (TasksService.updateTaskAndNotify env taskId status result logs).Recalls (Deed env call)
      (fun _ _ => True) past := by
  refine Proc.Recalls.bind (taskUpdate_kept_deeds hentitled (fun _ => .inr hstatus) ?_)
    fun task past₁ _ hrow => ?_
  · exact fun _ => ⟨rfl, rfl⟩
  refine (serverOf_deeds task).bind fun server past₂ hgrows₂ hserver => ?_
  refine (notifyUser_deeds (.updated (hrow.later hgrows₂) (.inr hserver))).bind fun _ _ _ _ => ?_
  exact Proc.recalls_done

/-- The check of `getOwnedTask`. -/
theorem getOwnedTask_deeds (ownerId : UserId) (taskId : TaskId) :
    (TasksService.getOwnedTask ownerId taskId).Recalls (Deed env call)
      (fun past' _ => Saw past' fun h => h.ownerOf taskId = some ownerId) past := by
  refine (taskFindUniqueWithServer_deeds taskId).bind fun found past' _ hfound => ?_
  cases found with
  | none => exact Proc.recalls_throw _
  | some found =>
      refine Proc.Recalls.ite (fun _ => Proc.recalls_throw _) fun howner => Proc.recalls_pure ?_
      have hsaw := hfound found.1 found.2 rfl
      rw [not_not.mp howner] at hsaw
      exact hsaw.mono fun _ h => h.2.1

/-- The check of `getOwnedServer`. -/
theorem getOwnedServer_deeds (ownerId : UserId) (serverId : ServerId) :
    (ServersService.getOwnedServer ownerId serverId).Recalls (Deed env call)
      (fun past' _ => Saw past' fun h => h.ServerOf serverId ownerId) past := by
  refine (findServer_deeds serverId).bind fun found past' _ hfound => ?_
  cases found with
  | none => exact Proc.recalls_throw _
  | some server =>
      refine Proc.Recalls.ite (fun _ => Proc.recalls_throw _) fun howner => Proc.recalls_pure ?_
      have hsaw := hfound server rfl
      rwa [not_not.mp howner] at hsaw

/-! ## Requests about tasks and approvals -/

/-- The server was looked up for the user, so the new task is the user's, with the input of the
call. -/
theorem submit_deeds {ownerId : UserId} {dto : CreateTaskDto}
    (hcall : call = .submit ownerId dto) :
    (TasksService.submit env ownerId dto).Recalls (Deed env call) (fun _ _ => True) past := by
  have howned : (ServersService.findOneForOwner ownerId dto.serverId).Recalls (Deed env call)
      (fun past' _ => Saw past' fun h => h.ServerOf dto.serverId ownerId) past :=
    (getOwnedServer_deeds ownerId dto.serverId).bind fun _ _ _ h => Proc.recalls_pure h
  refine howned.bind fun _ past₁ _ hserver => ?_
  have hcreate : (Prisma.taskCreate env dto.serverId dto.workerType dto.input).Recalls
      (Deed env call) (fun _ _ => True) past₁ := by
    refine Proc.recalls_atomically fun h => ⟨?_, fun _ _ => trivial⟩
    cases hstored : h.servers dto.serverId with
    | none => exact Deed.refl past₁ h
    | some server =>
        refine .of_write (.taskCreated h.rows hcall ?_ hserver rfl rfl rfl) rfl rfl
        exact fun hnone => Option.some_ne_none _ (hstored.symm.trans hnone)
  refine hcreate.bind fun created past₂ _ _ => ?_
  refine (enqueueDispatch_deeds _).bind fun _ past₃ _ _ => ?_
  refine (deeds_of_hushed ensureWatchdogScheduled_hushed).bind fun _ _ _ _ => ?_
  exact Proc.recalls_done

/-- What `getOwnedTask` has found is the reason for all that follows: the message to the server of
the task, the cancelled task and the notice. -/
theorem cancel_deeds {ownerId : UserId} {taskId : TaskId}
    (hcall : call = .cancel ownerId taskId) :
    (TasksService.cancel env ownerId taskId).Recalls (Deed env call) (fun _ _ => True) past := by
  refine (getOwnedTask_deeds ownerId taskId).bind fun task past₁ _ howner => ?_
  unfold WorkerRegistry.get
  split
  · have hfind : (CodexAdapter.findTaskOrThrow taskId).Recalls (Deed env call)
        (fun past' task => Saw past' fun h => h.TaskOn taskId task.serverId) past₁ := by
      have hread : (Prisma.taskFindUnique taskId).Recalls (Deed env call)
          (fun past' found => ∀ task, found = some task →
            Saw past' fun h => h.TaskOn taskId task.serverId) past₁ :=
        read_deeds fun h task hfound => saw_last (show h.TaskOn _ _ from ⟨task, hfound, rfl⟩)
      refine hread.bind fun found past' _ hfound => ?_
      cases found with
      | none => exact Proc.recalls_throw _
      | some task => exact Proc.recalls_pure (hfound task rfl)
    change (CodexAdapter.cancelTask taskId >>= fun _ => _ : HubM _).Recalls _ _ _
    refine Proc.Recalls.bind (hfind.bind fun found past₂ hgrows₂ hon =>
      dispatchToServer_deeds (.cancel hcall (howner.later hgrows₂) hon))
      fun _ past₃ hgrows₃ _ => ?_
    refine (updateStatus_deeds (fun other hother => ?_) fun other value hother hvalue => ?_).bind
      fun _ _ _ _ => Proc.recalls_done
    · cases hother
      rw [hcall]
      exact entitled_of_owner rfl rfl (howner.later hgrows₃)
    · cases hother
      cases hvalue
      exact .cancelled hcall (howner.later hgrows₃)
  · exact Proc.recalls_throw _

/-- The approval was found with its task and the server of the task, and the server is the user's.
The decision, the message to the daemon and the status of the task all go back to this read. -/
theorem decide_deeds {ownerId : UserId} {approvalId : ApprovalId} {dto : DecideApprovalDto}
    (hcall : call = .decideApproval ownerId approvalId dto) :
    (ApprovalsService.decide env ownerId approvalId dto).Recalls (Deed env call)
      (fun _ _ => True) past := by
  have hread : (Proc.read fun h => ApprovalsService.approvalWithTask h approvalId : HubM _).Recalls
      (Deed env call) (fun past' found => ∀ approval task server,
        found = some (approval, task, server) → Saw past' fun h =>
          h.AskedOf approvalId server.ownerId approval.taskId ∧
            h.TaskOn approval.taskId task.serverId) past := by
    refine read_deeds fun h approval task server hfound => saw_last ?_
    obtain ⟨hrow, htask, hserver⟩ := approvalWithTask_some hfound
    exact ⟨⟨⟨approval, hrow, rfl⟩, ownerOf_of_rows (r := h.rows) htask hserver⟩, task, htask, rfl⟩
  refine hread.bind fun found past₁ _ hfound => ?_
  cases found with
  | none => exact Proc.recalls_throw _
  | some found =>
      obtain ⟨approval, task, server⟩ := found
      refine Proc.Recalls.ite (fun _ => Proc.recalls_throw _) fun howner => ?_
      refine Proc.Recalls.ite (fun _ => Proc.recalls_throw _) fun _ => ?_
      have hasked := hfound approval task server rfl
      rw [not_not.mp howner] at hasked
      refine (deeds_of_hushed now_hushed).bind fun date past₂ hgrows₂ _ => ?_
      have hupdate : (Prisma.approvalUpdate approvalId fun row =>
          Approval.decided dto date row).Recalls (Deed env call)
          (fun past' updated => Left past' fun h => h.approvals approvalId = some updated ∧
            updated.status = if dto.approve then .APPROVED else .REJECTED) past₂ := by
        refine Proc.recalls_atomically fun h => ?_
        cases hrow : h.approvals approvalId with
        | none => exact ⟨Deed.refl past₂ h, nofun⟩
        | some row =>
            refine ⟨?_, fun updated heq => left_last ?_⟩
            · have hmodify :
                  h.approvals.modify approvalId (fun _ => Approval.decided dto date row) =
                    h.approvals.modify approvalId (Approval.decided dto date) :=
                Table.modify_congr fun other hother => by
                  rw [hrow] at hother
                  cases hother
                  rfl
              dsimp only
              rw [hmodify]
              exact .of_write (.approvalDecided h.rows date hcall
                ((hasked.later hgrows₂).mono fun _ h => h.1)) rfl rfl
            · cases heq
              refine ⟨?_, rfl⟩
              rw [Table.modify_apply, if_pos rfl, hrow]
              rfl
      refine Proc.Recalls.bind hupdate fun updated past₃ hgrows₃ hrow => ?_
      have hasked₃ := hasked.later (hgrows₂.trans hgrows₃)
      refine Proc.Recalls.bind (taskUpdate_kept_deeds ?_ ?_ ?_) fun _ past₄ hgrows₄ _ => ?_
      · rw [hcall]
        exact entitled_of_owner rfl rfl (hasked₃.mono fun _ h => h.1.owner)
      · exact fun _ => .inr (.decided hcall (hasked₃.mono fun _ h => h.1))
      · exact fun _ => ⟨rfl, rfl⟩
      refine Proc.Recalls.bind (Proc.Recalls.tryCatch (dispatchToServer_deeds ?_)
        fun _ _ _ => Proc.recalls_done) fun _ past₅ hgrows₅ _ => ?_
      · have hstored₄ := hrow.later hgrows₄
        exact .decision hcall (hasked₃.later hgrows₄)
          (hstored₄.mono fun h hstored => ⟨updated, hstored⟩)
      have hasked₅ : Saw past₅ fun h => h.AskedOf approvalId ownerId approval.taskId :=
        (hasked₃.later (hgrows₄.trans hgrows₅)).mono fun _ h => h.1
      refine (notifyUser_deeds (.resolved ?_ hasked₅)).bind fun _ _ _ _ => Proc.recalls_done
      exact (hrow.later (hgrows₄.trans hgrows₅)).mono fun _ h => h.1

/-! ## Messages of daemons -/

/-- The message is a sign of life of the attempt, whatever it reports; the status is the one it
carries. -/
theorem handleDaemonTaskStatus_deeds {socketId : ℕ} {payload : DaemonTaskStatusPayload}
    (hcall : call = .message socketId (.TASK_STATUS_UPDATE payload))
    (huser : call.user = none) (hreports : call.reports = some payload.taskId) :
    (TasksService.handleDaemonTaskStatus env payload).Recalls (Deed env call)
      (fun _ _ => True) past := by
  refine (touchRunningAttempt_deeds huser hreports).bind fun _ _ _ _ => ?_
  refine (updateStatus_deeds (fun taskId hid => ?_) fun taskId value hid hvalue => ?_).bind
    fun _ _ _ _ => Proc.recalls_done
  · exact entitled_of_report huser (hid ▸ hreports)
  · exact .reported hcall (hid ▸ hreports) hvalue

/-- The row that is updated is the one the owner is told about. -/
theorem handleDaemonTaskLog_deeds {payload : DaemonTaskLogPayload} (huser : call.user = none)
    (hreports : call.reports = some payload.taskId) :
    (TasksService.handleDaemonTaskLog env payload).Recalls (Deed env call)
      (fun _ _ => True) past := by
  refine (key_deeds _).bind fun taskId past₁ _ hid => ?_
  rw [hid] at hreports
  refine (taskFindUniqueWithServer_deeds taskId).bind fun found past₂ _ hfound => ?_
  cases found with
  | none => exact Proc.recalls_done
  | some found =>
      have hsaw := hfound found.1 found.2 rfl
      refine (touchRunningAttempt_deeds huser hreports).bind fun _ past₃ hgrows₃ _ => ?_
      refine Proc.Recalls.bind (taskUpdate_kept_deeds ?_ ?_ ?_) fun task past₄ hgrows₄ hrow => ?_
      · exact entitled_of_report huser hreports
      · exact fun _ => .inl rfl
      · exact fun _ => ⟨rfl, rfl⟩
      refine notifyUser_deeds (.updated hrow (.inl ?_))
      exact (hsaw.later (hgrows₃.trans hgrows₄)).mono fun _ h => h.2.1

/-- A server that belongs to the user whose server another one is. -/
def SharedOwner (past : Past) (home serverId : ServerId) : Prop :=
  ∃ ownerId, (Saw past fun h => h.ServerOf home ownerId) ∧
    Saw past fun h => h.ServerOf serverId ownerId

/-- There is one adapter; for any other worker the call ends here. -/
theorem get_deeds (workerType : WorkerType) :
    (WorkerRegistry.get workerType).Recalls (Deed env call) (fun _ adapter =>
      adapter = ⟨CodexAdapter.submitTask, CodexAdapter.cancelTask⟩) past := by
  unfold WorkerRegistry.get
  split
  · exact Proc.recalls_pure rfl
  · exact Proc.recalls_throw _

/-- Every candidate is a server of the user whose server the preferred one is. -/
theorem getDispatchCandidates_deeds {workerType : WorkerType} {home : ServerId}
    {excluded : List ServerId} :
    (WorkerRegistry.getDispatchCandidates env workerType home excluded).Recalls (Deed env call)
      (fun past' candidates => ∀ candidate ∈ candidates,
        SharedOwner past' home candidate.serverId) past := by
  refine (get_deeds workerType).bind fun _ past₁ _ _ => ?_
  refine (findServer_deeds home).bind fun found past₂ _ hfound => ?_
  cases found with
  | none => exact Proc.recalls_throw _
  | some preferred =>
      have hhome := hfound preferred rfl
      have hprofiles : (Proc.read fun h => WorkerRegistry.profilesFor env h preferred.ownerId
          (WorkerRegistry.providerForWorkerType workerType) excluded : HubM _).Recalls
          (Deed env call) (fun past' profiles => ∀ row ∈ profiles,
            Saw past' fun h => h.ServerOf row.1.serverId preferred.ownerId) past₂ := by
        refine read_deeds fun h row hrow => saw_last ?_
        obtain ⟨-, hserver, hcompatible⟩ := mem_profilesFor.mp hrow
        simp only [WorkerRegistry.compatible, Bool.and_eq_true, beq_iff_eq] at hcompatible
        exact ⟨row.2, hserver, hcompatible.1.1.2⟩
      refine hprofiles.bind fun profiles past₃ hgrows₃ hrows => Proc.recalls_pure ?_
      intro candidate hcandidate
      obtain ⟨row, hrow, rfl⟩ := List.mem_map.mp ((env.sort_perm _ _).mem_iff.mp hcandidate)
      exact ⟨preferred.ownerId, hhome.later hgrows₃, hrows row hrow⟩

/-- The attempt is closed first. Whether the task is queued again or fails depends on the
candidates that are left, and in both cases the message has reported the failure. -/
theorem handleRetryableCapacityFailure_deeds {payload : DaemonTaskResultPayload}
    (huser : call.user = none) (hreports : call.reports = some payload.taskId) :
    (TasksService.handleRetryableCapacityFailure env payload).Recalls (Deed env call)
      (fun _ _ => True) past := by
  refine (key_deeds _).bind fun taskId past₁ _ hid => ?_
  rw [hid] at hreports
  have hentitled : ∀ past', call.Entitled past' taskId := fun _ =>
    entitled_of_report huser hreports
  refine (taskFindUniqueWithServer_deeds taskId).bind fun found past₂ _ _ => ?_
  cases found with
  | none => exact Proc.recalls_done
  | some found =>
      refine (finishRunningAttempt_deeds huser hreports).bind fun _ past₃ _ _ => ?_
      refine (deeds_of_hushed (read_hushed _)).bind fun excluded past₄ _ _ => ?_
      refine getDispatchCandidates_deeds.bind fun candidates past₅ _ _ => ?_
      cases candidates with
      | nil =>
          refine (updateTaskAndNotify_deeds (hentitled _) (.returned huser (.inr rfl))).bind
            fun _ _ _ _ => ?_
          exact deeds_of_hushed (sendPush_hushed _ _ _)
      | cons first rest =>
          refine (updateTaskAndNotify_deeds (hentitled _) (.returned huser (.inl rfl))).bind
            fun _ _ _ _ => ?_
          exact enqueueDispatch_deeds _

/-- Either path of the handler: a capacity failure, or a result that is recorded. -/
theorem handleDaemonTaskResult_deeds {socketId : ℕ} {payload : DaemonTaskResultPayload}
    (hcall : call = .message socketId (.TASK_RESULT payload))
    (huser : call.user = none) (hreports : call.reports = some payload.taskId) :
    (TasksService.handleDaemonTaskResult env payload).Recalls (Deed env call)
      (fun _ _ => True) past := by
  refine Proc.Recalls.ite (fun _ => ?_) fun _ => ?_
  · exact (handleRetryableCapacityFailure_deeds huser hreports).bind fun _ _ _ _ =>
      Proc.recalls_done
  · refine (finishRunningAttempt_deeds huser hreports).bind fun _ past₁ _ _ => ?_
    refine (updateStatus_deeds (fun taskId hid => ?_) fun taskId value hid hvalue => ?_).bind
      fun _ _ _ _ => deeds_of_hushed (sendPush_hushed _ _ _)
    · exact entitled_of_report huser (hid ▸ hreports)
    · exact .reported hcall (hid ▸ hreports) hvalue

/-- The approval is created for the request of the message, and the task waits for it. -/
theorem handleDaemonApprovalRequest_deeds {socketId : ℕ} {payload : DaemonApprovalRequestPayload}
    (hcall : call = .message socketId (.APPROVAL_REQUEST payload)) :
    (ApprovalsService.handleDaemonApprovalRequest env payload).Recalls (Deed env call)
      (fun _ _ => True) past := by
  refine (key_deeds _).bind fun taskId past₁ _ hid => ?_
  refine (taskFindUniqueWithServer_deeds taskId).bind fun found past₂ _ hfound => ?_
  cases found with
  | none => exact Proc.recalls_done
  | some found =>
      have hsaw := hfound found.1 found.2 rfl
      have hcreate : (Prisma.approvalCreate env taskId payload.reason).Recalls (Deed env call)
          (fun past' created => created.2.taskId = taskId ∧
            Left past' fun h => h.approvals created.1 = some created.2) past₂ := by
        refine Proc.recalls_atomically fun h => ?_
        cases htask : h.tasks taskId with
        | none => exact ⟨Deed.refl past₂ h, nofun⟩
        | some task =>
            dsimp only
            split
            · exact ⟨Deed.refl past₂ h, nofun⟩
            · next hnone =>
              refine ⟨.of_write (.approvalCreated h.rows hcall hid rfl rfl rfl ?_ ?_) rfl rfl, ?_⟩
              · exact fun hmissing => Option.some_ne_none _ (htask.symm.trans hmissing)
              · intro id other hrow hsame
                refine hnone (List.any_eq_true.mpr ⟨(id, other), Table.mem_toList.mpr hrow, ?_⟩)
                exact beq_iff_eq.mpr hsame
              · intro created heq
                cases heq
                refine ⟨rfl, left_last ?_⟩
                rw [Table.insert_apply, if_pos rfl]
      refine hcreate.bind fun created past₃ hgrows₃ hcreated => ?_
      obtain ⟨hof, hrow⟩ := hcreated
      refine Proc.Recalls.bind (taskUpdate_kept_deeds ?_ (fun _ => .inr (.asked hcall hid)) ?_)
        fun _ past₄ hgrows₄ _ => ?_
      · rw [hcall]
        exact entitled_of_report rfl (congrArg some hid)
      · exact fun _ => ⟨rfl, rfl⟩
      refine (notifyUser_deeds (.pending (hrow.later hgrows₄) ?_)).bind fun _ _ _ _ =>
        deeds_of_hushed (sendPush_hushed _ _ _)
      rw [hof]
      exact (hsaw.later (hgrows₃.trans hgrows₄)).mono fun _ h => h.2.1

/-! ## Dispatch and the watchdog -/

/-- A call of the queue may write to any task. -/
theorem entitled_queued {taskId : TaskId} (hqueued : call.Queued) :
    call.Entitled past taskId where
  user user hcall := by
    rcases hqueued with ⟨jobId, rfl⟩ | rfl <;> cases hcall
  reports ref hcall := by
    rcases hqueued with ⟨jobId, rfl⟩ | rfl <;> cases hcall
  queued _ _ := hqueued

/-- A call of the queue may write to any attempt. -/
theorem attemptWritten_queued {id : TaskAttemptId} {f : TaskAttempt → TaskAttempt}
    (hqueued : call.Queued) (hkeeps : ∀ attempt, (f attempt).taskId = attempt.taskId ∧
      (f attempt).serverId = attempt.serverId) (r : Rows) :
    Write env call past r { r with attempts := r.attempts.modify id f } := by
  refine .attemptWritten r ?_ (fun ref hcall => ?_) (fun _ => hqueued) hkeeps
  · rcases hqueued with ⟨jobId, rfl⟩ | rfl <;> rfl
  · rcases hqueued with ⟨jobId, rfl⟩ | rfl <;> cases hcall

/-- One candidate: the task is sent there after its attempt is stored, and moved there. -/
theorem tryCandidate_deeds {jobId : ℕ} {taskId : TaskId} {input : Json} {id : TaskAttemptId}
    {candidate : WorkerDispatchCandidate} (hcall : call = .dispatch jobId)
    (hfound : FoundFor past taskId candidate.serverId)
    (hinput : Saw past fun h => ∃ task, h.tasks taskId = some task ∧ task.input = input)
    (hattempt : Left past fun h => ∃ id attempt, h.attempts id = some attempt ∧
      attempt.taskId = taskId ∧ attempt.serverId = candidate.serverId) :
    (TasksProcessor.tryCandidate env taskId input id candidate).Recalls (Deed env call)
      (fun _ _ => True) past := by
  have hdispatch : (TasksProcessor.dispatchToCandidate taskId input candidate).Recalls
      (Deed env call) (fun _ _ => True) past := by
    refine (deeds_of_hushed (read_hushed _)).bind fun found past₁ hgrows₁ _ => ?_
    cases found with
    | none => exact Proc.recalls_throw _
    | some task =>
        refine (get_deeds task.workerType).bind fun adapter past₂ hgrows₂ hadapter => ?_
        rw [hadapter]
        have hgrows := hgrows₁.trans hgrows₂
        exact dispatchToServer_deeds (.submit hcall (hfound.later hgrows) (hinput.later hgrows)
          (hattempt.later hgrows))
  refine hdispatch.bind fun _ past₁ hgrows₁ _ => ?_
  refine Proc.Recalls.bind (taskUpdate_deeds fun h date hstored hserver => ?_) fun _ past₂ _ _ => ?_
  · refine .taskMoved h.rows hcall (hfound.later hgrows₁) ?_ (fun _ => ⟨rfl, rfl⟩)
      fun _ => .placed hcall
    refine hserver.imp (fun hsame task htask => (hsame task htask).symm) fun hstays => ?_
    obtain ⟨task, htask⟩ := Option.isSome_iff_exists.mp hstored
    exact hstays task htask
  · refine (deeds_of_hushed now_hushed).bind fun date past₃ _ _ => ?_
    exact attemptUpdate_deeds (attemptWritten_queued (.inl ⟨_, hcall⟩) fun _ => ⟨rfl, rfl⟩)

/-- By induction on the candidates: each was found for the task, and that the ones before it have
failed changes nothing about the rest. -/
theorem dispatchLoop_deeds {jobId : ℕ} {taskId : TaskId} {input : Json}
    {candidates : List WorkerDispatchCandidate} {failures : List JsString}
    (hcall : call = .dispatch jobId)
    (hfound : ∀ candidate ∈ candidates, FoundFor past taskId candidate.serverId)
    (hinput : Saw past fun h => ∃ task, h.tasks taskId = some task ∧ task.input = input) :
    (TasksProcessor.dispatchLoop env taskId input candidates failures).Recalls (Deed env call)
      (fun _ _ => True) past := by
  induction candidates generalizing failures past with
  | nil => exact Proc.recalls_done
  | cons candidate rest ih =>
      have hfirst := hfound candidate List.mem_cons_self
      have hcreate : (Prisma.taskAttemptCreate env taskId candidate.serverId .DISPATCHING).Recalls
          (Deed env call) (fun past' _ => Left past' fun h => ∃ id attempt,
            h.attempts id = some attempt ∧ attempt.taskId = taskId ∧
              attempt.serverId = candidate.serverId) past := by
        refine Proc.recalls_atomically fun h => ?_
        split
        · next task server htask hserver =>
          refine ⟨.of_write (.attemptCreated h.rows hcall ?_ ?_ hfirst) rfl rfl,
            fun _ _ => left_last ?_⟩
          · exact fun hnone => Option.some_ne_none _ (htask.symm.trans hnone)
          · exact fun hnone => Option.some_ne_none _ (hserver.symm.trans hnone)
          · exact ⟨h.attempts.next, _, if_pos rfl, rfl, rfl⟩
        · exact ⟨Deed.refl past h, nofun⟩
      refine hcreate.bind fun created past₁ hgrows₁ hattempt => ?_
      have htry := @tryCandidate_deeds env call past₁ jobId taskId input created.1 candidate hcall
        (hfirst.later hgrows₁) (hinput.later hgrows₁) hattempt
      refine Proc.Recalls.bind (Proc.Recalls.tryCatch (htry.bind fun _ _ _ _ =>
        Proc.recalls_done) fun error past₂ _ => ?_) fun failure past₃ hgrows₃ _ => ?_
      · have hrecord : (TasksProcessor.recordFailure env created.1 error).Recalls (Deed env call)
            (fun _ _ => True) past₂ := by
          refine (deeds_of_hushed now_hushed).bind fun finished _ _ _ => ?_
          refine (deeds_of_hushed now_hushed).bind fun lastSeen _ _ _ => ?_
          exact attemptUpdate_deeds
            (attemptWritten_queued (.inl ⟨_, hcall⟩) fun _ => ⟨rfl, rfl⟩)
        exact hrecord.bind fun _ _ _ _ => Proc.recalls_done
      · have hgrows := hgrows₁.trans hgrows₃
        cases failure with
        | none => exact Proc.recalls_done
        | some failure =>
            exact ih (fun other hother => (hfound other (List.mem_cons_of_mem _ hother)).later
              hgrows) (hinput.later hgrows)

/-- The job reads its task, and everything it does is about what it has read. -/
theorem processDispatch_deeds {jobId : ℕ} (taskId : Option TaskId)
    (hcall : call = .dispatch jobId) :
    (TasksProcessor.processDispatch env taskId).Recalls (Deed env call) (fun _ _ => True) past := by
  cases taskId with
  | none => exact Proc.recalls_done
  | some taskId =>
      have hread : (Prisma.taskFindUnique taskId).Recalls (Deed env call)
          (fun past' found => ∀ task, found = some task →
            Saw past' fun h => h.tasks taskId = some task) past :=
        read_deeds fun h task hfound => saw_last (show h.tasks _ = _ from hfound)
      refine hread.bind fun found past₁ _ hfound => ?_
      cases found with
      | none => exact Proc.recalls_done
      | some task =>
          have htask := hfound task rfl
          refine Proc.Recalls.ite (fun _ => Proc.recalls_done) fun _ => ?_
          refine (deeds_of_hushed (read_hushed _)).bind fun excluded past₂ hgrows₂ _ => ?_
          refine getDispatchCandidates_deeds.bind fun candidates past₃ hgrows₃ hcandidates => ?_
          have htask₃ := htask.later (hgrows₂.trans hgrows₃)
          refine Proc.Recalls.ite (fun _ => Proc.recalls_throw _) fun _ => ?_
          refine (dispatchLoop_deeds hcall (fun candidate hcandidate => ?_) ?_).bind
            fun failures past₄ _ _ => ?_
          · obtain ⟨ownerId, hhome, hserver⟩ := hcandidates candidate hcandidate
            refine ⟨task.serverId, ownerId, htask₃.mono fun h hrow => ?_, hhome, hserver⟩
            exact ⟨task, hrow, rfl⟩
          · exact htask₃.mono fun h hrow => ⟨task, hrow, rfl⟩
          · cases failures with
            | none => exact Proc.recalls_done
            | some failures =>
                refine Proc.Recalls.bind (taskUpdate_kept_deeds ?_ ?_ ?_) fun _ _ _ _ =>
                  Proc.recalls_throw _
                · exact entitled_queued (.inl ⟨_, hcall⟩)
                · exact fun _ => .inl rfl
                · exact fun _ => ⟨rfl, rfl⟩

/-- The job is read, its task dispatched, and the outcome written to the job. -/
theorem runJob_deeds {jobId : ℕ} (hcall : call = .dispatch jobId) :
    (runJob env jobId).Recalls (Deed env call) (fun _ _ => True) past := by
  refine (deeds_of_hushed (read_hushed _)).bind fun found past₁ _ _ => ?_
  cases found with
  | none => exact Proc.recalls_done
  | some job =>
      refine Proc.Recalls.bind (Proc.Recalls.tryCatch
        ((processDispatch_deeds job.taskId hcall).bind fun _ _ _ _ => Proc.recalls_done)
        fun _ _ _ => Proc.recalls_done) fun outcome past₂ _ _ => ?_
      exact Proc.recalls_atomically fun h =>
        ⟨.of_write (.jobWritten h.rows job outcome hcall) rfl rfl, fun _ _ => trivial⟩

/-- A scan belongs to no user, so it may close the attempts of anybody; the status it sets is
`FAILED` or `QUEUED`. -/
theorem timeOutTask_deeds {taskId : TaskId} {task : Task} {attemptId : TaskAttemptId}
    {attempt : TaskAttempt} (hcall : call = .watchdog) :
    (TasksProcessor.timeOutTask env taskId task attemptId attempt).Recalls (Deed env call)
      (fun _ _ => True) past := by
  have hentitled : ∀ past', call.Entitled past' taskId := fun _ => entitled_queued (.inr hcall)
  refine (deeds_of_hushed (read_hushed _)).bind fun count _ _ _ => ?_
  refine (deeds_of_hushed now_hushed).bind fun finished _ _ _ => ?_
  refine Proc.Recalls.bind (attemptUpdate_deeds ?_) fun _ _ _ _ => ?_
  · exact attemptWritten_queued (.inr hcall) fun _ => ⟨rfl, rfl⟩
  refine Proc.Recalls.ite (fun _ => ?_) fun _ => ?_
  · refine Proc.Recalls.bind (taskUpdate_kept_deeds (hentitled _)
      (fun _ => .inr (.returned (hcall ▸ rfl) (.inr rfl))) ?_) fun _ _ _ _ => Proc.recalls_done
    exact fun _ => ⟨rfl, rfl⟩
  · refine Proc.Recalls.bind (taskUpdate_kept_deeds (hentitled _)
      (fun _ => .inr (.returned (hcall ▸ rfl) (.inl rfl))) ?_)
        fun _ _ _ _ => enqueueDispatch_deeds _
    exact fun _ => ⟨rfl, rfl⟩

/-- By induction on the rows the scan has read at its start. -/
theorem scanLoop_deeds (hcall : call = .watchdog) (staleBefore : ℤ)
    (stale : List ((TaskId × Task) × Option (TaskAttemptId × TaskAttempt))) (handled : ℕ) :
    (TasksProcessor.scanLoop env staleBefore stale handled).Recalls (Deed env call)
      (fun _ _ => True) past := by
  induction stale generalizing handled past with
  | nil => exact Proc.recalls_done
  | cons row rest ih =>
      obtain ⟨⟨taskId, task⟩, latest⟩ := row
      cases latest with
      | none => exact ih handled
      | some latest =>
          refine Proc.Recalls.ite (fun _ => ih handled) fun _ => ?_
          exact (timeOutTask_deeds hcall).bind fun _ _ _ _ => ih _

/-! ## Servers, sockets and registrations -/

/-- The rows that go with the server are the user's, since the server is. -/
theorem remove_deeds {ownerId : UserId} {serverId : ServerId}
    (hcall : call = .removeServer ownerId serverId) :
    (ServersService.remove ownerId serverId).Recalls (Deed env call) (fun _ _ => True) past := by
  refine (getOwnedServer_deeds ownerId serverId).bind fun _ past₁ _ howner => ?_
  refine Proc.recalls_atomically fun h => ⟨?_, fun _ _ => trivial⟩
  cases h.servers serverId with
  | none => exact Deed.refl past₁ h
  | some server =>
      have hsurvives : ∀ taskId, ServersService.survives h serverId taskId =
          (h.tasks taskId).any fun task => task.serverId != serverId := fun taskId => by
        unfold ServersService.survives
        cases h.tasks taskId <;> rfl
      have hwritten : Write env call past₁ h.rows _ := .serverDeleted h.rows hcall howner
      refine .wrote ?_ rfl ?_
      · simp only [hsurvives]
        exact hwritten
      · -- a request that was linked to the server loses the link, and keeps its owner
        refine Table.evolves_map _ fun request => ?_
        split <;> rfl

/-- A sign of life changes the status of the server and the date. -/
theorem markHeartbeat_deeds {serverId : ServerId} (hsignalled : Signalled env call past serverId) :
    (ServersService.markHeartbeat env serverId).Recalls (Deed env call)
      (fun _ _ => True) past := by
  refine (deeds_of_hushed now_hushed).bind fun date past₁ hgrows₁ _ => ?_
  exact serverUpdate_deeds (hsignalled.later hgrows₁) fun _ => ⟨rfl, rfl⟩

/-- The socket that is closed is the one of the call. -/
theorem disconnect_deeds {socketId : ℕ}
    (hcall : call = .handleConnection socketId ∨ call = .handleDisconnect socketId) :
    (DaemonGateway.disconnect socketId).Recalls (Deed env call) (fun _ _ => True) past :=
  Proc.recalls_modify fun h => ⟨.of_write (.socketClosed h.rows hcall) rfl rfl, trivial⟩

/-- The server that is found by a key is stored under its digest. -/
theorem findByApiKey_deeds {apiKey : JsString} :
    (ServersService.findByApiKey env apiKey).Recalls (Deed env call)
      (fun past' found => ∀ serverId server, found = some (serverId, server) →
        Saw past' fun h => h.ServerOf serverId server.ownerId ∧ h.HasKey env serverId apiKey)
      past := by
  refine read_deeds fun h serverId server hfound => saw_last ?_
  have hmem := (env.rowOrder_perm _).mem_iff.mp (List.mem_of_mem_head? hfound)
  rw [List.mem_filter, Table.mem_toList, beq_iff_eq] at hmem
  exact ⟨⟨server, hmem.1, rfl⟩, server, hmem.1, hmem.2⟩

/-- The server that is marked is the one the key of the handshake was found for. -/
theorem handleConnection_deeds {socketId : ℕ} (hcall : call = .handleConnection socketId) :
    (DaemonGateway.handleConnection env socketId).Recalls (Deed env call)
      (fun _ _ => True) past := by
  have htake : (Proc.take (fun h => DaemonGateway.handshakeKey h socketId) id :
      HubM (Option JsString)).Recalls (Deed env call) (fun past' found =>
        Saw past' fun h => DaemonGateway.handshakeKey h socketId = found) past :=
    Proc.recalls_take fun h => ⟨Deed.refl past h, saw_last rfl⟩
  refine htake.bind fun apiKey past₁ _ hkey => ?_
  cases apiKey with
  | none => exact disconnect_deeds (.inl hcall)
  | some apiKey =>
      refine findByApiKey_deeds.bind fun found past₂ hgrows₂ hfound => ?_
      cases found with
      | none => exact disconnect_deeds (.inl hcall)
      | some found =>
          have hauthentic : Authenticated env past₂ socketId found.1 found.2.ownerId :=
            ⟨apiKey, hkey.later hgrows₂, hfound found.1 found.2 rfl⟩
          have hdata : (Proc.modify fun h : Hub =>
              { h with sockets := h.sockets.modify socketId fun socket =>
                  { socket with data := some (found.1, found.2.ownerId) } } : HubM Unit).Recalls
              (Deed env call) (fun _ _ => True) past₂ :=
            Proc.recalls_modify fun h =>
              ⟨.of_write (.socketAuthenticated h.rows hcall hauthentic) rfl rfl, trivial⟩
          refine hdata.bind fun _ past₃ hgrows₃ _ => ?_
          have hauthentic₃ := hauthentic.later hgrows₃
          refine Proc.Recalls.bind (Proc.recalls_atomically fun h =>
            ⟨.of_write (.socketJoined h.rows hcall hauthentic₃) rfl rfl, fun _ _ => trivial⟩)
            fun _ past₄ hgrows₄ (_ : True) => ?_
          exact markHeartbeat_deeds (.inl ⟨socketId, _, hcall, hauthentic₃.later hgrows₄⟩)

/-- What a socket is bound to. -/
theorem socketData_deeds (socketId : ℕ) :
    (Proc.take (fun h : Hub => (h.sockets socketId).bind (·.data)) id : HubM _).Recalls
      (Deed env call) (fun past' found =>
        Saw past' fun h => (h.sockets socketId).bind (·.data) = found) past :=
  Proc.recalls_take fun h => ⟨Deed.refl past h, saw_last rfl⟩

/-- The server that is marked is the one the socket was bound to. -/
theorem handleDisconnect_deeds {socketId : ℕ} (hcall : call = .handleDisconnect socketId) :
    (DaemonGateway.handleDisconnect socketId).Recalls (Deed env call) (fun _ _ => True) past := by
  refine (socketData_deeds socketId).bind fun data past₁ _ hdata => ?_
  refine (disconnect_deeds (.inr hcall)).bind fun _ past₂ hgrows₂ _ => ?_
  cases data with
  | none => exact Proc.recalls_done
  | some data =>
      exact serverUpdate_deeds (.inr ⟨socketId, data.2, .inl hcall, hdata.later hgrows₂⟩)
        fun _ => ⟨rfl, rfl⟩

/-- The server that is marked is the one the socket is bound to; without one nothing is done. -/
theorem onHeartbeat_deeds {socketId : ℕ} (hcall : call = .message socketId .HEARTBEAT) :
    (DaemonGateway.onHeartbeat env socketId).Recalls (Deed env call) (fun _ _ => True) past := by
  refine (socketData_deeds socketId).bind fun data past₁ _ hdata => ?_
  cases data with
  | none => exact Proc.recalls_done
  | some data => exact markHeartbeat_deeds (.inr ⟨socketId, data.2, .inr hcall, hdata⟩)

/-- An approval creates a server of the user who approves. Nothing is said about who made the
request: that is what the code and the verification code are for. -/
theorem decideRegistration_deeds {ownerId : UserId} {requestId : RegistrationId} {approve : Bool}
    (huser : call.user = some ownerId) :
    (ServerRegistrationsService.decide env ownerId requestId approve).Recalls (Deed env call)
      (fun _ _ => True) past := by
  refine (deeds_of_hushed (read_hushed _)).bind fun found past₁ _ _ => ?_
  cases found with
  | none => exact Proc.recalls_throw _
  | some request =>
      refine Proc.Recalls.ite (fun _ => Proc.recalls_throw _) fun _ => ?_
      refine (deeds_of_registers expireIfNeeded_registers).bind fun current past₂ _ _ => ?_
      refine Proc.Recalls.ite (fun _ => Proc.recalls_done) fun _ =>
        Proc.Recalls.ite (fun _ => ?_) fun _ => ?_
      · refine Proc.Recalls.bind (deeds_of_registers (registrationUpdate_registers ?_))
          fun _ _ _ _ => Proc.recalls_done
        exact fun _ => rfl
      · refine (deeds_of_hushed draw_hushed).bind fun key past₃ _ _ => ?_
        refine (deeds_of_hushed draw_hushed).bind fun iv past₄ _ _ => ?_
        refine Proc.Recalls.bind (Proc.recalls_atomically fun h => ⟨?_, fun _ _ => trivial⟩)
          fun _ _ _ (_ : True) => Proc.recalls_done
        dsimp only
        unfold ServersService.serverCreate Prisma.registrationUpdate
        simp only [Proc.run_bind, Proc.run_atomically]
        cases hrow : h.registrations requestId with
        | none => exact Deed.refl past₄ h
        | some row => exact .wrote (.serverAdded h.rows _ huser) rfl (.updated hrow rfl rfl)

/-! ## All calls -/

/-- **Every node of a call is a deed of it**, whatever state the rest of the pool has left. -/
theorem perform_deeds (env : Env) (call : HubCall) :
    (perform env call).Recalls (Deed env call) (fun _ _ => True) [] := by
  cases hcall : call with
  | submit ownerId dto => exact (submit_deeds rfl).bind fun _ _ _ _ => Proc.recalls_done
  | findAllTasks ownerId =>
      exact (deeds_of_hushed (read_hushed _)).bind fun _ _ _ _ => Proc.recalls_done
  | findOneTask ownerId taskId =>
      exact ((getOwnedTask_deeds ownerId taskId).bind fun _ _ _ _ => Proc.recalls_done).bind
        fun _ _ _ _ => Proc.recalls_done
  | cancel ownerId taskId => exact (cancel_deeds rfl).bind fun _ _ _ _ => Proc.recalls_done
  | listApprovals ownerId status =>
      refine Proc.Recalls.bind ?_ fun _ _ _ (_ : True) => Proc.recalls_done
      unfold ApprovalsService.listForOwner
      split
      · exact Proc.recalls_throw _
      · exact deeds_of_hushed (read_hushed _)
  | decideApproval ownerId approvalId dto =>
      exact (decide_deeds rfl).bind fun _ _ _ _ => Proc.recalls_done
  | createServer ownerId dto =>
      refine Proc.Recalls.bind ((deeds_of_hushed draw_hushed).bind fun key past₁ _ _ =>
        Proc.Recalls.bind (Proc.recalls_atomically fun h => ⟨?_, fun _ _ => trivial⟩)
          fun _ _ _ (_ : True) => Proc.recalls_done) fun _ _ _ (_ : True) => Proc.recalls_done
      exact .of_write (.serverAdded h.rows _ rfl) rfl rfl
  | findAllServers ownerId =>
      exact ((deeds_of_hushed (read_hushed _)).bind fun _ _ _ _ => Proc.recalls_done).bind
        fun _ _ _ _ => Proc.recalls_done
  | findOneServer ownerId serverId =>
      exact ((getOwnedServer_deeds ownerId serverId).bind fun _ _ _ _ => Proc.recalls_done).bind
        fun _ _ _ _ => Proc.recalls_done
  | getHealth ownerId serverId =>
      exact ((getOwnedServer_deeds ownerId serverId).bind fun _ _ _ _ => Proc.recalls_done).bind
        fun _ _ _ _ => Proc.recalls_done
  | removeServer ownerId serverId =>
      exact (remove_deeds rfl).bind fun _ _ _ _ => Proc.recalls_done
  | findPendingRegistrations ownerId =>
      exact (deeds_of_registers findPendingForOwner_registers).bind fun _ _ _ _ => Proc.recalls_done
  | decideRegistration ownerId requestId approve =>
      exact (decideRegistration_deeds rfl).bind fun _ _ _ _ => Proc.recalls_done
  | createRegistration dto =>
      exact (deeds_of_registers createRegistration_registers).bind fun _ _ _ _ => Proc.recalls_done
  | getRegistrationResult requestId requestSecret =>
      exact (deeds_of_registers getResult_registers).bind fun _ _ _ _ => Proc.recalls_done
  | openSocket apiKey =>
      refine Proc.Recalls.bind (Proc.recalls_modify fun h => ⟨?_, trivial⟩)
        fun _ _ _ (_ : True) => Proc.recalls_done
      exact .of_write (.socketOpened h.rows rfl) rfl rfl
  | handleConnection socketId =>
      exact (handleConnection_deeds rfl).bind fun _ _ _ _ => Proc.recalls_done
  | handleDisconnect socketId =>
      exact (handleDisconnect_deeds rfl).bind fun _ _ _ _ => Proc.recalls_done
  | message socketId inbound =>
      refine Proc.Recalls.bind ?_ fun _ _ _ (_ : True) => Proc.recalls_done
      cases inbound with
      | HEARTBEAT => exact onHeartbeat_deeds rfl
      | TASK_STATUS_UPDATE payload => exact handleDaemonTaskStatus_deeds rfl rfl rfl
      | TASK_LOG payload => exact handleDaemonTaskLog_deeds rfl rfl
      | TASK_RESULT payload => exact handleDaemonTaskResult_deeds rfl rfl rfl
      | APPROVAL_REQUEST payload => exact handleDaemonApprovalRequest_deeds rfl
  | dispatch jobId => exact (runJob_deeds rfl).bind fun _ _ _ _ => Proc.recalls_done
  | watchdog =>
      refine Proc.Recalls.bind ?_ fun _ _ _ (_ : True) => Proc.recalls_done
      refine (deeds_of_hushed now_hushed).bind fun date _ _ _ => ?_
      exact (deeds_of_hushed (read_hushed _)).bind fun _ _ _ _ => scanLoop_deeds rfl _ _ _

end CodeCaller
