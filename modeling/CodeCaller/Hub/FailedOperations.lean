import CodeCaller.Library.Faults
import CodeCaller.Hub.Operations

/-!
# Operations that fail half way

`submit`, `decide` and `handleDaemonApprovalRequest` each write twice or more, without a
transaction. An await that fails before the first write leaves the rows as they were, one that
fails after it does not: `failed_operations_iff` says for each operation which awaits those are.

### The method

`Proc.runWith faults` from `Library.Faults` runs a program with an error for some of its awaits.
Only awaited nodes take one: queries, updates, calls of the queue.  A message to a room and the
reading of the clock are not awaited, and cannot fail.

An operation is taken apart at its writes.  Before a write, `failsClean_bind_iff` passes on; at a
write, `failsClean_write_iff` says that the rest must not fail; and the conditions `SubmitReaches`,
`DecideReaches` and `RequestReaches` are what is left at the end, in terms of the state and of the
faults at those places.

The push at the end of a request is part of it: the handler awaits `sendPush`, so a token that
cannot be decrypted is an error of the request, after the approval was stored.
-/

namespace CodeCaller

open Async

variable (env : Env)

/-- The tasks and approvals are the same. -/
structure SameRows (h h' : Hub) : Prop where
  tasks : ∀ id, h'.tasks id = h.tasks id
  approvals : ∀ id, h'.approvals id = h.approvals id

/-- **What is promised of an operation with faults**: if it ends with an error, it has left the
rows as they were. -/
def FailsClean {α : Type} (operation : HubM α) (h : Hub) (faults : Faults HubError) : Prop :=
  ∀ error, (operation.runWith faults h).1 = .error error →
    SameRows h (operation.runWith faults h).2.1

/-! ## Conditions -/

/-- A task that is created gets its job, and the watchdog is there. -/
def SubmitReaches (h : Hub) (ownerId : UserId) (dto : CreateTaskDto)
    (faults : Faults HubError) : Prop :=
  (∃ server, h.servers dto.serverId = some server ∧ server.ownerId = ownerId) →
    faults 0 = none → faults 1 = none → faults 2 = none ∧ faults 3 = none

/-- An approval that is decided has its task updated. -/
def DecideReaches (h : Hub) (ownerId : UserId) (approvalId : ApprovalId)
    (faults : Faults HubError) : Prop :=
  (∃ approval task server, ApprovalsService.approvalWithTask h approvalId =
      some (approval, task, server) ∧ server.ownerId = ownerId ∧ approval.status = .PENDING) →
    faults 0 = none → faults 1 = none → faults 2 = none

/-- A push to a user does not fail: there is no Firebase, or the key is there, the query
answers and every token of the user can be decrypted. -/
def PushReaches (h : Hub) (userId : UserId) (fault : Option HubError) : Prop :=
  env.fcmReady = false ∨ ∃ key, env.processEnv (js "PUSH_TOKEN_ENC_KEY") = some key ∧
    fault = none ∧ ∀ id row, h.pushTokens id = some row → row.userId = userId →
      (decryptSecret env.crypto row.token key).isSome

/-- An approval that is asked for has its task updated, and the push to the owner goes out. -/
def RequestReaches (h : Hub) (payload : DaemonApprovalRequestPayload)
    (faults : Faults HubError) : Prop :=
  ∀ taskId task server, payload.taskId = .id taskId →
    h.taskWithServer taskId = some (task, server) →
    (∀ id approval, h.approvals id = some approval → approval.taskId ≠ taskId) →
    faults 0 = none → faults 1 = none →
      faults 2 = none ∧ PushReaches env h server.ownerId (faults 3)

section Operations

variable {env} {h : Hub} {faults : Faults HubError}

/-- The rows are the rows. -/
theorem SameRows.refl (h : Hub) : SameRows h h := ⟨fun _ => rfl, fun _ => rfl⟩

/-- Which of two states comes first does not matter here. -/
theorem SameRows.symm {h' : Hub} (hsame : SameRows h h') : SameRows h' h :=
  ⟨fun id => (hsame.tasks id).symm, fun id => (hsame.approvals id).symm⟩

/-- Nor does what lies between. -/
theorem SameRows.trans {h' h'' : Hub} (hsame : SameRows h h') (hsame' : SameRows h' h'') :
    SameRows h h'' :=
  ⟨fun id => (hsame'.tasks id).trans (hsame.tasks id),
    fun id => (hsame'.approvals id).trans (hsame.approvals id)⟩

/-- An operation that has ended with an error and changed nothing. -/
theorem FailsClean.of_same {α : Type} {operation : HubM α}
    (hrun : (operation.runWith faults h).2.1 = h) : FailsClean operation h faults := by
  intro error _
  rw [hrun]
  exact .refl h

/-- A first part that has ended with an error and changed nothing. -/
theorem FailsClean.bind_error {α β : Type} {p : HubM α} {f : α → HubM β} {error : HubError}
    {faults' : Faults HubError} (hrun : p.runWith faults h = (.error error, h, faults')) :
    FailsClean (p >>= f) h faults := by
  refine .of_same ?_
  rw [Proc.runWith_bind_error hrun]

/-- A first part that has returned and changed no row. -/
theorem failsClean_bind_iff {α β : Type} {p : HubM α} {f : α → HubM β} {value : α} {h' : Hub}
    {faults' : Faults HubError} (hrun : p.runWith faults h = (.ok value, h', faults'))
    (hsame : SameRows h h') :
    FailsClean (p >>= f) h faults ↔ FailsClean (f value) h' faults' := by
  unfold FailsClean
  rw [Proc.runWith_bind_ok hrun]
  exact forall_congr' fun error => imp_congr_right fun _ =>
    ⟨fun hclean => hsame.symm.trans hclean, fun hclean => hsame.trans hclean⟩

/-- A first part that has written: the rest must not fail. -/
theorem failsClean_write_iff {α β : Type} {p : HubM α} {f : α → HubM β} {value : α} {h' : Hub}
    {faults' : Faults HubError} (hrun : p.runWith faults h = (.ok value, h', faults'))
    (hwrites : ∀ error, ((f value).runWith faults' h').1 = .error error →
      ¬SameRows h ((f value).runWith faults' h').2.1) :
    FailsClean (p >>= f) h faults ↔
      ∀ error, ((f value).runWith faults' h').1 ≠ .error error := by
  unfold FailsClean
  rw [Proc.runWith_bind_ok hrun]
  exact forall_congr' fun error =>
    ⟨fun hclean herror => hwrites error herror (hclean herror), fun hnot herror =>
      absurd herror hnot⟩

/-! ## `submit` -/

/-- The check of ownership is one await: it answers or it throws, and the rows stay. -/
theorem runWith_findOneForOwner {ownerId : UserId} {serverId : ServerId} :
    (∃ answer, (ServersService.findOneForOwner ownerId serverId).runWith faults h =
        (.ok answer, h, faults.rest)) ∧
        (∃ server, h.servers serverId = some server ∧ server.ownerId = ownerId) ∧
        faults 0 = none ∨
      (∃ error, (ServersService.findOneForOwner ownerId serverId).runWith faults h =
        (.error error, h, faults.rest)) ∧
        ¬((∃ server, h.servers serverId = some server ∧ server.ownerId = ownerId) ∧
          faults 0 = none) := by
  unfold ServersService.findOneForOwner ServersService.getOwnedServer
  simp only [Proc.runWith_bind]
  cases hread : faults 0 with
  | some error =>
      refine .inr ⟨⟨error, ?_⟩, fun hboth => by cases hboth.2⟩
      rw [Proc.runWith_read_fault _ hread]
  | none =>
      rw [Proc.runWith_read_ok _ hread]
      cases hserver : h.servers serverId with
      | none =>
          refine .inr ⟨⟨_, rfl⟩, ?_⟩
          rintro ⟨⟨server, hsome, -⟩, -⟩
          cases hsome
      | some server =>
          by_cases howner : server.ownerId = ownerId
          · refine .inl ⟨⟨ServersService.toPublic serverId server, ?_⟩, ⟨server, rfl, howner⟩, rfl⟩
            simp [howner]
          · refine .inr ⟨⟨_, by simp [howner, Proc.runWith_bind]; rfl⟩, ?_⟩
            rintro ⟨⟨other, hsome, hof⟩, -⟩
            cases hsome
            exact howner hof

/-- The queue is called twice, and no row is written. -/
theorem runWith_queue {α : Type} (id : TaskId) (value : α) :
    SameRows h ((do
        enqueueDispatch id
        TasksService.ensureWatchdogScheduled
        return value : HubM α).runWith faults h).2.1 ∧
      ((∀ error, ((do
        enqueueDispatch id
        TasksService.ensureWatchdogScheduled
        return value : HubM α).runWith faults h).1 ≠ .error error) ↔
          faults 0 = none ∧ faults 1 = none) := by
  unfold enqueueDispatch TasksService.ensureWatchdogScheduled
  simp only [Proc.runWith_bind]
  cases hjob : faults 0 with
  | some error =>
      rw [Proc.runWith_atomically_fault _ hjob]
      exact ⟨.refl h, iff_of_false (fun hnot => hnot error rfl) fun hboth => by cases hboth.1⟩
  | none =>
      rw [Proc.runWith_atomically_ok _ hjob]
      dsimp only
      have hnext : faults.rest 0 = faults 1 := rfl
      cases hwatchdog : faults 1 with
      | some error =>
          rw [Proc.runWith_atomically_fault _ (hnext.trans hwatchdog)]
          exact ⟨⟨fun _ => rfl, fun _ => rfl⟩,
            iff_of_false (fun hnot => hnot error rfl) fun hboth => by cases hboth.2⟩
      | none =>
          rw [Proc.runWith_atomically_ok _ (hnext.trans hwatchdog)]
          exact ⟨⟨fun _ => rfl, fun _ => rfl⟩, iff_of_true (fun error => nofun) ⟨rfl, rfl⟩⟩

/-- A task is created if the await does not fail. -/
theorem runWith_taskCreate {serverId : ServerId} {server : Server}
    (hserver : h.servers serverId = some server) (hfault : faults 0 = none)
    (workerType : WorkerType) (input : Json) :
    ∃ task, (Prisma.taskCreate env serverId workerType input).runWith faults h =
      (.ok (h.tasks.next, task),
        { h with tasks := h.tasks.insert task, reads := h.reads + 1 }, faults.rest) := by
  unfold Prisma.taskCreate
  rw [Proc.runWith_atomically_ok _ hfault, hserver]
  exact ⟨_, rfl⟩

/-- A row that was not there is not the same. -/
theorem SameRows.no_task {h' : Hub} {task : Task} (hnew : h'.tasks h.tasks.next = some task) :
    ¬SameRows h h' := by
  intro hsame
  rw [hsame.tasks, h.tasks.fresh _ (Nat.le_refl _)] at hnew
  cases hnew

/-- **Submission**: the task is there before its job. -/
theorem submit_failsClean_iff (ownerId : UserId) (dto : CreateTaskDto) :
    FailsClean (TasksService.submit env ownerId dto) h faults ↔
      SubmitReaches h ownerId dto faults := by
  unfold SubmitReaches TasksService.submit
  rcases @runWith_findOneForOwner h faults ownerId dto.serverId with
    ⟨⟨answer, hrun⟩, howned, hread⟩ | ⟨⟨error, hrun⟩, hnot⟩
  · rw [failsClean_bind_iff hrun (.refl h)]
    obtain ⟨server, hserver, -⟩ := id howned
    cases hcreate : faults 1 with
    | some error =>
        refine iff_of_true (.bind_error (Proc.runWith_atomically_fault _ hcreate)) ?_
        intro _ _ hnone
        cases hnone
    | none =>
        obtain ⟨task, hcreated⟩ := @runWith_taskCreate env h faults.rest _ _ hserver hcreate
          dto.workerType dto.input
        obtain ⟨hsame, hreaches⟩ := @runWith_queue
          { h with tasks := h.tasks.insert task, reads := h.reads + 1 } faults.rest.rest _
          h.tasks.next (h.tasks.next, task)
        rw [failsClean_write_iff hcreated fun error _ => ?_]
        · exact hreaches.trans ⟨fun hboth _ _ _ => hboth, fun hboth => hboth howned hread rfl⟩
        · refine @SameRows.no_task h _ task ?_
          exact (hsame.tasks _).trans (if_pos rfl)
  · exact iff_of_true (.bind_error hrun) fun howned hread => absurd ⟨howned, hread⟩ hnot

/-! ## `decide` -/

/-- The status of a task is written. -/
theorem runWith_taskUpdate_status {taskId : TaskId} {task : Task}
    (htask : h.tasks taskId = some task) (hfault : faults 0 = none) (status : TaskStatus) :
    ∃ updated h', (Prisma.taskUpdate env taskId fun row => { row with status }).runWith faults h =
      (.ok updated, h', faults.rest) ∧ h'.approvals = h.approvals ∧
      h'.pushTokens = h.pushTokens := by
  unfold Prisma.taskUpdate
  rw [Proc.runWith_atomically_ok _ hfault, htask]
  dsimp only
  rw [if_neg fun hmoved => hmoved.1 rfl]
  exact ⟨_, _, rfl, rfl, rfl⟩

/-- An approval is updated if the await does not fail. -/
theorem runWith_approvalUpdate {approvalId : ApprovalId} {approval : Approval}
    (hrow : h.approvals approvalId = some approval) (hfault : faults 0 = none)
    (data : Approval → Approval) :
    ∃ h', (Prisma.approvalUpdate approvalId data).runWith faults h =
        (.ok (data approval), h', faults.rest) ∧ h'.tasks = h.tasks ∧
      h'.approvals approvalId = some (data approval) := by
  unfold Prisma.approvalUpdate
  rw [Proc.runWith_atomically_ok _ hfault, hrow]
  refine ⟨_, rfl, rfl, ?_⟩
  rw [Table.modify_apply, if_pos rfl, hrow]
  rfl

/-- The clock cannot fail, -/
theorem runWith_now : (now env).runWith faults h =
    (.ok (env.clock h.reads), { h with reads := h.reads + 1 }, faults) := rfl

/-- What is caught does not fail. -/
theorem runWith_caught (p : HubM Unit) :
    ((tryCatch p fun _ => pure ()).runWith faults h).1 = .ok () := by
  rw [Proc.runWith_tryCatch]
  split
  · rfl
  · rfl

/-- A row that was changed is not the same. -/
theorem SameRows.no_approval {h' : Hub} {id : ApprovalId}
    (hchanged : h'.approvals id ≠ h.approvals id) : ¬SameRows h h' :=
  fun hsame => hchanged (hsame.approvals id)

/-- Behind the update of the approval only the update of the task can fail. -/
theorem runWith_decided {α : Type} {taskId : TaskId} {task : Task}
    (htask : h.tasks taskId = some task) (status : TaskStatus) (dispatch : HubM Unit)
    (ownerId : UserId) (message : AppOutbound) (value : α) :
    let rest : HubM α := do
      let _ ← Prisma.taskUpdate env taskId fun row => { row with status }
      tryCatch dispatch (fun _ => pure ())
      RealtimeService.notifyUser ownerId message
      return value
    ((∀ error, (rest.runWith faults h).1 ≠ .error error) ↔ faults 0 = none) ∧
      ∀ error, (rest.runWith faults h).1 = .error error → (rest.runWith faults h).2.1 = h := by
  intro rest
  cases hfault : faults 0 with
  | some error =>
      have hrun : rest.runWith faults h = (.error error, h, faults.rest) :=
        Proc.runWith_bind_error (Proc.runWith_atomically_fault _ hfault)
      rw [hrun]
      exact ⟨iff_of_false (fun hnot => hnot error rfl) nofun, fun _ _ => rfl⟩
  | none =>
      obtain ⟨updated, h', hrun, -⟩ :=
        @runWith_taskUpdate_status env h faults _ _ htask hfault status
      have hcaught := @runWith_caught h' faults.rest dispatch
      have hok : (rest.runWith faults h).1 = .ok value := by
        show Prod.fst (Proc.runWith (_ >>= _) faults h) = _
        rw [Proc.runWith_bind_ok hrun, Proc.runWith_bind]
        generalize (tryCatch dispatch fun _ => pure () : HubM Unit).runWith faults.rest h' = caught
          at hcaught
        obtain ⟨outcome, h'', faults'⟩ := caught
        obtain rfl : outcome = .ok () := hcaught
        rfl
      rw [hok]
      exact ⟨iff_of_true (fun _ => nofun) rfl, fun _ herror => by cases herror⟩

/-- **Decision**: the approval is decided before its task is updated. -/
theorem decide_failsClean_iff (ownerId : UserId) (approvalId : ApprovalId)
    (dto : DecideApprovalDto) :
    FailsClean (ApprovalsService.decide env ownerId approvalId dto) h faults ↔
      DecideReaches h ownerId approvalId faults := by
  unfold DecideReaches ApprovalsService.decide
  cases hread : faults 0 with
  | some error =>
      refine iff_of_true (.bind_error (Proc.runWith_read_fault _ hread)) ?_
      intro _ hnone
      cases hnone
  | none =>
      rw [failsClean_bind_iff (Proc.runWith_read_ok _ hread) (.refl h)]
      cases hrow : ApprovalsService.approvalWithTask h approvalId with
      | none =>
          refine iff_of_true (.of_same rfl) ?_
          rintro ⟨_, _, _, hsome, -⟩
          cases hsome
      | some row =>
          obtain ⟨approval, task, server⟩ := row
          dsimp only
          -- a decision that is refused has written nothing
          by_cases howner : server.ownerId = ownerId
          · rw [if_neg (not_not_intro howner)]
            by_cases hstatus : approval.status = .PENDING
            · rw [if_neg (not_not_intro hstatus),
                failsClean_bind_iff runWith_now ⟨fun _ => rfl, fun _ => rfl⟩]
              obtain ⟨happroval, htask, -⟩ := approvalWithTask_some hrow
              have hdecides : ∃ found found' found'', some (approval, task, server) =
                  some (found, found', found'') ∧ found''.ownerId = ownerId ∧
                    found.status = .PENDING := ⟨_, _, _, rfl, howner, hstatus⟩
              -- the first write is the decision itself
              cases hwrite : faults 1 with
              | some error =>
                  refine iff_of_true (.bind_error (Proc.runWith_atomically_fault _ hwrite)) ?_
                  intro _ _ hnone
                  cases hnone
              | none =>
                  obtain ⟨h', hrun, htasks, hdecided⟩ :=
                    @runWith_approvalUpdate { h with reads := h.reads + 1 } faults.rest _ _
                      happroval hwrite (Approval.decided dto (env.clock h.reads))
                  have htask' : h'.tasks approval.taskId = some task := by rw [htasks, htask]
                  refine (failsClean_write_iff hrun fun error herror => ?_).trans
                    ((runWith_decided htask' _ _ _ _ _).1.trans ?_)
                  · refine @SameRows.no_approval { h with reads := h.reads + 1 } _ approvalId ?_
                    rw [(runWith_decided htask' _ _ _ _ _).2 error herror, hdecided, happroval]
                    -- from there on a failure leaves a decided approval behind
                    intro hsame
                    have hstatus' := congrArg Approval.status (Option.some.inj hsame)
                    rw [hstatus] at hstatus'
                    unfold Approval.decided at hstatus'
                    dsimp only at hstatus'
                    split at hstatus' <;> cases hstatus'
                  · exact ⟨fun hboth _ _ _ => hboth, fun hboth => hboth hdecides rfl rfl⟩
            · rw [if_pos hstatus]
              refine iff_of_true (.of_same rfl) ?_
              rintro ⟨_, _, _, hsome, -, hpending⟩
              cases hsome
              exact absurd hpending hstatus
          · rw [if_pos howner]
            refine iff_of_true (.of_same rfl) ?_
            rintro ⟨_, _, _, hsome, howns, -⟩
            cases hsome
            exact absurd howns howner

/-! ## `handleDaemonApprovalRequest` -/

/-- Tokens are decrypted without an await. -/
theorem runWith_decryptTokens (key : JsString) (rows : List (ℕ × PushToken)) :
    (((NotificationsService.decryptTokens env key rows).runWith faults h).2 = (h, faults)) ∧
      ((∀ error, ((NotificationsService.decryptTokens env key rows).runWith faults h).1 ≠
          .error error) ↔
        ∀ row ∈ rows, (decryptSecret env.crypto row.2.token key).isSome) := by
  induction rows with
  | nil => exact ⟨rfl, iff_of_true (fun _ => nofun) fun _ hnone => by cases hnone⟩
  | cons row rest ih =>
      unfold NotificationsService.decryptTokens
      cases htoken : decryptSecret env.crypto row.2.token key with
      | none =>
          refine ⟨rfl, iff_of_false (fun hnot => hnot _ rfl) fun hall => ?_⟩
          have hrow := hall row List.mem_cons_self
          rw [htoken] at hrow
          cases hrow
      | some token =>
          dsimp only
          rw [Proc.runWith_bind]
          generalize (NotificationsService.decryptTokens env key rest).runWith faults h = ran
            at ih
          obtain ⟨outcome, h', faults'⟩ := ran
          obtain ⟨hsame, hreaches⟩ := ih
          cases hsame
          have hall : (∀ row' ∈ row :: rest,
              (decryptSecret env.crypto row'.2.token key).isSome) ↔
                ∀ row' ∈ rest, (decryptSecret env.crypto row'.2.token key).isSome := by
            simp [htoken]
          rw [hall, ← hreaches]
          cases outcome with
          | ok tokens =>
              exact ⟨rfl, iff_of_true (fun _ herror => by cases herror)
                fun _ herror => by cases herror⟩
          | error error =>
              exact ⟨rfl, iff_of_false (fun hnot => hnot _ rfl) fun hnot => hnot _ rfl⟩

/-- The tokens of a user are decrypted row by row. -/
theorem tokensOf_decrypt_iff {userId : UserId} {key : JsString} :
    (∀ row ∈ env.rowOrder (h.pushTokens.toList.filter fun row => row.2.userId == userId),
        (decryptSecret env.crypto row.2.token key).isSome) ↔
      ∀ id row, h.pushTokens id = some row → row.userId = userId →
        (decryptSecret env.crypto row.token key).isSome := by
  constructor
  · intro hall id row hrow huser
    refine hall (id, row) ((env.rowOrder_perm _).mem_iff.mpr ?_)
    exact List.mem_filter.mpr ⟨Table.mem_toList.mpr hrow, beq_iff_eq.mpr huser⟩
  · rintro hall ⟨id, row⟩ hrow
    obtain ⟨hmem, huser⟩ := List.mem_filter.mp ((env.rowOrder_perm _).mem_iff.mp hrow)
    exact hall id row (Table.mem_toList.mp hmem) (beq_iff_eq.mp huser)

/-- **A push writes no row, and fails exactly if it does not reach Firebase.** -/
theorem runWith_sendPush (userId : UserId) (title body : JsString) :
    SameRows h ((NotificationsService.sendPush env userId title body).runWith faults h).2.1 ∧
      ((∀ error, ((NotificationsService.sendPush env userId title body).runWith faults h).1 ≠
          .error error) ↔ PushReaches env h userId (faults 0)) := by
  unfold PushReaches NotificationsService.sendPush NotificationsService.pushTokenEncKey
  cases hready : env.fcmReady with
  | false => exact ⟨.refl h, iff_of_true (fun _ => nofun) (.inl rfl)⟩
  | true =>
      rw [if_neg (by decide)]
      cases hkey : env.processEnv (js "PUSH_TOKEN_ENC_KEY") with
      | none =>
          refine ⟨.refl h, iff_of_false (fun hnot => hnot _ rfl) ?_⟩
          rintro (hnot | ⟨key, hsome, -⟩)
          · cases hnot
          · cases hsome
      | some key =>
          dsimp only
          rw [Proc.runWith_bind_ok (Proc.runWith_pure key)]
          -- the one await is the read of the tokens
          cases hfault : faults 0 with
          | some error =>
              rw [Proc.runWith_bind_error (Proc.runWith_read_fault _ hfault)]
              refine ⟨.refl h, iff_of_false (fun hnot => hnot _ rfl) ?_⟩
              rintro (hnot | ⟨key, -, hnone, -⟩)
              · cases hnot
              · cases hnone
          | none =>
              rw [Proc.runWith_bind_ok (Proc.runWith_read_ok _ hfault)]
              have hrows := @tokensOf_decrypt_iff env h userId key
              generalize env.rowOrder (h.pushTokens.toList.filter fun row =>
                row.2.userId == userId) = rows at hrows
              have hright : (true = false ∨ ∃ key', some key = some key' ∧
                  (none : Option HubError) = none ∧ ∀ id row, h.pushTokens id = some row →
                    row.userId = userId → (decryptSecret env.crypto row.token key').isSome) ↔
                  ∀ row ∈ rows, (decryptSecret env.crypto row.2.token key).isSome := by
                rw [hrows]
                simp
              rw [hright]
              by_cases hempty : rows.isEmpty = true
              · rw [if_pos hempty]
                refine ⟨.refl h, iff_of_true (fun _ => nofun) fun row hrow => ?_⟩
                rw [List.isEmpty_iff.mp hempty] at hrow
                cases hrow
              · rw [if_neg hempty]
                obtain ⟨hstate, hreaches⟩ := @runWith_decryptTokens env h faults.rest key rows
                rw [Proc.runWith_bind, ← hreaches]
                generalize (NotificationsService.decryptTokens env key rows).runWith faults.rest h =
                  ran at hstate
                obtain ⟨outcome, h', faults'⟩ := ran
                cases hstate
                cases outcome with
                | ok tokens =>
                    exact ⟨⟨fun _ => rfl, fun _ => rfl⟩,
                      iff_of_true (fun _ => nofun) fun _ => nofun⟩
                | error error =>
                    exact ⟨.refl h,
                      iff_of_false (fun hnot => hnot _ rfl) fun hnot => hnot _ rfl⟩

/-- Behind the new approval the update of the task and the push can fail. -/
theorem runWith_requested {taskId : TaskId} {task : Task} (htask : h.tasks taskId = some task)
    (userId : UserId) (message : AppOutbound) (title body : JsString) :
    let rest : HubM Unit := do
      let _ ← Prisma.taskUpdate env taskId fun row => { row with status := .AWAITING_APPROVAL }
      RealtimeService.notifyUser userId message
      NotificationsService.sendPush env userId title body
    ((∀ error, (rest.runWith faults h).1 ≠ .error error) ↔
        faults 0 = none ∧ PushReaches env h userId (faults 1)) ∧
      ∀ id, (rest.runWith faults h).2.1.approvals id = h.approvals id := by
  intro rest
  cases hfault : faults 0 with
  | some error =>
      have hrun : rest.runWith faults h = (.error error, h, faults.rest) :=
        Proc.runWith_bind_error (Proc.runWith_atomically_fault _ hfault)
      rw [hrun]
      exact ⟨iff_of_false (fun hnot => hnot error rfl) (fun hboth => by cases hboth.1),
        fun _ => rfl⟩
  | none =>
      obtain ⟨updated, h', hrun, happrovals, htokens⟩ :=
        @runWith_taskUpdate_status env h faults _ _ htask hfault .AWAITING_APPROVAL
      have hpush := @runWith_sendPush env { h' with notified := h'.notified ++ [(userId, message)] }
        faults.rest userId title body
      have hsame : rest.runWith faults h =
          (NotificationsService.sendPush env userId title body).runWith faults.rest
            { h' with notified := h'.notified ++ [(userId, message)] } :=
        Proc.runWith_bind_ok hrun
      rw [hsame]
      refine ⟨hpush.2.trans ⟨fun hreaches => ⟨rfl, ?_⟩, fun hboth => ?_⟩, fun id => ?_⟩
      · unfold PushReaches at hreaches ⊢
        rwa [← htokens]
      · unfold PushReaches at hboth ⊢
        rw [← htokens] at hboth
        exact hboth.2
      · exact (hpush.1.approvals id).trans (congrArg (fun table => table id) happrovals)

/-- An approval is asked for once. -/
theorem runWith_approvalCreate {taskId : TaskId} {task : Task}
    (htask : h.tasks taskId = some task) (hfault : faults 0 = none) (reason : Option JsString) :
    ((∃ id approval, h.approvals id = some approval ∧ approval.taskId = taskId) ∧
      ∃ error, (Prisma.approvalCreate env taskId reason).runWith faults h =
        (.error error, h, faults.rest)) ∨
      (∀ id approval, h.approvals id = some approval → approval.taskId ≠ taskId) ∧
        ∃ approval h', (Prisma.approvalCreate env taskId reason).runWith faults h =
          (.ok (h.approvals.next, approval), h', faults.rest) ∧ h'.tasks = h.tasks ∧
            h'.pushTokens = h.pushTokens ∧ h'.approvals h.approvals.next = some approval := by
  unfold Prisma.approvalCreate
  rw [Proc.runWith_atomically_ok _ hfault, htask]
  dsimp only
  by_cases hany : (h.approvals.toList.any fun row => row.2.taskId == taskId) = true
  · rw [if_pos hany]
    obtain ⟨⟨id, approval⟩, hmem, hof⟩ := List.any_eq_true.mp hany
    exact .inl ⟨⟨id, approval, Table.mem_toList.mp hmem, beq_iff_eq.mp hof⟩, _, rfl⟩
  · rw [if_neg hany]
    refine .inr ⟨fun id approval hrow hof => hany ?_, _, _, rfl, rfl, rfl, if_pos rfl⟩
    exact List.any_eq_true.mpr ⟨(id, approval), Table.mem_toList.mpr hrow, beq_iff_eq.mpr hof⟩

/-- nor can an id that is one. -/
theorem runWith_key (taskId : TaskId) :
    (Prisma.key (.id taskId)).runWith faults h = (.ok taskId, h, faults) := rfl

/-- A query that does not fail finds what is stored. -/
theorem runWith_taskFind (taskId : TaskId) (hfault : faults 0 = none) :
    (Prisma.taskFindUniqueWithServer taskId).runWith faults h =
      (.ok (h.taskWithServer taskId), h, faults.rest) :=
  Proc.runWith_read_ok _ hfault

/-- **Request**: the approval is stored before its task waits and the owner is told. -/
theorem request_failsClean_iff (payload : DaemonApprovalRequestPayload) :
    FailsClean (ApprovalsService.handleDaemonApprovalRequest env payload) h faults ↔
      RequestReaches env h payload faults := by
  unfold RequestReaches ApprovalsService.handleDaemonApprovalRequest
  cases hkey : payload.taskId with
  | filter selects => exact iff_of_true (.of_same rfl) fun _ _ _ hid => by cases hid
  | invalid => exact iff_of_true (.of_same rfl) fun _ _ _ hid => by cases hid
  | id taskId =>
      cases hread : faults 0 with
      | some error =>
          refine iff_of_true ((failsClean_bind_iff (runWith_key taskId) (.refl h)).mpr
            (.bind_error (Proc.runWith_read_fault _ hread))) ?_
          intro _ _ _ _ _ _ hnone
          cases hnone
      | none =>
          rw [failsClean_bind_iff (runWith_key taskId) (.refl h),
            failsClean_bind_iff (runWith_taskFind taskId hread) (.refl h)]
          cases hfound : h.taskWithServer taskId with
          | none =>
              refine iff_of_true (.of_same rfl) ?_
              intro _ _ _ hid hsome
              cases hid
              rw [hfound] at hsome
              cases hsome
          | some row =>
              obtain ⟨task, server⟩ := row
              obtain ⟨htask, -⟩ := taskWithServer_some hfound
              dsimp only
              -- the first write is the new approval
              cases hcreate : faults 1 with
              | some error =>
                  refine iff_of_true (.bind_error (Proc.runWith_atomically_fault _ hcreate)) ?_
                  intro _ _ _ _ _ _ _ hnone
                  cases hnone
              | none =>
                  rcases @runWith_approvalCreate env h faults.rest _ _ htask hcreate
                      payload.reason with
                    ⟨⟨id, approval, hrow, hof⟩, error, hrun⟩ |
                      ⟨hnew, approval, h', hrun, htasks, htokens, hcreated⟩
                  · refine iff_of_true (.bind_error hrun) ?_
                    intro _ _ _ hid _ hnot
                    cases hid
                    exact absurd hof (hnot id approval hrow)
                  · have htask' : h'.tasks taskId = some task := by rw [htasks, htask]
                    have hsent := @runWith_requested env h' faults.rest.rest _ _ htask'
                      server.ownerId (.APPROVAL_PENDING h.approvals.next approval) (js "승인 필요")
                      (payload.reason.getD [])
                    refine (failsClean_write_iff hrun fun error _ => ?_).trans
                      (hsent.1.trans ⟨fun hboth => ?_, fun hall => ?_⟩)
                    · -- from there on a failure leaves the approval behind
                      refine @SameRows.no_approval h _ h.approvals.next ?_
                      rw [hsent.2, hcreated, h.approvals.fresh _ (Nat.le_refl _)]
                      exact nofun
                    · intro _ _ _ hid hsome _ _ _
                      cases hid
                      rw [hfound] at hsome
                      cases hsome
                      refine ⟨hboth.1, ?_⟩
                      have hpush := hboth.2
                      unfold PushReaches at hpush ⊢
                      rwa [htokens] at hpush
                    · obtain ⟨hupdate, hpush⟩ := hall taskId task server rfl hfound hnew rfl rfl
                      refine ⟨hupdate, ?_⟩
                      unfold PushReaches at hpush ⊢
                      rwa [htokens]

end Operations

/-- **When failed operations leave no half-written state.** -/
theorem failed_operations_iff (env : Env) (h : Hub) (faults : Faults HubError) :
    (∀ ownerId dto, FailsClean (TasksService.submit env ownerId dto) h faults ↔
      SubmitReaches h ownerId dto faults) ∧
    (∀ ownerId approvalId dto,
      FailsClean (ApprovalsService.decide env ownerId approvalId dto) h faults ↔
        DecideReaches h ownerId approvalId faults) ∧
    ∀ payload, FailsClean (ApprovalsService.handleDaemonApprovalRequest env payload) h faults ↔
      RequestReaches env h payload faults :=
  ⟨submit_failsClean_iff, decide_failsClean_iff, request_failsClean_iff⟩

/-! ## A failing queue -/

/-- The third await fails. -/
def thirdFails : Faults HubError := fun n => if n = 2 then some ⟨.error, js "Connection is closed."⟩
  else none

/-- A submission whose job cannot be added has left a task that nobody runs. -/
theorem submit_queue_fails :
    let run := (TasksService.submit Env.sample 0 ⟨0, .CODEX, sampleInput⟩).runWith thirdFails
      Hub.sample
    (run.2.1.tasks 0).map (·.status) = some .QUEUED ∧ run.2.1.jobs.next = 0 ∧
      ¬FailsClean (TasksService.submit Env.sample 0 ⟨0, .CODEX, sampleInput⟩) Hub.sample
        thirdFails := by
  refine ⟨by decide, by decide, fun hclean => ?_⟩
  have hreaches := (submit_failsClean_iff 0 ⟨0, .CODEX, sampleInput⟩).mp hclean
  have hqueue := (hreaches ⟨_, rfl, rfl⟩ rfl rfl).1
  cases hqueue

end CodeCaller
