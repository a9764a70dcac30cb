import CodeCaller.Hub.Finality

/-!
# Approvals and the tasks that wait for them

The status `AWAITING_APPROVAL` of a task and its pending approval are written one after the other,
by two handlers, in two tables.  `Agree` says that they go together.  The services of approvals
keep it; a status update, a result and a cancellation write the status without a look at the
approval, and `InStep` says when that does no harm.

### Main results

* `approval_registered_iff`: a request for approval is registered exactly when its task never had
  an approval.  `Approval.taskId` is unique, so a decided approval stands in the way of the next
  prompt, and the runner that asked waits for an answer nobody can give.
* `after_agree_iff`, `approvals_agree_iff`: approvals and tasks agree all along a run exactly when
  each call is in step.
* `approvals_not_agree`: a cancelled task with a pending approval, and what a decision then does.

The first two are about the same tables and independent of each other: the first holds in every
reachable state, agreement or not.
-/

namespace CodeCaller

open Async

variable {env : Env} {call : HubCall} {r r' : Rows} {h : Hub}

/-! ## Requests -/

/-- A pending approval of a task. -/
def Rows.Asked (r : Rows) (taskId : TaskId) : Prop :=
  ∃ id approval, r.approvals id = some approval ∧ approval.taskId = taskId ∧
    approval.status = .PENDING

/-- **A registered request**: the task waits, and its owner can decide a pending
approval of it, whichever way. -/
def Hub.Registered (env : Env) (h : Hub) (taskId : TaskId) : Prop :=
  (∃ task, h.tasks taskId = some task ∧ task.status = .AWAITING_APPROVAL) ∧
    ∃ approvalId approval ownerId, h.approvals approvalId = some approval ∧
      approval.taskId = taskId ∧ approval.status = .PENDING ∧ h.ownerOf taskId = some ownerId ∧
      ∀ dto, ∃ decided, h.answer env (.decideApproval ownerId approvalId dto) =
          .ok (.approval approvalId decided) ∧
        decided.status = if dto.approve then .APPROVED else .REJECTED

/-- The owner of a task can decide its pending approval. -/
theorem decide_answer {ownerId : UserId} {approvalId : ApprovalId} {dto : DecideApprovalDto}
    {approval : Approval} (happroval : h.approvals approvalId = some approval)
    (hpending : approval.status = .PENDING) (howner : h.ownerOf approval.taskId = some ownerId) :
    ∃ decided, h.answer env (.decideApproval ownerId approvalId dto) =
        .ok (.approval approvalId decided) ∧
      decided.status = if dto.approve then .APPROVED else .REJECTED := by
  obtain ⟨task, -, htask, -⟩ := ownerOf_some (r := h.rows) howner
  obtain ⟨h', hrun, -⟩ := @decide_run env h ownerId approvalId dto approval task happroval hpending
    htask howner
  refine ⟨approval.decided dto (env.clock h.reads), ?_, rfl⟩
  change ((ApprovalsService.decide env ownerId approvalId dto >>= fun decided =>
    pure (Response.approval decided.1 decided.2)).run h).1 = _
  rw [Proc.run_bind_of_ok hrun]
  rfl

/-- **A request for approval is registered exactly when the task never had an
approval**, decided ones included. -/
theorem approval_registered_iff {allowed : HubCall → Prop}
    (hreach : (hubMachine env allowed).Reachable h) {socketId : ℕ}
    {payload : DaemonApprovalRequestPayload} {taskId : TaskId} {task : Task}
    (hid : payload.taskId = .id taskId) (htask : h.tasks taskId = some task)
    (hopen : ¬h.rows.Asked taskId) :
    (h.after env (.message socketId (.APPROVAL_REQUEST payload))).Registered env taskId ↔
      ∀ id approval, h.approvals id = some approval → approval.taskId ≠ taskId := by
  have hs := reachable_sound hreach
  have hrows := message_rows env h socketId (.APPROVAL_REQUEST payload)
  change _ = ((ApprovalsService.handleDaemonApprovalRequest env payload).run h).2.rows at hrows
  constructor
  · rintro ⟨-, approvalId, approval, -, happroval, hof, hpending, -⟩ id old hold hold'
    rw [approvalRequest_refused hs hid htask hold hold'] at hrows
    have happrovals := congrArg (fun r => r.approvals approvalId) hrows
    exact hopen ⟨approvalId, approval, happrovals.symm.trans happroval, hof, hpending⟩
  · intro hnone
    rw [approvalRequest_run hs hid htask hnone] at hrows
    obtain ⟨h', hh'⟩ : ∃ h', h' = h.after env (.message socketId (.APPROVAL_REQUEST payload)) :=
      ⟨_, rfl⟩
    rw [← hh'] at hrows ⊢
    have htask' : h'.tasks taskId = some (task.held (env.clock (h.reads + 1))) := by
      rw [show h'.tasks = _ from congrArg Rows.tasks hrows, Table.modify_apply, if_pos rfl, htask]
      rfl
    have happroval' : h'.approvals h.approvals.next =
        some (.asked taskId payload.reason (env.clock h.reads)) := by
      rw [show h'.approvals = _ from congrArg Rows.approvals hrows, Table.insert_apply, if_pos rfl]
    obtain ⟨home, hhome⟩ := hs.task_server htask
    have howner' : h'.ownerOf taskId = some home.ownerId := by
      have hservers : h'.rows.servers = h.servers := by
        rw [hrows]
        rfl
      refine ownerOf_of_rows (r := h'.rows) htask' ?_
      rw [hservers]
      exact hhome
    exact ⟨⟨_, htask', rfl⟩, _, _, home.ownerId, happroval', rfl, rfl, howner',
      fun dto => decide_answer happroval' rfl howner'⟩

/-- The first prompt of a task. -/
theorem approval_registered_first :
    ((hubMachine Env.sample HubCall.Typed).exec Hub.sample (sampleConnects ++
      [.submit 0 ⟨0, .CODEX, sampleInput⟩, .dispatch 0] ++
      [.message 0 (.APPROVAL_REQUEST ⟨.id 0, some (js "rm")⟩)])).Registered Env.sample 0 := by
  obtain ⟨before, hbefore⟩ : ∃ before, before = (hubMachine Env.sample HubCall.Typed).exec
    Hub.sample (sampleConnects ++ [.submit 0 ⟨0, .CODEX, sampleInput⟩, .dispatch 0]) := ⟨_, rfl⟩
  have hreach : (hubMachine Env.sample HubCall.Typed).Reachable before := by
    rw [hbefore]
    exact (Machine.Reachable.of_start Hub.sample_fresh).exec (by decide)
  have hstored : (before.tasks 0).isSome = true := by
    rw [hbefore]
    decide
  have hnone : ∀ id approval, before.approvals id = some approval → approval.taskId ≠ 0 := by
    have hempty : before.approvals.next = 0 := by
      rw [hbefore]
      decide
    intro id approval hrow
    exact absurd (Table.lt_next hrow) (by omega)
  obtain ⟨task, htask⟩ := Option.isSome_iff_exists.mp hstored
  rw [Machine.exec_append, ← hbefore]
  refine (approval_registered_iff hreach rfl htask ?_).mpr hnone
  rintro ⟨id, approval, hrow, hof, -⟩
  exact hnone id approval hrow hof

/-- **A second prompt is lost**: the runner that was released asks again, and the
approval that was decided stands in the way. -/
theorem approval_not_registered :
    let calls := sampleConnects ++ [.submit 0 ⟨0, .CODEX, sampleInput⟩, .dispatch 0,
      .message 0 (.TASK_STATUS_UPDATE ⟨.id 0, .status .RUNNING⟩),
      .message 0 (.APPROVAL_REQUEST ⟨.id 0, some (js "rm")⟩), .decideApproval 0 0 ⟨true, none⟩]
    (hubMachine Env.sample HubCall.Typed).Reachable
        ((hubMachine Env.sample HubCall.Typed).exec Hub.sample calls) ∧
      (((hubMachine Env.sample HubCall.Typed).exec Hub.sample calls).tasks 0).map (·.status) =
        some .RUNNING ∧
      ¬((hubMachine Env.sample HubCall.Typed).exec Hub.sample calls).rows.Asked 0 ∧
      ¬(((hubMachine Env.sample HubCall.Typed).exec Hub.sample calls).after Env.sample
        (.message 0 (.APPROVAL_REQUEST ⟨.id 0, some (js "rm")⟩))).Registered Env.sample 0 := by
  intro calls
  refine ⟨(Machine.Reachable.of_start Hub.sample_fresh).exec (by decide),
    by decide, ?_, ?_⟩
  · rintro ⟨id, approval, hrow, -, hpending⟩
    have hdecided : ∀ row ∈ ((hubMachine Env.sample HubCall.Typed).exec Hub.sample
        calls).approvals.toList, row.2.status ≠ .PENDING := by decide
    exact hdecided (id, approval) (Table.mem_toList.mpr hrow) hpending
  · rintro ⟨⟨task, htask, hwaiting⟩, -⟩
    have hstatus : ((((hubMachine Env.sample HubCall.Typed).exec Hub.sample calls).after Env.sample
        (.message 0 (.APPROVAL_REQUEST ⟨.id 0, some (js "rm")⟩))).tasks 0).map (·.status) =
          some .RUNNING := by decide
    rw [htask, Option.map_some, hwaiting] at hstatus
    cases hstatus

/-! ## Agreement -/

/-- **A task waits for approval exactly when it has a pending one.** -/
def Rows.Agree (r : Rows) : Prop :=
  ∀ ⦃taskId task⦄, r.tasks taskId = some task →
    (task.status = .AWAITING_APPROVAL ↔ r.Asked taskId)

/-- The tasks that wait are the same, and so are the approvals. -/
theorem Rows.Agree.of_tasks (ha : r.Agree) (happrovals : r'.approvals = r.approvals)
    (htasks : ∀ ⦃taskId task'⦄, r'.tasks taskId = some task' → ∃ task, r.tasks taskId = some task ∧
      (task'.status = .AWAITING_APPROVAL ↔ task.status = .AWAITING_APPROVAL)) : r'.Agree := by
  intro taskId task' htask'
  obtain ⟨task, htask, hsame⟩ := htasks htask'
  rw [hsame, ha htask, Rows.Asked, Rows.Asked, happrovals]

/-- A change of one task that neither starts nor ends its waiting. -/
theorem Rows.Agree.of_modify (ha : r.Agree) {taskId : TaskId} {f : Task → Task}
    (happrovals : r'.approvals = r.approvals) (htasks : r'.tasks = r.tasks.modify taskId f)
    (hstatus : ∀ task, r.tasks taskId = some task →
      ((f task).status = .AWAITING_APPROVAL ↔ task.status = .AWAITING_APPROVAL)) : r'.Agree := by
  refine ha.of_tasks happrovals fun other task' htask' => ?_
  rw [htasks, Table.modify_apply] at htask'
  split at htask'
  · next heq =>
    obtain ⟨task, htask, rfl⟩ := Option.map_eq_some_iff.mp htask'
    exact ⟨task, heq ▸ htask, hstatus task htask⟩
  · exact ⟨task', htask', Iff.rfl⟩

/-- **Every effect of the calls that write no status keeps the agreement.** -/
theorem Effect.agree (h : Effect env call r r') (hwrites : ¬call.Writes) (hs : r.Sound)
    (ha : r.Agree) : r'.Agree := by
  cases h with
  | submitted =>
      intro taskId task' htask'
      rw [Table.insert_apply] at htask'
      split at htask'
      · next heq =>
        cases htask'
        -- no approval refers to a task that was not there
        refine iff_of_false nofun ?_
        rintro ⟨id, approval, happroval, hof, -⟩
        refine hs.approval_task happroval ?_
        rw [hof, heq]
        exact r.tasks.fresh _ le_rfl
      · exact ha htask'
  | relabelled _ _ _ hstatus =>
      refine ha.of_modify rfl rfl fun task _ => ?_
      rcases hstatus task with hkept | ⟨hcall, -⟩
      · rw [hkept]
      · exact absurd hcall hwrites
  | failedOver _ _ _ _ hcall =>
      rw [hcall] at hwrites
      exact absurd trivial hwrites
  | assigned _ _ _ _ _ _ _ hcandidate =>
      refine ha.of_modify rfl rfl fun task htask => ?_
      obtain ⟨queued, -, -, hqueued, hstatus, -⟩ := hcandidate.queued
      rw [htask] at hqueued
      cases hqueued
      rw [hstatus]
      exact iff_of_false nofun nofun
  | expired _ _ _ _ htask hrunning =>
      refine ha.of_modify rfl rfl fun task htask' => ?_
      rw [htask] at htask'
      cases htask'
      rw [hrunning]
      exact iff_of_false nofun nofun
  | requeued _ _ _ _ htask hrunning =>
      refine ha.of_modify rfl rfl fun task htask' => ?_
      rw [htask] at htask'
      cases htask'
      rw [hrunning]
      exact iff_of_false nofun nofun
  | approvalCreated _ hcall =>
      rw [hcall] at hwrites
      exact absurd trivial hwrites
  | approvalDecided _ hcall =>
      rw [hcall] at hwrites
      exact absurd trivial hwrites
  | serverDeleted =>
      intro taskId task htask
      obtain ⟨hrow, hstays⟩ := Option.filter_eq_some_iff.mp htask
      rw [ha hrow]
      -- the approvals of a task that stays are kept
      refine exists_congr fun id => exists_congr fun approval => ⟨?_, ?_⟩
      · rintro ⟨happroval, rfl, hpending⟩
        refine ⟨Option.filter_eq_some_iff.mpr ⟨happroval, ?_⟩, rfl, hpending⟩
        change (r.tasks approval.taskId).any _ = true
        rw [hrow]
        exact hstays
      · rintro ⟨happroval, hof, hpending⟩
        exact ⟨(Option.filter_eq_some_iff.mp happroval).1, hof, hpending⟩
  | _ => exact ha

/-! ## The calls that write a status -/

/-- The calls that write a status to a task and do not look at its approval. -/
def HubCall.oblivious : HubCall → Bool
  | message _ (.TASK_STATUS_UPDATE _) | message _ (.TASK_RESULT _) | cancel _ _ => true
  | _ => false

/-- **A call in step with the approvals**: if it writes a status without a look at
the approval, a task that waits goes on waiting and no other one starts to. -/
def HubCall.InStep (h : Hub) (call : HubCall) : Prop :=
  call.oblivious = true → ∀ taskId task status, h.tasks taskId = some task →
    call.WritesStatus h taskId status →
      (status = .AWAITING_APPROVAL ↔ task.status = .AWAITING_APPROVAL)

/-- A call that does not look at approvals does not write them either. -/
theorem Effect.approvals_kept (h : Effect env call r r') (hcall : call.oblivious = true) :
    r'.approvals = r.approvals := by
  have hnot : ∀ {other : HubCall}, call = other → other.oblivious = false →
      r'.approvals = r.approvals := fun {other} heq hother => by
    rw [heq, hother] at hcall
    cases hcall
  cases h with
  | approvalCreated _ heq => exact hnot heq rfl
  | approvalDecided _ heq => exact hnot heq rfl
  | serverDeleted heq => exact hnot heq rfl
  | _ => rfl

theorem after_approvals_kept (hcall : call.oblivious = true) :
    (h.after env call).approvals = h.approvals := by
  have hchain := after_effects env h call
  change (h.after env call).rows.approvals = h.rows.approvals
  generalize (h.after env call).rows = r at hchain ⊢
  induction hchain with
  | refl => rfl
  | tail _ hstep ih => exact (hstep.approvals_kept hcall).trans ih

/-- Status updates, results and cancellations. -/
theorem oblivious_agree_iff (hs : h.rows.Sound) (hd : h.rows.Disciplined) (ha : h.rows.Agree)
    (htyped : call.Typed) (hcall : call.oblivious = true) (hwrites : call.Writes) :
    (h.after env call).rows.Agree ↔ call.InStep h := by
  have happrovals : (h.after env call).rows.approvals = h.rows.approvals :=
    after_approvals_kept hcall
  have hasked : ∀ taskId, (h.after env call).rows.Asked taskId ↔ h.rows.Asked taskId := by
    intro taskId
    rw [Rows.Asked, Rows.Asked, happrovals]
  rcases @writes_spec env call h hs hd htyped hwrites with
    ⟨hsame, hnone⟩ | ⟨written, status, ⟨f, hmodify, hstatus⟩, hiff⟩
  · refine iff_of_true (ha.of_tasks happrovals fun taskId task' htask' => ?_) ?_
    · refine ⟨task', ?_, Iff.rfl⟩
      rw [← htask']
      exact congrArg (fun tasks : Table Task => tasks taskId) hsame.symm
    · intro _ taskId task status htask hw
      exact absurd hw (hnone taskId status (by rw [htask]; exact nofun))
  · constructor
    · intro hagree _ taskId task status' htask hw
      obtain ⟨rfl, rfl⟩ := (hiff taskId status' (by rw [htask]; exact nofun)).mp hw
      have htask' : (h.after env call).rows.tasks taskId = some (f task) := by
        change (h.after env call).tasks taskId = _
        rw [hmodify, Table.modify_apply, if_pos rfl, htask]
        rfl
      rw [← hstatus task, hagree htask', hasked, ha htask]
    · intro hstep
      refine ha.of_modify happrovals hmodify fun task htask => ?_
      rw [hstatus]
      have hstored : h.tasks written ≠ none := by
        rw [show h.tasks written = some task from htask]
        exact nofun
      exact hstep hcall written task status htask ((hiff written status hstored).mpr ⟨rfl, rfl⟩)

/-- A request for approval is stored with the status it asks for, or not at all. -/
theorem request_agree {socketId : ℕ} {payload : DaemonApprovalRequestPayload} (hs : h.rows.Sound)
    (ha : h.rows.Agree) (htyped : HubCall.Typed (.message socketId (.APPROVAL_REQUEST payload))) :
    (h.after env (.message socketId (.APPROVAL_REQUEST payload))).rows.Agree := by
  obtain ⟨taskId, hid⟩ := htyped.1.exists_id
  have hrows := message_rows env h socketId (.APPROVAL_REQUEST payload)
  change _ = ((ApprovalsService.handleDaemonApprovalRequest env payload).run h).2.rows at hrows
  rw [hrows]
  cases htask : h.tasks taskId with
  | none =>
      rw [approvalRequest_unstored hid htask]
      exact ha
  | some task =>
      by_cases hexists : ∃ id approval, h.approvals id = some approval ∧ approval.taskId = taskId
      · obtain ⟨id, approval, happroval, hof⟩ := hexists
        rw [approvalRequest_refused hs hid htask happroval hof]
        exact ha
      · have hnone : ∀ id approval, h.approvals id = some approval → approval.taskId ≠ taskId :=
          fun id approval happroval hof => hexists ⟨id, approval, happroval, hof⟩
        rw [approvalRequest_run hs hid htask hnone]
        intro other task' htask'
        rw [Table.modify_apply] at htask'
        split at htask'
        · next heq =>
          rw [htask] at htask'
          cases htask'
          exact iff_of_true rfl ⟨h.approvals.next, _, if_pos rfl, heq.symm, rfl⟩
        · next hne =>
          rw [ha htask']
          refine exists_congr fun id => exists_congr fun approval => ?_
          rw [Table.insert_apply]
          split
          · next heq =>
            rw [heq, show h.rows.approvals h.approvals.next = none from
              h.approvals.fresh _ le_rfl]
            refine iff_of_false nofun ?_
            rintro ⟨hsome, hof, -⟩
            cases hsome
            exact hne hof.symm
          · exact Iff.rfl

/-- A decision takes its task out of waiting with its approval. -/
theorem decide_agree {ownerId : UserId} {approvalId : ApprovalId} {dto : DecideApprovalDto}
    (hs : h.rows.Sound) (ha : h.rows.Agree) :
    (h.after env (.decideApproval ownerId approvalId dto)).rows.Agree := by
  have hrows : (h.after env (.decideApproval ownerId approvalId dto)).rows =
      ((ApprovalsService.decide env ownerId approvalId dto).run h).2.rows :=
    Proc.Guarantees.run_rest (fun _ => Proc.guarantees_pure _) Quiet.refl Quiet.trans h
  rw [hrows]
  by_cases hdecide : h.CanDecide ownerId approvalId
  · obtain ⟨approval, happroval, hpending, howner⟩ := hdecide
    obtain ⟨task, -, htask, -⟩ := ownerOf_some (r := h.rows) howner
    obtain ⟨h', hrun, hrows'⟩ := @decide_run env h ownerId approvalId dto approval task happroval
      hpending htask howner
    rw [hrun, hrows']
    intro other task' htask'
    rw [Table.modify_apply] at htask'
    split at htask'
    · next heq =>
      rw [show h.tasks approval.taskId = some task from htask] at htask'
      cases htask'
      refine iff_of_false ?_ ?_
      · change ¬(if dto.approve = true then TaskStatus.RUNNING else .CANCELLED) = _
        split <;> exact nofun
      · rintro ⟨id, row, hrow, hof, hstill⟩
        rw [Table.modify_apply] at hrow
        split at hrow
        · obtain ⟨old, -, rfl⟩ := Option.map_eq_some_iff.mp hrow
          change (if dto.approve = true then ApprovalStatus.APPROVED else .REJECTED) = _ at hstill
          split at hstill <;> cases hstill
        · next hne => exact hne (hs.approval_unique hrow happroval (hof.trans heq))
    · next hne =>
      rw [ha htask']
      refine exists_congr fun id => ?_
      rw [Table.modify_apply]
      split
      · next heq =>
        -- the decided approval is of another task
        have hother : ∀ row, h.rows.approvals id = some row → row.taskId ≠ other :=
          fun row hrow hof => by
            rw [heq, show h.rows.approvals approvalId = some approval from happroval] at hrow
            cases hrow
            exact hne hof.symm
        refine iff_of_false ?_ ?_
        · rintro ⟨row, hrow, hof, -⟩
          exact hother row hrow hof
        · rintro ⟨row, hrow, hof, -⟩
          obtain ⟨old, hold, rfl⟩ := Option.map_eq_some_iff.mp hrow
          exact hother old (heq ▸ hold) hof
      · exact Iff.rfl
  · obtain ⟨error, hrun⟩ := @decide_refused env h ownerId approvalId dto hdecide
    rw [hrun]
    exact ha

/-- **One call keeps approvals and tasks in agreement exactly when it is in
step.** -/
theorem after_agree_iff (hs : h.rows.Sound) (hd : h.rows.Disciplined) (ha : h.rows.Agree)
    (htyped : call.Typed) : (h.after env call).rows.Agree ↔ call.InStep h := by
  by_cases hcall : call.oblivious = true
  · have hwrites : call.Writes := by
      unfold HubCall.oblivious at hcall
      split at hcall <;> trivial
    exact oblivious_agree_iff hs hd ha htyped hcall hwrites
  · refine iff_of_true ?_ fun hoblivious => absurd hoblivious hcall
    by_cases hwrites : call.Writes
    · unfold HubCall.Writes at hwrites
      split at hwrites
      · exact absurd rfl hcall
      · exact absurd rfl hcall
      · exact request_agree hs ha htyped
      · exact decide_agree hs ha
      · exact absurd rfl hcall
      · exact hwrites.elim
    · have hchain := after_effects env h call
      have hall : (h.after env call).rows.Sound ∧ (h.after env call).rows.Agree := by
        generalize (h.after env call).rows = r at hchain ⊢
        induction hchain with
        | refl => exact ⟨hs, ha⟩
        | tail _ hstep ih => exact ⟨hstep.sound ih.1, hstep.agree hwrites ih.1 ih.2⟩
      exact hall.2

/-! ## Runs -/

/-- **Approvals and tasks agree**, and no decision changes a task that does not
wait for it. -/
structure Hub.ApprovalsAgree (env : Env) (h : Hub) : Prop where
  agree : h.rows.Agree
  decides_waiting : ∀ ownerId approvalId dto taskId task, h.tasks taskId = some task →
    (h.after env (.decideApproval ownerId approvalId dto)).tasks taskId ≠ some task →
    task.status = .AWAITING_APPROVAL

/-- In agreement a decision acts on a task that waits. -/
theorem Rows.Agree.approvalsAgree (ha : h.rows.Agree) : h.ApprovalsAgree env where
  agree := ha
  decides_waiting ownerId approvalId dto taskId task htask hchanged := by
    rcases @decide_tasks env h ownerId approvalId dto with
      ⟨hsame, -⟩ | ⟨approval, happroval, hpending, -, f, hmodify, -⟩
    · rw [hsame] at hchanged
      exact absurd htask hchanged
    · by_cases heq : taskId = approval.taskId
      · exact (ha htask).mpr ⟨approvalId, approval, happroval, heq.symm, hpending⟩
      · rw [hmodify, Table.modify_apply, if_neg heq] at hchanged
        exact absurd htask hchanged

/-- At the beginning nobody waits. -/
theorem Hub.Fresh.agree (hfresh : h.Fresh) : h.rows.Agree := by
  intro taskId task htask
  rw [show h.rows.tasks = Table.empty from hfresh.tasks] at htask
  cases htask

/-- **Approvals and tasks agree all along a run exactly when each call of it is in
step.** -/
theorem approvals_agree_iff {first : Hub} {calls : List HubCall} (hstart : first.Fresh)
    (hruns : (hubMachine env HubCall.Typed).Runs first calls) :
    (∀ front back, calls = front ++ back →
      ((hubMachine env HubCall.Typed).exec first front).ApprovalsAgree env) ↔
    ∀ visit ∈ (hubMachine env HubCall.Typed).visits first calls, visit.2.InStep visit.1 := by
  have hreach : (hubMachine env HubCall.Typed).Reachable first := .of_start hstart
  have hagree : (∀ front back, calls = front ++ back →
      ((hubMachine env HubCall.Typed).exec first front).ApprovalsAgree env) ↔
      ∀ front back, calls = front ++ back →
        ((hubMachine env HubCall.Typed).exec first front).rows.Agree :=
    forall₃_congr fun _ _ _ => ⟨fun hall => hall.agree, fun ha => ha.approvalsAgree⟩
  rw [hagree]
  refine Machine.holds_along_iff (P := fun h : Hub => h.rows.Agree)
    (C := fun (h : Hub) (call : HubCall) => call.InStep h) hstart.agree fun visit hvisit ha => ?_
  have hvisited := hreach.visits hruns hvisit
  exact after_agree_iff (reachable_sound hvisited) (reachable_disciplined hvisited) ha
    (hruns visit hvisit).1

/-- A prompt that is answered, and the result after it. -/
theorem approvals_agree_answered :
    let calls := sampleConnects ++ [.submit 0 ⟨0, .CODEX, sampleInput⟩, .dispatch 0,
      .message 0 (.TASK_STATUS_UPDATE ⟨.id 0, .status .RUNNING⟩),
      .message 0 (.APPROVAL_REQUEST ⟨.id 0, some (js "rm")⟩), .decideApproval 0 0 ⟨true, none⟩,
      .message 0 (.TASK_RESULT ⟨.id 0, .status .COMPLETED, none, none⟩)]
    ∀ front back, calls = front ++ back →
      ((hubMachine Env.sample HubCall.Typed).exec Hub.sample front).ApprovalsAgree Env.sample := by
  intro calls
  have hruns : (hubMachine Env.sample HubCall.Typed).Runs Hub.sample calls := by decide
  refine (approvals_agree_iff Hub.sample_fresh hruns).mpr ?_
  intro visit hvisit hoblivious taskId task status htask hw
  have hnone : ∀ visit ∈ (hubMachine Env.sample HubCall.Typed).visits Hub.sample calls,
      visit.2.oblivious = true → ∀ row ∈ visit.1.tasks.toList,
        row.2.status ≠ .AWAITING_APPROVAL := by decide
  have hwrites : ∀ call ∈ calls, call.oblivious = true → ∀ h taskId,
      ¬HubCall.WritesStatus h taskId .AWAITING_APPROVAL call := by
    simp [calls, sampleConnects, HubCall.oblivious, HubCall.WritesStatus,
      TasksService.isRetryableCapacityFailure]
  obtain ⟨front, back, heq, -⟩ := (Machine.mem_visits_iff _).mp hvisit
  have hcall : visit.2 ∈ calls := by
    rw [heq]
    exact List.mem_append_right _ List.mem_cons_self
  refine iff_of_false ?_ (hnone visit hvisit hoblivious (taskId, task) (Table.mem_toList.mpr htask))
  rintro rfl
  exact hwrites visit.2 hcall hoblivious visit.1 taskId hw

/-- **A cancelled task with a pending approval**: the prompt is reported, the
owner cancels, and an approval after that would set the task RUNNING again. -/
theorem approvals_not_agree :
    let calls := sampleConnects ++ [.submit 0 ⟨0, .CODEX, sampleInput⟩, .dispatch 0,
      .message 0 (.TASK_STATUS_UPDATE ⟨.id 0, .status .RUNNING⟩),
      .message 0 (.TASK_LOG ⟨.id 0, js "rm? [y/N]"⟩),
      .message 0 (.APPROVAL_REQUEST ⟨.id 0, some (js "rm")⟩), .cancel 0 0]
    (hubMachine Env.sample HubCall.Typed).Reachable
        ((hubMachine Env.sample HubCall.Typed).exec Hub.sample calls) ∧
      ¬((hubMachine Env.sample HubCall.Typed).exec Hub.sample calls).ApprovalsAgree Env.sample ∧
      ∃ task, ((hubMachine Env.sample HubCall.Typed).exec Hub.sample calls).tasks 0 = some task ∧
        task.status = .CANCELLED ∧
        ((((hubMachine Env.sample HubCall.Typed).exec Hub.sample calls).after Env.sample
          (.decideApproval 0 0 ⟨true, none⟩)).tasks 0).map (·.status) = some .RUNNING := by
  intro calls
  have hcancelled : (((hubMachine Env.sample HubCall.Typed).exec Hub.sample calls).tasks 0).map
      (·.status) = some .CANCELLED := by decide
  have hpending : (((hubMachine Env.sample HubCall.Typed).exec Hub.sample calls).approvals 0).map
      (fun approval => (approval.taskId, approval.status)) = some (0, .PENDING) := by
    decide
  obtain ⟨task, htask, hstatus⟩ := Option.map_eq_some_iff.mp hcancelled
  obtain ⟨approval, happroval, heq⟩ := Option.map_eq_some_iff.mp hpending
  refine ⟨(Machine.Reachable.of_start Hub.sample_fresh).exec (by decide),
    fun hall => ?_, task, htask, hstatus, by decide⟩
  have hwaiting := (hall.agree htask).mpr ⟨0, approval, happroval, congrArg Prod.fst heq,
    congrArg Prod.snd heq⟩
  rw [hstatus] at hwaiting
  cases hwaiting

end CodeCaller
