import CodeCaller.Hub.Finality

/-!
# Cancelling a task that waits

`cancel` sends to the daemon before it touches the row.  `cancel_waiting` says when it succeeds on
a queued task, and that nothing is sent for the task afterwards as long as no later call writes
another status to it.

A queued task is on a server without having been sent there, so its daemon need not be connected,
and need not exist for its kind of worker.  Both are explicit refusals of the code:
`WorkerRegistry.get` throws for a worker without an adapter, `dispatchToServer` for a server
without a socket, and the exception comes before the update, so the task stays in the queue
(`cancel_succeeds_iff`).

For what comes after, `Rows.Cancelled` is kept by every effect of the calls that write no status
(`Effect.cancelled`), and only dispatch sends a task, and only a queued one (`Effect.submits_eq`).
-/

namespace CodeCaller

open Async

variable {env : Env} {call : HubCall} {h : Hub} {r r' : Rows} {taskId : TaskId}
  {ownerId : UserId}

/-- Whether a message is the submit of a task. -/
def DaemonOutbound.submits (taskId : TaskId) : DaemonOutbound → Bool
  | .TASK_SUBMIT other _ => other == taskId
  | .TASK_CANCEL _ | .APPROVAL_DECISION _ _ _ => false

/-- How often a task was sent to a daemon. -/
def Hub.submitsOf (h : Hub) (taskId : TaskId) : ℕ :=
  h.emitted.countP fun emission => emission.message.submits taskId

/-- **A cancellation that succeeds**: it answers with the task, which is `CANCELLED`. -/
def CancelSucceeds (env : Env) (h : Hub) (ownerId : UserId) (taskId : TaskId) : Prop :=
  ∃ task, h.answer env (.cancel ownerId taskId) = .ok (.task taskId task) ∧
    (h.after env (.cancel ownerId taskId)).tasks taskId = some task ∧ task.status = .CANCELLED

/-- A call that leaves a task `CANCELLED`, if it is one of those that write a status. -/
def HubCall.LeavesCancelled (env : Env) (h : Hub) (taskId : TaskId) (call : HubCall) : Prop :=
  call.Writes → ∀ task, (h.after env call).tasks taskId = some task → task.status = .CANCELLED

/-! ## The request -/

/-- A status that is written to a stored task is the answer. -/
theorem updateStatus_run {task : Task} {server : Server} (htask : h.tasks taskId = some task)
    (hserver : h.servers task.serverId = some server) (status : TaskStatus) :
    ∃ updated h', (TasksService.updateStatus env (.id taskId) (.status status) none).run h =
      (.ok (taskId, updated, server), h') ∧ h'.tasks taskId = some updated ∧
        updated.status = status := by
  unfold TasksService.updateStatus
  rw [Proc.run_bind_of_ok (show (Prisma.key (.id taskId)).run h = (.ok taskId, h) from rfl),
    if_neg nofun]
  have hrun := @taskUpdate_run env h taskId task
    (fun row => { row with status := status, result := row.result }) htask rfl
  have hfound : ∀ h₁ : Hub, h₁.servers = h.servers →
      (Prisma.serverOf { task with status := status, updatedAt := env.clock h.reads }).run h₁ =
        (.ok server, h₁) := fun h₁ hservers => by
    unfold Prisma.serverOf
    rw [Proc.run_bind_of_ok (Proc.run_read _ _), hservers, hserver]
    rfl
  obtain ⟨h₁, hh₁⟩ : ∃ h₁ : Hub, h₁ = { h with
      tasks := h.tasks.modify taskId fun row =>
        { row with status := status, updatedAt := env.clock h.reads }
      reads := h.reads + 1 } := ⟨_, rfl⟩
  rw [← hh₁] at hrun
  dsimp only at hrun ⊢
  rw [Proc.run_bind_of_ok hrun, Proc.run_bind_of_ok (hfound h₁ (by rw [hh₁]))]
  refine ⟨_, _, rfl, ?_, rfl⟩
  rw [hh₁]
  change h.tasks.modify taskId _ taskId = _
  rw [Table.modify_apply, if_pos rfl, htask]
  rfl

/-- **A cancellation succeeds** for a Codex task whose daemon is connected. -/
theorem cancel_succeeds {task : Task} (htask : h.tasks taskId = some task)
    (howns : h.ownerOf taskId = some ownerId) (hcodex : task.workerType = .CODEX)
    (honline : h.online task.serverId = true) : CancelSucceeds env h ownerId taskId := by
  obtain ⟨found, server, hfound, hserver, -⟩ := ownerOf_some (r := h.rows) howns
  obtain rfl : found = task := Option.some.inj (hfound.symm.trans htask)
  obtain ⟨found', hget⟩ := @getOwnedTask_run h ownerId taskId howns
  obtain ⟨-, howned⟩ := getOwnedTask_spec hget
  obtain rfl : found' = found := Option.some.inj ((howned found' rfl).1.symm.trans htask)
  have hadapter : (WorkerRegistry.get found'.workerType).run h =
      (.ok ⟨CodexAdapter.submitTask, CodexAdapter.cancelTask⟩, h) := by
    unfold WorkerRegistry.get
    rw [if_pos (show found'.workerType = CodexAdapter.workerType from hcodex)]
    rfl
  have hsend : (CodexAdapter.cancelTask taskId).run h =
      (.ok (), { h with emitted := h.emitted ++ [⟨found'.serverId, .TASK_CANCEL taskId⟩] }) := by
    have hsent : (CodexAdapter.cancelTask taskId).run h =
        (RealtimeService.dispatchToServer found'.serverId (.TASK_CANCEL taskId)).run h := by
      unfold CodexAdapter.cancelTask CodexAdapter.findTaskOrThrow Prisma.taskFindUnique
      simp only [Proc.run_bind, Proc.run_read, htask, Proc.run_pure]
    rw [hsent, dispatchToServer_run, honline]
    rfl
  obtain ⟨updated, h', hupdate, hstored, hstatus⟩ := @updateStatus_run env
    { h with emitted := h.emitted ++ [⟨found'.serverId, .TASK_CANCEL taskId⟩] } taskId found' server
    htask hserver .CANCELLED
  have hrun : (perform env (.cancel ownerId taskId)).run h = (.ok (.task taskId updated), h') := by
    have hcancel : (TasksService.cancel env ownerId taskId).run h =
        (.ok (taskId, updated), h') := by
      unfold TasksService.cancel
      exact (Proc.run_bind_of_ok hget).trans ((Proc.run_bind_of_ok hadapter).trans
        ((Proc.run_bind_of_ok hsend).trans ((Proc.run_bind_of_ok hupdate).trans rfl)))
    exact (Proc.run_bind_of_ok hcancel).trans rfl
  refine ⟨updated, congrArg Prod.fst hrun, ?_, hstatus⟩
  unfold Hub.after
  rw [hrun]
  exact hstored

/-- **A cancellation of a queued task succeeds exactly if it is a Codex task and its daemon is
connected.** -/
theorem cancel_succeeds_iff {task : Task} (htask : h.tasks taskId = some task)
    (hqueued : task.status = .QUEUED) (howns : h.ownerOf taskId = some ownerId) :
    CancelSucceeds env h ownerId taskId ↔
      task.workerType = .CODEX ∧ h.online task.serverId = true := by
  constructor
  · rintro ⟨task', -, htask', hcancelled⟩
    rcases @cancel_tasks env h ownerId taskId with ⟨hsame, -⟩ | ⟨-, ⟨row, hrow, hboth⟩, -⟩
    · rw [hsame, htask] at htask'
      cases htask'
      rw [hqueued] at hcancelled
      cases hcancelled
    · obtain rfl : row = task := Option.some.inj (hrow.symm.trans htask)
      exact hboth
  · rintro ⟨hcodex, honline⟩
    exact cancel_succeeds htask howns hcodex honline

/-! ## What comes after -/

/-- A task that was cancelled and perhaps deleted since. -/
def Rows.Cancelled (r : Rows) (taskId : TaskId) : Prop :=
  taskId < r.tasks.next ∧ ∀ task, r.tasks taskId = some task → task.status = .CANCELLED

/-- Only dispatch sends a task, and only one that is queued. -/
theorem Effect.submits_eq (heffect : Effect env call r r')
    (hnot : ∀ jobId, call = .dispatch jobId →
      ∀ task, r.tasks taskId = some task → task.status ≠ .QUEUED) :
    (r'.emitted.countP fun emission => emission.message.submits taskId) =
      r.emitted.countP fun emission => emission.message.submits taskId := by
  cases heffect with
  | @assigned _ _ other _ input started lastSeen updated hcall hjob hid hcandidate =>
      obtain ⟨task, home, server, htask, hqueued, -⟩ := hcandidate.queued
      have hother : other ≠ taskId := fun heq => hnot _ hcall task (heq ▸ htask) hqueued
      simp [DaemonOutbound.submits, hother]
  | sent hconcern htask honline hmessage =>
      rcases hmessage with ⟨_, -, hcancel⟩ | ⟨_, _, _, _, -, -, -, -, hdecision⟩
      · rw [List.countP_append, hcancel]
        rfl
      · rw [List.countP_append, hdecision]
        rfl
  | _ => rfl

/-- The calls that do not write a status keep a task cancelled. -/
theorem Effect.cancelled (heffect : Effect env call r r') (hwrites : ¬call.Writes)
    (hcancelled : r.Cancelled taskId) : r'.Cancelled taskId := by
  refine ⟨hcancelled.1.trans_le heffect.tasks_next, fun task' htask' => ?_⟩
  cases htask : r.tasks taskId with
  | none =>
      rw [heffect.task_gone hcancelled.1 htask] at htask'
      cases htask'
  | some task =>
      have hstatus := hcancelled.2 task htask
      rw [heffect.terminal_kept hwrites htask (by rw [hstatus]; rfl) htask', hstatus]

/-- Keys of tasks are generated upwards by every call. -/
theorem after_tasks_next (env : Env) (h : Hub) (call : HubCall) :
    h.tasks.next ≤ (h.after env call).tasks.next := by
  have hchain := after_effects env h call
  change h.rows.tasks.next ≤ (h.after env call).rows.tasks.next
  generalize (h.after env call).rows = r at hchain ⊢
  induction hchain with
  | refl => exact le_rfl
  | tail _ hstep ih => exact ih.trans hstep.tasks_next

/-- Other calls send no task. -/
theorem after_submits_eq (hcalls : ∀ jobId, call ≠ .dispatch jobId) :
    (h.after env call).submitsOf taskId = h.submitsOf taskId := by
  have hchain := after_effects env h call
  unfold Hub.submitsOf
  change ((h.after env call).rows.emitted.countP _) = h.rows.emitted.countP _
  generalize (h.after env call).rows = r at hchain ⊢
  induction hchain with
  | refl => rfl
  | tail _ hstep ih =>
      exact (hstep.submits_eq fun jobId heq => absurd heq (hcalls jobId)).trans ih

/-- **One call**: while a task is cancelled no dispatch job sends it, and it stays cancelled
unless the call writes another status to it. -/
theorem after_cancelled (hcancelled : h.rows.Cancelled taskId)
    (hleaves : call.LeavesCancelled env h taskId) :
    (h.after env call).rows.Cancelled taskId ∧
      (h.after env call).submitsOf taskId = h.submitsOf taskId := by
  by_cases hwrites : call.Writes
  · have hcalls : ∀ jobId, call ≠ .dispatch jobId := by
      rintro jobId rfl
      exact hwrites
    exact ⟨⟨hcancelled.1.trans_le (after_tasks_next env h call), hleaves hwrites⟩,
      after_submits_eq hcalls⟩
  · have hchain := after_effects env h call
    unfold Hub.submitsOf
    change _ ∧ ((h.after env call).rows.emitted.countP _) = h.rows.emitted.countP _
    generalize (h.after env call).rows = r at hchain ⊢
    induction hchain with
    | refl => exact ⟨hcancelled, rfl⟩
    | tail _ hstep ih =>
        refine ⟨hstep.cancelled hwrites ih.1,
          (hstep.submits_eq fun _ _ task htask hqueued => ?_).trans
          ih.2⟩
        rw [ih.1.2 task htask] at hqueued
        cases hqueued

/-- **Cancelling a task that waits.**  It succeeds exactly for a Codex task whose daemon is
connected, and changes no task otherwise; from then on no dispatch job sends the task, whatever
is called, as long as no call writes another status to it. -/
theorem cancel_waiting {allowed : HubCall → Prop} {task : Task}
    (htask : h.tasks taskId = some task) (hqueued : task.status = .QUEUED)
    (howns : h.ownerOf taskId = some ownerId) :
    (CancelSucceeds env h ownerId taskId ↔
      task.workerType = .CODEX ∧ h.online task.serverId = true) ∧
    (¬CancelSucceeds env h ownerId taskId →
      (h.after env (.cancel ownerId taskId)).tasks = h.tasks) ∧
    (CancelSucceeds env h ownerId taskId → ∀ calls,
      (hubMachine env allowed).Runs (h.after env (.cancel ownerId taskId)) calls →
      (∀ visit ∈ (hubMachine env allowed).visits (h.after env (.cancel ownerId taskId)) calls,
        visit.2.LeavesCancelled env visit.1 taskId) →
      ((hubMachine env allowed).exec (h.after env (.cancel ownerId taskId))
        calls).submitsOf taskId = h.submitsOf taskId) := by
  have hiff := @cancel_succeeds_iff env h taskId ownerId task htask hqueued howns
  refine ⟨hiff, fun hfails => ?_, fun hsucceeds calls hruns hleaves => ?_⟩
  · rcases @cancel_tasks env h ownerId taskId with ⟨hsame, -⟩ | ⟨-, ⟨row, hrow, hboth⟩, -⟩
    · exact hsame
    · obtain rfl : row = task := Option.some.inj (hrow.symm.trans htask)
      exact absurd (hiff.mpr hboth) hfails
  · obtain ⟨row, -, hrow, hcancelled⟩ := hsucceeds
    have hfirst : (h.after env (.cancel ownerId taskId)).rows.Cancelled taskId ∧
        (h.after env (.cancel ownerId taskId)).submitsOf taskId = h.submitsOf taskId := by
      refine ⟨⟨Table.lt_next hrow, fun task' htask' => ?_⟩,
        after_submits_eq fun _ heq => by cases heq⟩
      obtain rfl : row = task' := Option.some.inj (hrow.symm.trans htask')
      exact hcancelled
    exact (Machine.exec_invariant (I := fun h' : Hub => h'.rows.Cancelled taskId ∧
        h'.submitsOf taskId = h.submitsOf taskId)
      (C := fun h' call => call.LeavesCancelled env h' taskId) hfirst
      (fun h' call ⟨hstays, hsame⟩ _ hcall =>
        ⟨(after_cancelled hstays hcall).1, (after_cancelled hstays hcall).2.trans hsame⟩)
      hruns hleaves).2

/-- The first server is connected and has a task in its queue, which is cancelled before its job
is taken. -/
theorem cancel_waiting_sample :
    let h := (hubMachine Env.sample HubCall.Typed).exec Hub.sample
      (sampleConnects ++ [.submit 0 ⟨0, .CODEX, sampleInput⟩])
    CancelSucceeds Env.sample h 0 0 ∧
      ((hubMachine Env.sample HubCall.Typed).exec (h.after Env.sample (.cancel 0 0))
        [.dispatch 0]).submitsOf 0 = 0 := by
  intro h
  have hqueued : (h.tasks 0).map (·.status) = some .QUEUED := by decide
  obtain ⟨task, htask, hqueued⟩ := Option.map_eq_some_iff.mp hqueued
  have hcodex : (h.tasks 0).map (·.workerType) = some .CODEX := by decide
  rw [htask] at hcodex
  have hserver : (h.tasks 0).map (fun row => h.online row.serverId) = some true := by
    decide
  rw [htask] at hserver
  obtain ⟨hiff, -, hsilent⟩ := @cancel_waiting Env.sample h 0 0 HubCall.Typed task htask hqueued
    (by decide)
  have hsucceeds := hiff.mpr ⟨Option.some.inj hcodex, Option.some.inj hserver⟩
  refine ⟨hsucceeds, (hsilent hsucceeds _ (by decide) fun visit hvisit => ?_).trans
    (by decide)⟩
  rw [Machine.visits_cons, Machine.visits_nil, List.mem_singleton] at hvisit
  rw [hvisit]
  exact fun hwrites => hwrites.elim

/-- **A waiting task that cannot be cancelled**: nobody runs its kind of worker. -/
theorem cancel_waiting_refused :
    let h := (hubMachine Env.sample HubCall.Typed).exec Hub.sample
      (sampleConnects ++ [.submit 0 ⟨0, .CLAUDE, sampleInput⟩])
    (hubMachine Env.sample HubCall.Typed).Reachable h ∧ h.ownerOf 0 = some 0 ∧
      (∃ task, h.tasks 0 = some task ∧ task.status = .QUEUED) ∧
      ¬CancelSucceeds Env.sample h 0 0 := by
  intro h
  refine ⟨(Machine.Reachable.of_start Hub.sample_fresh).exec (by decide), by decide,
    Option.map_eq_some_iff.mp (by decide : (h.tasks 0).map (·.status) = some .QUEUED), ?_⟩
  rintro ⟨task, -, htask, hcancelled⟩
  have hkept : ((h.after Env.sample (.cancel 0 0)).tasks 0).map (·.status) = some .QUEUED := by
    decide
  rw [htask] at hkept
  exact absurd ((Option.some.inj hkept).symm.trans hcancelled) nofun

end CodeCaller
