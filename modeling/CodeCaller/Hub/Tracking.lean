import CodeCaller.Hub.Attribution
import CodeCaller.Hub.Finality

/-!
# RUNNING tasks and the scan

The watchdog times a task out through its latest attempt, and skips the task if that attempt is
closed.  `Tracked` is what keeps every RUNNING task within its reach.  Dispatch makes the attempt
together with the status; a status update and an approval write RUNNING whatever the attempts of
the task are, and these are the calls that can break it.

### Main definitions

* `Rows.Tracked`: every RUNNING task has an active attempt.  This is what calls keep or break.
* `Rows.Scanned`: the latest attempt of every RUNNING task is active.  This is what the scan sees;
  it looks for the latest by `startedAt`.
* `HubCall.Attended`: a call that writes RUNNING only to tasks with an active attempt.

### Main results

* `scanned_iff`: the two notions are the same as long as the attempts of a task started in the
  order they were created in, which is a condition on the clock.
* `after_tracked_iff`, `running_scanned_iff`: a run keeps every RUNNING task within reach exactly
  when all its calls are attended.

### Where an attempt is

`Rows.Placed` joins the two.  An active attempt is on the server its task is on, so the deletion of
another server does not take it away; and attempts are made for Codex tasks only, so a capacity
failure that closes one has the adapter it needs to take the task out of RUNNING.
-/

namespace CodeCaller

open Async

variable {env : Env} {call : HubCall} {r r' : Rows} {h : Hub}

/-! ## The invariant -/

/-- A task with an active attempt. -/
def Rows.Active (r : Rows) (taskId : TaskId) : Prop :=
  ∃ id attempt, r.attempts id = some attempt ∧ attempt.taskId = taskId ∧ attempt.active = true

/-- **Every RUNNING task has an active attempt.** -/
def Rows.Tracked (r : Rows) : Prop :=
  ∀ ⦃taskId task⦄, r.tasks taskId = some task → task.status = .RUNNING → r.Active taskId

/-- **Every RUNNING task is within reach of the scan**: its latest attempt is
active. -/
def Rows.Scanned (env : Env) (r : Rows) : Prop :=
  ∀ ⦃taskId task⦄, r.tasks taskId = some task → task.status = .RUNNING →
    ∃ id attempt, latestAttempt env r.attempts taskId = some (id, attempt) ∧ attempt.active = true

/-- The attempts of a task started one after the other, in the order they were
created in. -/
def Rows.StartedInOrder (r : Rows) : Prop :=
  ∀ ⦃id id' attempt attempt'⦄, r.attempts id = some attempt → r.attempts id' = some attempt' →
    attempt'.taskId = attempt.taskId → id < id' → attempt.startedAt < attempt'.startedAt

/-- Attempts are made for Codex tasks, and an active one is on the server its
task is on. -/
structure Rows.Placed (r : Rows) : Prop where
  codex : ∀ {id attempt task}, r.attempts id = some attempt →
    r.tasks attempt.taskId = some task → task.workerType = .CODEX
  server : ∀ {id attempt task}, r.attempts id = some attempt → attempt.active = true →
    r.tasks attempt.taskId = some task → task.serverId = attempt.serverId

/-! ## The latest attempt -/

/-- The first of the rows in descending order has the greatest key. -/
theorem orderByDesc_head {ρ : Type} {key : ρ → ℕ} {rows : List (ℕ × ρ)} {first : ℕ × ρ}
    (hfirst : (orderByDesc env key rows).head? = some first) {row : ℕ × ρ} (hrow : row ∈ rows) :
    key row.2 ≤ key first.2 := by
  have hsorted : (orderByDesc env key rows).Pairwise fun a b => key b.2 ≤ key a.2 := by
    unfold orderByDesc
    have : Std.Total (α := ℕ × ρ) fun a b => key b.2 ≤ key a.2 := ⟨fun a b => le_total _ _⟩
    have : IsTrans (ℕ × ρ) fun a b => key b.2 ≤ key a.2 := ⟨fun a b c hab hbc => hbc.trans hab⟩
    exact List.pairwise_insertionSort _ _
  have hmem : row ∈ orderByDesc env key rows := mem_orderByDesc.mpr hrow
  cases hlist : orderByDesc env key rows with
  | nil =>
      rw [hlist] at hmem
      cases hmem
  | cons head rest =>
      rw [hlist] at hmem hsorted hfirst
      cases hfirst
      rcases List.mem_cons.mp hmem with rfl | hrest
      · exact le_rfl
      · exact (List.pairwise_cons.mp hsorted).1 row hrest

/-- **What the scan can reach is what is tracked**, as long as attempts started in
order. -/
theorem scanned_iff (hd : r.Disciplined) (horder : r.StartedInOrder) :
    r.Scanned env ↔ r.Tracked := by
  constructor
  · intro hscanned taskId task htask hrunning
    obtain ⟨id, attempt, hlatest, hactive⟩ := hscanned htask hrunning
    obtain ⟨hrow, hof⟩ := latestAttempt_some hlatest
    exact ⟨id, attempt, hrow, hof, hactive⟩
  · intro htracked taskId task htask hrunning
    obtain ⟨id, attempt, hrow, hof, hactive⟩ := htracked htask hrunning
    have hmem : (id, attempt) ∈ r.attempts.toList.filter fun row => row.2.taskId == taskId :=
      List.mem_filter.mpr ⟨Table.mem_toList.mpr hrow, beq_iff_eq.mpr hof⟩
    cases hlatest : latestAttempt env r.attempts taskId with
    | none =>
        unfold latestAttempt at hlatest
        rw [orderByDesc_eq_nil (List.head?_eq_none_iff.mp hlatest)] at hmem
        cases hmem
    | some found =>
        obtain ⟨found, latest⟩ := found
        obtain ⟨hfound, hsame⟩ := latestAttempt_some hlatest
        -- the latest by `startedAt` is not older than the active one, which is the newest
        have hle : found ≤ id := hd.latest hrow hfound (hsame.trans hof.symm) hactive
        have hnot : ¬found < id := fun hlt =>
          absurd (orderByDesc_head hlatest hmem)
            (horder hfound hrow (hof.trans hsame.symm) hlt).not_ge
        obtain rfl : found = id := hle.antisymm (not_lt.mp hnot)
        rw [hrow] at hfound
        cases hfound
        exact ⟨found, attempt, rfl, hactive⟩

/-! ## The place of an attempt -/

/-- The worker type of a task is what it was submitted with. -/
theorem Effect.worker_kept (h : Effect env call r r') {taskId : TaskId} {task task' : Task}
    (htask : r.tasks taskId = some task) (htask' : r'.tasks taskId = some task') :
    task'.workerType = task.workerType := by
  have hmodify : ∀ {other f}, r'.tasks = r.tasks.modify other f →
      (∀ row : Task, (f row).workerType = row.workerType) →
      task'.workerType = task.workerType := fun {other f} heq hf => by
    rw [heq, Table.modify_apply] at htask'
    split at htask'
    · next hid =>
      rw [← hid, htask] at htask'
      cases htask'
      exact hf task
    · rw [htask] at htask'
      cases htask'
      rfl
  have hsame : r'.tasks = r.tasks → task'.workerType = task.workerType := fun heq => by
    rw [heq, htask] at htask'
    cases htask'
    rfl
  cases h with
  | submitted =>
      rw [Table.insert_apply, if_neg (Table.lt_next htask).ne, htask] at htask'
      cases htask'
      rfl
  | relabelled _ _ hworker => exact hmodify rfl hworker
  | failedOver => exact hmodify rfl fun _ => rfl
  | assigned => exact hmodify rfl fun _ => rfl
  | expired => exact hmodify rfl fun _ => rfl
  | requeued => exact hmodify rfl fun _ => rfl
  | serverDeleted =>
      have hrow := (Option.filter_eq_some_iff.mp htask').1
      rw [htask] at hrow
      cases hrow
      rfl
  | _ => exact hsame rfl

/-- A new active attempt is on the server its task was moved to. -/
theorem Effect.new_active (h : Effect env call r r') {id : TaskAttemptId} {attempt : TaskAttempt}
    {task' : Task} (hnew : id = r.attempts.next) (hrow : r'.attempts id = some attempt)
    (hactive : attempt.active = true) (htask' : r'.tasks attempt.taskId = some task') :
    task'.serverId = attempt.serverId := by
  have hnext : r.attempts.next < r'.attempts.next := hnew ▸ Table.lt_next hrow
  subst hnew
  cases h with
  | touched => exact absurd hnext (updateActive_next _ _ _ _).le.not_gt
  | settled => exact absurd hnext (updateActive_next _ _ _ _).le.not_gt
  | failedOver => exact absurd hnext (updateActive_next _ _ _ _).le.not_gt
  | assigned =>
      rw [Table.insert_apply, if_pos rfl] at hrow
      cases hrow
      rw [Table.modify_apply, if_pos rfl] at htask'
      obtain ⟨task, -, rfl⟩ := Option.map_eq_some_iff.mp htask'
      rfl
  | rejected =>
      rw [Table.insert_apply, if_pos rfl] at hrow
      cases hrow
      cases hactive
  | _ => exact absurd hnext (lt_irrefl _)

/-- An attempt is opened for a Codex task, and the task moves with it. -/
theorem Effect.placed (h : Effect env call r r') (hs : r.Sound) (hd : r.Disciplined)
    (hp : r.Placed) : r'.Placed where
  codex {id attempt' task'} hrow htask' := by
    have hchange := h.attempt id
    rw [hrow] at hchange
    rcases hchange.origin with ⟨attempt, hold, hof, -⟩ | ⟨-, -, hcandidate⟩
    · obtain ⟨_, -, howner⟩ := hs.attempt_owner hold
      obtain ⟨task, -, htask, -⟩ := ownerOf_some howner
      rw [← hof] at htask'
      exact (h.worker_kept htask htask').trans (hp.codex hold htask)
    · obtain ⟨task, -, -, htask, -, hcodex, -⟩ := hcandidate.queued
      exact (h.worker_kept htask htask').trans hcodex
  server {id attempt' task'} hrow hactive' htask' := by
    have hchange := h.attempt id
    rw [hrow] at hchange
    rcases hchange.active hactive' with ⟨attempt, hold, hof, hactive⟩ | ⟨hnew, -⟩
    · rcases hchange.origin with ⟨same, hsame, -, hserver⟩ | ⟨hnew, -⟩
      · rw [hold] at hsame
        cases hsame
        obtain ⟨_, -, howner⟩ := hs.attempt_owner hold
        obtain ⟨task, -, htask, -⟩ := ownerOf_some howner
        have hbefore := hp.server hold hactive htask
        rw [hof] at htask
        have htaskChange := h.task attempt'.taskId
        rw [htask, htask'] at htaskChange
        have hkept : task'.serverId = task.serverId := by
          cases htaskChange with
          | kept => rfl
          | relabelled _ hkept => exact hkept
          | failedOver _ _ _ hkept => exact hkept
          | assigned _ _ hqueued =>
              -- a queued task has no active attempt
              rw [← hof] at htask
              rw [hd.queued hold htask hqueued] at hactive
              cases hactive
          | expired _ _ hkept => exact hkept
          | requeued _ _ hkept => exact hkept
        rw [hkept, hbefore, hserver]
      · rw [hnew, r.attempts.fresh r.attempts.next le_rfl] at hold
        cases hold
    · exact h.new_active hnew hrow hactive' htask'

/-- Without tasks there is nothing to place. -/
theorem Hub.Fresh.placed (hfresh : h.Fresh) : h.rows.Placed := by
  have hattempts : h.rows.attempts = Table.empty := hfresh.attempts
  constructor <;> intros <;> simp_all

/-- **The place of an attempt** holds in every state that can be reached. -/
theorem reachable_placed (hreach : (hubMachine env HubCall.Typed).Reachable h) :
    h.rows.Placed := by
  have hall : h.rows.Sound ∧ h.rows.Disciplined ∧ h.rows.Placed :=
    reachable_rows (I := fun r => r.Sound ∧ r.Disciplined ∧ r.Placed)
      (fun _ hfresh => ⟨hfresh.sound, hfresh.disciplined, hfresh.placed⟩)
      (fun htyped hI heffect => ⟨heffect.sound hI.1, heffect.disciplined htyped hI.1 hI.2.1,
        heffect.placed hI.1 hI.2.1 hI.2.2⟩) hreach
  exact hall.2.2

/-! ## Calls that only touch attempts -/

/-- The calls that write a status and close no attempt. -/
def HubCall.OnlyTouches : HubCall → Prop
  | message _ (.TASK_STATUS_UPDATE _) | message _ (.APPROVAL_REQUEST _)
  | decideApproval _ _ _ | cancel _ _ => True
  | _ => False

/-- Whether an attempt is active, and of which task, stays. -/
theorem AttemptChange.touches {id : TaskAttemptId} {row row' : Option TaskAttempt}
    (h : AttemptChange env call r id row row') (hcall : call.OnlyTouches) :
    row'.map (fun attempt => (attempt.taskId, attempt.active)) =
      row.map (fun attempt => (attempt.taskId, attempt.active)) := by
  cases h with
  | kept => rfl
  | touched _ _ _ _ hactive =>
      rw [Option.map_some, Option.map_some, hactive]
      rfl
  | settled _ _ heq =>
      rw [heq] at hcall
      exact hcall.elim
  | expired _ heq =>
      rw [heq] at hcall
      exact hcall.elim
  | assigned _ _ heq =>
      obtain ⟨jobId, rfl⟩ := heq
      exact hcall.elim
  | rejected _ _ _ heq =>
      obtain ⟨jobId, rfl⟩ := heq
      exact hcall.elim
  | deleted heq =>
      rw [heq] at hcall
      exact hcall.elim

/-- Whether a task is tracked, by its attempts. -/
theorem Rows.active_iff {taskId : TaskId} : r.Active taskId ↔
    ∃ id, (r.attempts id).map (fun attempt => (attempt.taskId, attempt.active)) =
      some (taskId, true) := by
  unfold Rows.Active
  simp only [Option.map_eq_some_iff, Prod.mk.injEq]

/-- So the tasks with an active attempt are the same after the call. -/
theorem after_active_iff (hcall : call.OnlyTouches) (taskId : TaskId) :
    (h.after env call).rows.Active taskId ↔ h.rows.Active taskId := by
  have hchain := after_effects env h call
  generalize (h.after env call).rows = r at hchain ⊢
  induction hchain with
  | refl => exact Iff.rfl
  | tail _ hstep ih =>
      refine Iff.trans ?_ ih
      rw [Rows.active_iff, Rows.active_iff]
      exact exists_congr fun id => by rw [(hstep.attempt id).touches hcall]

/-! ## The other calls -/

/-- What was RUNNING still has its attempt, and nothing else is RUNNING. -/
theorem Rows.Tracked.of_kept (ht : r.Tracked)
    (htasks : ∀ ⦃taskId task'⦄, r'.tasks taskId = some task' → task'.status = .RUNNING →
      ∃ task, r.tasks taskId = some task ∧ task.status = .RUNNING ∧
        (r.Active taskId → r'.Active taskId)) : r'.Tracked := by
  intro taskId task' htask' hrunning
  obtain ⟨task, htask, hbefore, hkeeps⟩ := htasks htask' hrunning
  exact hkeeps (ht htask hbefore)

/-- A new attempt takes nothing away. -/
theorem Rows.Active.of_insert {attempt : TaskAttempt} {taskId : TaskId} (ha : r.Active taskId)
    (hattempts : r'.attempts = r.attempts.insert attempt) : r'.Active taskId := by
  obtain ⟨id, old, hrow, hof, hactive⟩ := ha
  refine ⟨id, old, ?_, hof, hactive⟩
  rw [hattempts, Table.insert_apply, if_neg (Table.lt_next hrow).ne]
  exact hrow

/-- An update that keeps the active ones active. -/
theorem Rows.Active.of_modify {id : TaskAttemptId} {f : TaskAttempt → TaskAttempt}
    {taskId : TaskId} (ha : r.Active taskId) (hattempts : r'.attempts = r.attempts.modify id f)
    (hf : ∀ attempt, r.attempts id = some attempt → attempt.taskId = taskId →
      (f attempt).taskId = attempt.taskId ∧ (f attempt).active = true) : r'.Active taskId := by
  obtain ⟨other, attempt, hrow, hof, hactive⟩ := ha
  by_cases hsame : other = id
  · subst hsame
    obtain ⟨htask, hstays⟩ := hf attempt hrow hof
    refine ⟨other, f attempt, ?_, htask.trans hof, hstays⟩
    rw [hattempts, Table.modify_apply, if_pos rfl, hrow]
    rfl
  · refine ⟨other, attempt, ?_, hof, hactive⟩
    rw [hattempts, Table.modify_apply, if_neg hsame]
    exact hrow

/-- The same for an update of the attempts that are selected. -/
theorem Rows.Active.of_update {selects : TaskId → Bool} {f : TaskAttempt → TaskAttempt}
    {taskId : TaskId} (ha : r.Active taskId)
    (hattempts : r'.attempts = updateActive env selects f r.attempts)
    (hf : ∀ attempt, selects attempt.taskId = true → attempt.taskId = taskId →
      (f attempt).taskId = attempt.taskId ∧ (f attempt).active = true) : r'.Active taskId := by
  rcases updateActive_cases env selects f r.attempts with
    ⟨hsame, -⟩ | ⟨id, attempt, hrow, hsel, -, hmodify⟩
  · rw [Rows.Active, hattempts, hsame]
    exact ha
  · refine ha.of_modify (hattempts.trans hmodify) fun row hrow' hof => ?_
    rw [hrow] at hrow'
    cases hrow'
    exact hf attempt hsel hof

/-- The watchdog closes an attempt only with the RUNNING of its task. -/
theorem Rows.Tracked.of_expire {taskId : TaskId} {id : TaskAttemptId} {attempt : TaskAttempt}
    {finished : Time} {f : Task → Task} (ht : r.Tracked) (hrow : r.attempts id = some attempt)
    (hof : attempt.taskId = taskId) (hattempts : r'.attempts =
      r.attempts.modify id (TaskAttempt.expired env finished))
    (htasks : r'.tasks = r.tasks.modify taskId f) (hstatus : ∀ task, (f task).status ≠ .RUNNING) :
    r'.Tracked := by
  refine ht.of_kept fun other task' htask' hrunning => ?_
  rw [htasks, Table.modify_apply] at htask'
  split at htask'
  · obtain ⟨task, -, rfl⟩ := Option.map_eq_some_iff.mp htask'
    exact absurd hrunning (hstatus task)
  · next hne =>
    refine ⟨task', htask', hrunning, fun ha => ha.of_modify hattempts fun row hrow' hof' => ?_⟩
    rw [hrow] at hrow'
    cases hrow'
    exact absurd (hof'.symm.trans hof) hne

/-- **Every effect of the calls that write no status preserves `Tracked`.** -/
theorem Effect.tracked (h : Effect env call r r') (hwrites : ¬call.Writes) (hp : r.Placed)
    (ht : r.Tracked) : r'.Tracked := by
  cases h with
  | submitted =>
      refine ht.of_kept fun taskId task' htask' hrunning => ?_
      rw [Table.insert_apply] at htask'
      split at htask'
      · cases htask'
        cases hrunning
      · exact ⟨task', htask', hrunning, fun ha => ha⟩
  | touched =>
      refine ht.of_kept fun taskId task' htask' hrunning => ⟨task', htask', hrunning, fun ha => ?_⟩
      exact ha.of_update rfl fun _ _ _ => ⟨rfl, rfl⟩
  | settled _ _ hcall =>
      rw [hcall] at hwrites
      exact absurd trivial hwrites
  | relabelled _ _ _ hstatus =>
      refine ht.of_kept fun taskId task' htask' hrunning => ?_
      rw [Table.modify_apply] at htask'
      split at htask'
      · obtain ⟨task, htask, rfl⟩ := Option.map_eq_some_iff.mp htask'
        rcases hstatus task with hkept | ⟨hcall, -⟩
        · next heq => exact ⟨task, heq ▸ htask, hkept ▸ hrunning, fun ha => ha⟩
        · exact absurd hcall hwrites
      · exact ⟨task', htask', hrunning, fun ha => ha⟩
  | failedOver _ _ _ _ hcall =>
      rw [hcall] at hwrites
      exact absurd trivial hwrites
  | assigned =>
      intro taskId task' htask' hrunning
      rw [Table.modify_apply] at htask'
      split at htask'
      · next heq => exact ⟨_, _, if_pos rfl, heq.symm, rfl⟩
      · exact (ht htask' hrunning).of_insert rfl
  | rejected => exact fun taskId task' htask' hrunning => (ht htask' hrunning).of_insert rfl
  | expired _ _ _ _ _ _ hrow hid => exact ht.of_expire hrow hid rfl rfl fun _ => nofun
  | requeued _ _ _ _ _ _ hrow hid => exact ht.of_expire hrow hid rfl rfl fun _ => nofun
  | @serverDeleted ownerId serverId server hcall hserver howner =>
      intro taskId task' htask' hrunning
      obtain ⟨htask, hstays⟩ := Option.filter_eq_some_iff.mp htask'
      obtain ⟨id, attempt, hrow, rfl, hactive⟩ := ht htask hrunning
      refine ⟨id, attempt, Option.filter_eq_some_iff.mpr ⟨hrow, ?_⟩, rfl, hactive⟩
      change (attempt.serverId != serverId &&
        (r.tasks attempt.taskId).any fun task => task.serverId != serverId) = true
      rw [htask, Option.any_some, ← hp.server hrow hactive htask, Bool.and_self]
      exact hstays
  | _ => exact ht

/-! ## The calls that write a status -/

/-- **A call that writes RUNNING only to tasks with an active attempt.** -/
def HubCall.Attended (h : Hub) (call : HubCall) : Prop :=
  ∀ taskId task, h.tasks taskId = some task → call.WritesStatus h taskId .RUNNING →
    h.rows.Active taskId

/-- The status updates, requests for approval, decisions and cancellations. -/
theorem touches_tracked_iff (hs : h.rows.Sound) (hd : h.rows.Disciplined) (ht : h.rows.Tracked)
    (htyped : call.Typed) (hwrites : call.Writes) (hcall : call.OnlyTouches) :
    (h.after env call).rows.Tracked ↔ call.Attended h := by
  have hactive := @after_active_iff env call h hcall
  rcases @writes_spec env call h hs hd htyped hwrites with
    ⟨hsame, hnone⟩ | ⟨written, status, ⟨f, hmodify, hstatus⟩, hiff⟩
  · refine iff_of_true ?_ ?_
    · intro taskId task htask hrunning
      refine (hactive taskId).mpr (ht ?_ hrunning)
      rw [← htask]
      exact congrArg (fun tasks : Table Task => tasks taskId) hsame.symm
    · intro taskId task htask hw
      exact absurd hw (hnone taskId _ (by rw [htask]; exact nofun))
  · constructor
    · intro htracked taskId task htask hw
      obtain ⟨rfl, rfl⟩ := (hiff taskId _ (by rw [htask]; exact nofun)).mp hw
      refine (hactive taskId).mp (@htracked _ (f task) ?_ (hstatus task))
      change (h.after env call).tasks taskId = _
      rw [hmodify, Table.modify_apply, if_pos rfl, htask]
      rfl
    · intro hattended taskId task' htask' hrunning
      refine (hactive taskId).mpr ?_
      change (h.after env call).tasks taskId = _ at htask'
      rw [hmodify, Table.modify_apply] at htask'
      split at htask'
      · next heq =>
        subst heq
        obtain ⟨task, htask, rfl⟩ := Option.map_eq_some_iff.mp htask'
        rw [hstatus] at hrunning
        refine hattended taskId task htask ((hiff taskId _ ?_).mpr ⟨rfl, hrunning.symm⟩)
        rw [htask]
        exact nofun
      · exact ht htask' hrunning

/-- A result as the contract types it does not write RUNNING. -/
theorem result_not_running {socketId : ℕ} {payload : DaemonTaskResultPayload} {taskId : TaskId}
    (htyped : HubCall.Typed (.message socketId (.TASK_RESULT payload))) :
    ¬HubCall.WritesStatus h taskId .RUNNING (.message socketId (.TASK_RESULT payload)) := by
  rintro ⟨-, hw⟩
  split at hw
  · rcases hw.2 with ⟨-, hrunning⟩ | ⟨-, hrunning⟩ <;> cases hrunning
  · have hresult := htyped.2
    rw [hw] at hresult
    rcases hresult with hrunning | hrunning <;> cases hrunning

/-- A result that writes nothing to its stored task found no attempt of it. -/
theorem result_unwritten {socketId : ℕ} {payload : DaemonTaskResultPayload} {taskId : TaskId}
    {task : Task} (hp : h.rows.Placed)
    (htyped : HubCall.Typed (.message socketId (.TASK_RESULT payload)))
    (hid : payload.taskId = .id taskId) (htask : h.tasks taskId = some task)
    (hnone : ∀ status,
      ¬HubCall.WritesStatus h taskId status (.message socketId (.TASK_RESULT payload))) :
    ¬h.rows.Active taskId := by
  rintro ⟨id, attempt, hrow, rfl, -⟩
  have hcodex : task.workerType = .CODEX := hp.codex hrow htask
  by_cases hcapacity : TasksService.isRetryableCapacityFailure payload = true
  · by_cases hremains : ∃ serverId, h.rows.Remains attempt.taskId serverId
    · refine hnone .QUEUED ⟨hid, ?_⟩
      rw [if_pos hcapacity]
      exact ⟨⟨task, htask, hcodex⟩, .inl ⟨hremains, rfl⟩⟩
    · refine hnone .FAILED ⟨hid, ?_⟩
      rw [if_pos hcapacity]
      exact ⟨⟨task, htask, hcodex⟩, .inr ⟨hremains, rfl⟩⟩
  · obtain ⟨status, hstatus⟩ := htyped.2.exists_status
    refine hnone status ⟨hid, ?_⟩
    rw [if_neg hcapacity]
    exact hstatus

/-- **A result keeps every RUNNING task tracked**: the attempt it closes is that
of the task it takes out of RUNNING. -/
theorem result_tracked {socketId : ℕ} {payload : DaemonTaskResultPayload} (hs : h.rows.Sound)
    (hd : h.rows.Disciplined) (hp : h.rows.Placed) (ht : h.rows.Tracked)
    (htyped : HubCall.Typed (.message socketId (.TASK_RESULT payload))) :
    (h.after env (.message socketId (.TASK_RESULT payload))).rows.Tracked := by
  obtain ⟨taskId, hid⟩ := htyped.1.exists_id
  -- the task of the result is not left RUNNING, and the others are as they were
  have htasks : ∀ ⦃other task'⦄,
      (h.after env (.message socketId (.TASK_RESULT payload))).tasks other = some task' →
      task'.status = .RUNNING → other ≠ taskId ∧ h.tasks other = some task' := by
    intro other task' htask' hrunning
    rcases @result_writes env h socketId payload hs hd htyped with
      ⟨hsame, hnone⟩ | ⟨written, status, ⟨f, hmodify, hstatus⟩, hiff⟩
    · rw [hsame] at htask'
      refine ⟨?_, htask'⟩
      rintro rfl
      exact result_unwritten hp htyped hid htask'
        (fun status => hnone other status (by rw [htask']; exact nofun)) (ht htask' hrunning)
    · rw [hmodify, Table.modify_apply] at htask'
      have hstored : ∀ {task}, h.tasks written = some task → written = taskId ∧ status ≠ .RUNNING :=
        fun {task} htask => by
          have hw := (hiff written status (by rw [htask]; exact nofun)).mpr ⟨rfl, rfl⟩
          refine ⟨?_, ?_⟩
          · have heq := hw.1
            rw [hid] at heq
            cases heq
            rfl
          · rintro rfl
            exact result_not_running htyped hw
      split at htask'
      · obtain ⟨task, htask, rfl⟩ := Option.map_eq_some_iff.mp htask'
        rw [hstatus] at hrunning
        exact absurd hrunning (hstored htask).2
      · next hne =>
        refine ⟨?_, htask'⟩
        rintro rfl
        -- the result of a stored task that writes to no stored one
        refine result_unwritten hp htyped hid htask' (fun status' hw => hne ?_) (ht htask' hrunning)
        exact ((hiff other status' (by rw [htask']; exact nofun)).mp hw).1
  refine ht.of_kept fun other task' htask' hrunning => ?_
  obtain ⟨hne, htask⟩ := htasks htask' hrunning
  refine ⟨task', htask, hrunning, fun ha => ?_⟩
  rcases after_result_attempts env h socketId payload with
    ⟨hsame, -⟩ | ⟨selects, lastSeen, finished, hsel, hattempts⟩
  · obtain ⟨id, attempt, hrow, hof, hactive⟩ := ha
    refine ⟨id, attempt, ?_, hof, hactive⟩
    change (h.after env (.message socketId (.TASK_RESULT payload))).attempts id = _
    rw [hsame]
    exact hrow
  · refine ha.of_update hattempts fun attempt hof heq => ?_
    rw [hid] at hsel
    cases hsel
    exact absurd (heq.symm.trans (beq_iff_eq.mp hof)) hne

/-- **One call keeps every RUNNING task tracked exactly when it is attended.** -/
theorem after_tracked_iff (hs : h.rows.Sound) (hd : h.rows.Disciplined) (hp : h.rows.Placed)
    (ht : h.rows.Tracked) (htyped : call.Typed) :
    (h.after env call).rows.Tracked ↔ call.Attended h := by
  by_cases hwrites : call.Writes
  · by_cases hcall : call.OnlyTouches
    · exact touches_tracked_iff hs hd ht htyped hwrites hcall
    · obtain ⟨socketId, payload, rfl⟩ :
          ∃ socketId payload, call = .message socketId (.TASK_RESULT payload) := by
        unfold HubCall.Writes at hwrites
        split at hwrites
        all_goals first | exact ⟨_, _, rfl⟩ | exact absurd trivial hcall | exact hwrites.elim
      exact iff_of_true (result_tracked hs hd hp ht htyped)
        fun _ _ _ hw => absurd hw (result_not_running htyped)
  · refine iff_of_true ?_ fun _ _ _ hw => absurd (HubCall.writes_of_status hw) hwrites
    have hchain := after_effects env h call
    have hall : (h.after env call).rows.Sound ∧ (h.after env call).rows.Disciplined ∧
        (h.after env call).rows.Placed ∧ (h.after env call).rows.Tracked := by
      generalize (h.after env call).rows = r at hchain ⊢
      induction hchain with
      | refl => exact ⟨hs, hd, hp, ht⟩
      | tail _ hstep ih =>
          obtain ⟨hs, hd, hp, ht⟩ := ih
          exact ⟨hstep.sound hs, hstep.disciplined htyped hs hd, hstep.placed hs hd hp,
            hstep.tracked hwrites hp ht⟩
    exact hall.2.2.2

/-! ## Runs -/

/-- Without tasks none is untracked. -/
theorem Hub.Fresh.tracked (hfresh : h.Fresh) : h.rows.Tracked := by
  intro taskId task htask
  rw [show h.rows.tasks = Table.empty from hfresh.tasks] at htask
  cases htask

/-- **No RUNNING task escapes the watchdog** in a run exactly when every call of
the run is attended. -/
theorem running_scanned_iff {first : Hub} {calls : List HubCall} (hstart : first.Fresh)
    (hruns : (hubMachine env HubCall.Typed).Runs first calls)
    (horder : ∀ front back, calls = front ++ back →
      ((hubMachine env HubCall.Typed).exec first front).rows.StartedInOrder) :
    (∀ front back, calls = front ++ back →
      ((hubMachine env HubCall.Typed).exec first front).rows.Scanned env) ↔
    ∀ visit ∈ (hubMachine env HubCall.Typed).visits first calls, visit.2.Attended visit.1 := by
  have hreach : (hubMachine env HubCall.Typed).Reachable first := .of_start hstart
  have hscanned : (∀ front back, calls = front ++ back →
      ((hubMachine env HubCall.Typed).exec first front).rows.Scanned env) ↔
      ∀ front back, calls = front ++ back →
        ((hubMachine env HubCall.Typed).exec first front).rows.Tracked := by
    refine forall₃_congr fun front back heq => ?_
    have hfront : (hubMachine env HubCall.Typed).Runs first front := by
      rw [heq, Machine.runs_append] at hruns
      exact hruns.1
    exact scanned_iff (reachable_disciplined (hreach.exec hfront)) (horder front back heq)
  rw [hscanned]
  refine Machine.holds_along_iff (P := fun h : Hub => h.rows.Tracked)
    (C := fun (h : Hub) (call : HubCall) => call.Attended h) hstart.tracked
    fun visit hvisit htracked => ?_
  have hvisited := hreach.visits hruns hvisit
  exact after_tracked_iff (reachable_sound hvisited) (reachable_disciplined hvisited)
    (reachable_placed hvisited) htracked (hruns visit hvisit).1

/-- A task that is timed out on one server and reports from the next. -/
theorem running_scanned_moved :
    let calls := sampleConnects ++ [.submit 0 ⟨0, .CODEX, sampleInput⟩, .dispatch 0, .watchdog,
      .dispatch 1] ++ [.message 1 (.TASK_STATUS_UPDATE ⟨.id 0, .status .RUNNING⟩)]
    ∀ front back, calls = front ++ back →
      ((hubMachine Env.sample HubCall.Typed).exec Hub.sample front).rows.Scanned Env.sample := by
  intro calls
  have hruns : (hubMachine Env.sample HubCall.Typed).Runs Hub.sample calls := by decide
  have horder : ∀ front ∈ calls.inits,
      ∀ row ∈ ((hubMachine Env.sample HubCall.Typed).exec Hub.sample front).attempts.toList,
      ∀ row' ∈ ((hubMachine Env.sample HubCall.Typed).exec Hub.sample front).attempts.toList,
        row.1 < row'.1 → row.2.startedAt < row'.2.startedAt := by decide
  refine (running_scanned_iff Hub.sample_fresh hruns ?_).mpr ?_
  · intro front back heq id id' attempt attempt' hrow hrow' _ hlt
    have hmem : front ∈ calls.inits := (List.mem_inits _ _).mpr ⟨back, heq.symm⟩
    exact horder front hmem (id, attempt) (Table.mem_toList.mpr hrow) (id', attempt')
      (Table.mem_toList.mpr hrow') hlt
  · rw [Machine.visits_append]
    refine List.forall_mem_append.mpr ⟨fun visit hvisit => ?_, ?_⟩
    · -- the calls before the report write no status
      have hquiet : ∀ call ∈ sampleConnects ++ [.submit 0 ⟨0, .CODEX, sampleInput⟩, .dispatch 0,
          .watchdog, .dispatch 1], ¬call.Writes := by simp [sampleConnects, HubCall.Writes]
      obtain ⟨front, back, heq, -⟩ := (Machine.mem_visits_iff _).mp hvisit
      intro _ _ _ hw
      exact absurd (HubCall.writes_of_status hw) (hquiet visit.2 (by rw [heq]; simp))
    · rintro visit hvisit taskId task - hw
      rw [Machine.visits_cons, Machine.visits_nil, List.mem_singleton] at hvisit
      subst hvisit
      obtain ⟨hid, -⟩ := hw
      cases hid
      have hactive : ∃ attempt, ((hubMachine Env.sample HubCall.Typed).exec Hub.sample
          (sampleConnects ++ [.submit 0 ⟨0, .CODEX, sampleInput⟩, .dispatch 0, .watchdog,
            .dispatch 1])).attempts 1 = some attempt ∧ attempt.taskId = 0 ∧
              attempt.active = true := by
        have hmap : (((hubMachine Env.sample HubCall.Typed).exec Hub.sample
            (sampleConnects ++ [.submit 0 ⟨0, .CODEX, sampleInput⟩, .dispatch 0, .watchdog,
              .dispatch 1])).attempts 1).map (fun attempt => (attempt.taskId, attempt.active)) =
            some (0, true) := by decide
        obtain ⟨attempt, hrow, heq⟩ := Option.map_eq_some_iff.mp hmap
        exact ⟨attempt, hrow, congrArg Prod.fst heq, congrArg Prod.snd heq⟩
      exact ⟨1, hactive⟩

/-- **A RUNNING task out of reach**: the status update of a runner arrives after
its result has closed the attempt. -/
theorem running_not_scanned :
    let calls := sampleConnects ++ [.submit 0 ⟨0, .CODEX, sampleInput⟩, .dispatch 0,
      .message 0 (.TASK_RESULT ⟨.id 0, .status .COMPLETED, none, none⟩),
      .message 0 (.TASK_STATUS_UPDATE ⟨.id 0, .status .RUNNING⟩)]
    (hubMachine Env.sample HubCall.Typed).Reachable
        ((hubMachine Env.sample HubCall.Typed).exec Hub.sample calls) ∧
      ¬((hubMachine Env.sample HubCall.Typed).exec Hub.sample calls).rows.Scanned Env.sample := by
  intro calls
  have hruns : (hubMachine Env.sample HubCall.Typed).Runs Hub.sample calls := by decide
  refine ⟨(Machine.Reachable.of_start Hub.sample_fresh).exec hruns, fun hscanned => ?_⟩
  obtain ⟨final, hfinal⟩ : ∃ final, final =
    (hubMachine Env.sample HubCall.Typed).exec Hub.sample calls := ⟨_, rfl⟩
  have hrunning : (final.tasks 0).map (·.status) = some .RUNNING := by
    rw [hfinal]
    decide
  have hclosed : ∀ row ∈ final.attempts.toList, row.2.active = false := by
    rw [hfinal]
    decide
  obtain ⟨task, htask, hstatus⟩ := Option.map_eq_some_iff.mp hrunning
  rw [← hfinal] at hscanned
  obtain ⟨id, attempt, hlatest, hactive⟩ := hscanned htask hstatus
  have hrow : final.attempts id = some attempt := (latestAttempt_some hlatest).1
  rw [hclosed (id, attempt) (Table.mem_toList.mpr hrow)] at hactive
  cases hactive

end CodeCaller
