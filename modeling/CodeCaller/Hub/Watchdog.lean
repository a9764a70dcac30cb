import CodeCaller.Hub.ApprovalRuns
import CodeCaller.Hub.Failover
import CodeCaller.Hub.Timestamps

/-!
# The scan of the watchdog

`scanStuckTasksOnce` reads the stale tasks once and then handles them one after the other.  One
task is handled without touching what was read about the others, so the scan comes to a statement
about each task on its own: `scan_spec`.  That it never fires early rests on `updatedAt` alone:
whatever reaches the Hub about a task stamps it.

### The pieces

* `Rows.TimesOut`: a task was timed out through one of its attempts, and queued again or given up.
* `ScanResult`: what the rest of a scan comes to, with what it has read.  `ScanResult.skip` and
  `ScanResult.handle` are the two ways to go on by one row, and `scanLoop_spec` is the induction.
* `Hub.Stale`: what the scan looks for, in terms of the rows when it begins.
* `HubCall.Refreshes`: what is handled for a task.  Each such call stamps the task, or finds it not
  RUNNING (`refreshes_upToDate`), and an up-to-date task is not stale.
* `watchdog_exact`: both halves, over runs with a monotone clock.

The scan compares two dates, `updatedAt` of the task and `lastSeenAt` of the attempt.  For never
being early one of them is enough, and it has to be the first: a decision of the owner stamps the
task and leaves its attempt alone.
-/

namespace CodeCaller

open Async

variable {env : Env} {call : HubCall} {h h' : Hub} {r r' r'' : Rows} {taskId : TaskId}
  {id : TaskAttemptId}

/-! ## One task -/

/-- A task with its attempts and its jobs is as it was. -/
structure Rows.Untouched (r r' : Rows) (taskId : TaskId) : Prop where
  task : r'.tasks taskId = r.tasks taskId
  attempts : ∀ id attempt, attempt.taskId = taskId →
    (r'.attempts id = some attempt ↔ r.attempts id = some attempt)
  jobs : ∀ jobId job, job.taskId = some taskId →
    (r'.jobs jobId = some job ↔ r.jobs jobId = some job)

/-- One dispatch job was added for a task. -/
def Rows.JobAdded (r r' : Rows) (taskId : TaskId) : Prop :=
  ∃ new, (∀ job, job.taskId = some taskId → r.jobs new ≠ some job) ∧
    ∀ jobId job, job.taskId = some taskId →
      (r'.jobs jobId = some job ↔
        r.jobs jobId = some job ∨ jobId = new ∧ job = ⟨some taskId, 0, 5, .waiting⟩)

/-- What a scan makes of a task: it is queued again with a job, or given up. -/
def Rows.Requeued (env : Env) (r r' : Rows) (taskId : TaskId) : Prop :=
  ∃ task logs updatedAt, r.tasks taskId = some task ∧
    if r.timedOut taskId < TasksService.watchdogMaxRequeues env then
      r'.tasks taskId = some { task with status := .QUEUED, logs, updatedAt } ∧
        r.JobAdded r' taskId
    else
      r'.tasks taskId = some { task with status := .FAILED, logs, updatedAt } ∧
        ∀ jobId job, job.taskId = some taskId →
          (r'.jobs jobId = some job ↔ r.jobs jobId = some job)

/-- **A task was timed out through one of its attempts.** -/
structure Rows.TimesOut (env : Env) (r r' : Rows) (taskId : TaskId) (id : TaskAttemptId) :
    Prop where
  attempt : ∃ old finished, r.attempts id = some old ∧ old.taskId = taskId ∧
    r'.attempts id = some (old.expired env finished)
  others : ∀ other attempt, attempt.taskId = taskId → other ≠ id →
    (r'.attempts other = some attempt ↔ r.attempts other = some attempt)
  requeued : r.Requeued env r' taskId

theorem Rows.Untouched.refl (r : Rows) (taskId : TaskId) : r.Untouched r taskId :=
  ⟨rfl, fun _ _ _ => Iff.rfl, fun _ _ _ => Iff.rfl⟩

theorem Rows.Untouched.timedOut (hsame : r.Untouched r' taskId) :
    r'.timedOut taskId = r.timedOut taskId := by
  have hof : ∀ {attempt : TaskAttempt},
      (attempt.taskId == taskId && attempt.status == .TIMED_OUT) = true →
        attempt.taskId = taskId := fun hp => beq_iff_eq.mp (Bool.and_eq_true_iff.mp hp).1
  refine le_antisymm (Table.count_le fun id attempt hrow hp => ⟨attempt, ?_, hp⟩)
    (Table.count_le fun id attempt hrow hp => ⟨attempt, ?_, hp⟩)
  · exact (hsame.attempts id attempt (hof hp)).mp hrow
  · exact (hsame.attempts id attempt (hof hp)).mpr hrow

theorem Rows.Untouched.trans (hfirst : r.Untouched r' taskId)
    (hsecond : r'.Untouched r'' taskId) : r.Untouched r'' taskId where
  task := hsecond.task.trans hfirst.task
  attempts id attempt hof := (hsecond.attempts id attempt hof).trans
    (hfirst.attempts id attempt hof)
  jobs jobId job hof := (hsecond.jobs jobId job hof).trans (hfirst.jobs jobId job hof)

/-- A task that is timed out after others were handled. -/
theorem Rows.TimesOut.of_untouched (hfirst : r.Untouched r' taskId)
    (hsecond : r'.TimesOut env r'' taskId id) : r.TimesOut env r'' taskId id where
  attempt := by
    obtain ⟨old, finished, hold, hof, hexpired⟩ := hsecond.attempt
    exact ⟨old, finished, (hfirst.attempts id old hof).mp hold, hof, hexpired⟩
  others other attempt hof hne :=
    (hsecond.others other attempt hof hne).trans (hfirst.attempts other attempt hof)
  requeued := by
    obtain ⟨task, logs, updatedAt, htask, hcases⟩ := hsecond.requeued
    rw [hfirst.timedOut] at hcases
    refine ⟨task, logs, updatedAt, by rw [← hfirst.task, htask], ?_⟩
    split_ifs at hcases ⊢ with hbudget
    · obtain ⟨htask', new, hnew, hjobs⟩ := hcases
      refine ⟨htask', new, fun job hof hrow => hnew job hof ((hfirst.jobs new job hof).mpr hrow),
        fun jobId job hof => ?_⟩
      rw [hjobs jobId job hof, hfirst.jobs jobId job hof]
    · exact ⟨hcases.1, fun jobId job hof =>
        (hcases.2 jobId job hof).trans (hfirst.jobs jobId job hof)⟩

/-- A task that is timed out before others are handled. -/
theorem Rows.TimesOut.then_untouched (hfirst : r.TimesOut env r' taskId id)
    (hsecond : r'.Untouched r'' taskId) : r.TimesOut env r'' taskId id where
  attempt := by
    obtain ⟨old, finished, hold, hof, hexpired⟩ := hfirst.attempt
    exact ⟨old, finished, hold, hof,
      (hsecond.attempts id (old.expired env finished) hof).mpr hexpired⟩
  others other attempt hof hne :=
    (hsecond.attempts other attempt hof).trans (hfirst.others other attempt hof hne)
  requeued := by
    obtain ⟨task, logs, updatedAt, htask, hcases⟩ := hfirst.requeued
    refine ⟨task, logs, updatedAt, htask, ?_⟩
    split_ifs at hcases ⊢ with hbudget
    · obtain ⟨htask', new, hnew, hjobs⟩ := hcases
      refine ⟨by rw [hsecond.task, htask'], new, hnew, fun jobId job hof => ?_⟩
      rw [hsecond.jobs jobId job hof, hjobs jobId job hof]
    · exact ⟨by rw [hsecond.task, hcases.1], fun jobId job hof =>
        (hsecond.jobs jobId job hof).trans (hcases.2 jobId job hof)⟩

/-- The attempts of the other tasks do not see a change of one. -/
theorem modify_other_attempt {attempts : Table TaskAttempt} {old : TaskAttempt}
    {f : TaskAttempt → TaskAttempt} (hold : attempts id = some old)
    (hf : (f old).taskId = old.taskId) (hne : old.taskId ≠ taskId) (other : TaskAttemptId)
    (attempt : TaskAttempt) (hof : attempt.taskId = taskId) :
    attempts.modify id f other = some attempt ↔ attempts other = some attempt := by
  rw [Table.modify_apply]
  split
  · next heq =>
    subst heq
    rw [hold]
    refine iff_of_false (fun hsome => ?_) (fun hsome => ?_)
    · cases hsome
      exact hne (hf.symm.trans hof)
    · cases hsome
      exact hne hof
  · exact Iff.rfl

/-- **One task is handled**: it is timed out, and the others are left alone. -/
theorem timeOutTask_spec {task : Task} {attempt : TaskAttempt}
    (hstuck : Stuck h ((taskId, task), some (id, attempt))) :
    ∃ h', (TasksProcessor.timeOutTask env taskId task id attempt).run h = (.ok (), h') ∧
      h.rows.TimesOut env h'.rows taskId id ∧
      (∀ other, other ≠ taskId → h.rows.Untouched h'.rows other) ∧
      ∀ row, row.1.1 ≠ taskId → Stuck h row → Stuck h' row := by
  obtain ⟨hattempt, hid⟩ := hstuck.attempt id attempt rfl
  obtain ⟨h', finished, updated, logs, hrun, hcases⟩ := @timeOutTask_rows env h _ _ _ _ hstuck
  have hexpired : h.attempts.modify id (TaskAttempt.expired env finished) id =
      some (attempt.expired env finished) := by
    rw [Table.modify_apply, if_pos rfl, hattempt]
    rfl
  have hothers : ∀ other row, row.taskId = taskId → other ≠ id →
      (h.attempts.modify id (TaskAttempt.expired env finished) other = some row ↔
        h.attempts other = some row) := fun other row _ hne => by
    rw [Table.modify_apply, if_neg hne]
  have hframe : ∀ other, other ≠ taskId → ∀ id' row, row.taskId = other →
      (h.attempts.modify id (TaskAttempt.expired env finished) id' = some row ↔
        h.attempts id' = some row) := fun other hne id' row hof =>
    modify_other_attempt hattempt rfl (fun heq => hne (heq.symm.trans hid)) id' row hof
  have hnext : ∀ job, h.jobs h.jobs.next ≠ some job := fun job hrow => by
    rw [h.jobs.fresh _ le_rfl] at hrow
    cases hrow
  have hwritten : ∀ f : Task → Task, h.tasks.modify taskId f taskId = some (f task) := fun f => by
    rw [Table.modify_apply, if_pos rfl, hstuck.task]
    rfl
  have hkept : ∀ (f : Task → Task) other, other ≠ taskId →
      h.tasks.modify taskId f other = h.tasks other := fun f other hne => by
    rw [Table.modify_apply, if_neg hne]
  refine ⟨h', hrun, ?_⟩
  -- without another server the task fails, with one it is queued under a new job
  rcases hcases with ⟨hcount, hrows⟩ | ⟨hcount, hrows⟩
  · refine ⟨?_, fun other hne => ?_, fun row => Stuck.of_other hattempt hid
      (congrArg Rows.tasks hrows) (congrArg Rows.attempts hrows)⟩
    · rw [hrows]
      refine ⟨⟨attempt, finished, hattempt, hid, hexpired⟩, hothers, task, logs, updated,
        hstuck.task, ?_⟩
      rw [if_neg hcount.not_gt]
      exact ⟨hwritten _, fun _ _ _ => Iff.rfl⟩
    · rw [hrows]
      exact ⟨hkept _ other hne, hframe other hne, fun _ _ _ => Iff.rfl⟩
  · have hinsert : ∀ jobId job, (h.jobs.insert ⟨some taskId, 0, 5, .waiting⟩ jobId = some job ↔
        h.jobs jobId = some job ∨ jobId = h.jobs.next ∧ job = ⟨some taskId, 0, 5, .waiting⟩) := by
      intro jobId job
      rw [Table.insert_apply]
      split
      · next heq =>
        subst heq
        rw [Option.some.injEq, or_iff_right (hnext job), eq_comm, and_iff_right rfl]
      · next hne => rw [or_iff_left fun hnew => hne hnew.1]
    refine ⟨?_, fun other hne => ?_, fun row => Stuck.of_other hattempt hid
      (congrArg Rows.tasks hrows) (congrArg Rows.attempts hrows)⟩
    · rw [hrows]
      refine ⟨⟨attempt, finished, hattempt, hid, hexpired⟩, hothers, task, logs, updated,
        hstuck.task, ?_⟩
      rw [if_pos hcount]
      exact ⟨hwritten _, h.jobs.next, fun job _ => hnext job, fun jobId job _ => hinsert jobId job⟩
    · rw [hrows]
      refine ⟨hkept _ other hne, hframe other hne, fun jobId job hof => ?_⟩
      refine (hinsert jobId job).trans (or_iff_left fun hnew => hne ?_)
      rw [hnew.2] at hof
      exact (Option.some.inj hof).symm

/-! ## The scan -/

/-- A row of the scan whose attempt is active and stale. -/
def StaleRow (staleBefore : ℤ)
    (row : (TaskId × Task) × Option (TaskAttemptId × TaskAttempt)) (id : TaskAttemptId) : Prop :=
  ∃ attempt, row.2 = some (id, attempt) ∧ attempt.active = true ∧
    (attempt.lastSeenAt : ℤ) < staleBefore

/-- **What a scan comes to**: the tasks of the stale rows are timed out, and no other task is
touched. -/
def ScanResult (env : Env) (staleBefore : ℤ)
    (rows : List ((TaskId × Task) × Option (TaskAttemptId × TaskAttempt))) (r r' : Rows) : Prop :=
  ∀ taskId,
    (∃ row ∈ rows, row.1.1 = taskId ∧ ∃ id, StaleRow staleBefore row id ∧
      r.TimesOut env r' taskId id) ∨
    (∀ row ∈ rows, row.1.1 = taskId → ∀ id, ¬StaleRow staleBefore row id) ∧
      r.Untouched r' taskId

section Loop

variable {staleBefore : ℤ} {row : (TaskId × Task) × Option (TaskAttemptId × TaskAttempt)}
  {rest : List ((TaskId × Task) × Option (TaskAttemptId × TaskAttempt))}

/-- A row that is not stale is skipped. -/
theorem ScanResult.skip (hrow : ∀ id, ¬StaleRow staleBefore row id)
    (hrest : ScanResult env staleBefore rest r r') :
    ScanResult env staleBefore (row :: rest) r r' := by
  intro taskId
  rcases hrest taskId with ⟨other, hother, hof, htimed⟩ | ⟨hnone, hsame⟩
  · exact .inl ⟨other, List.mem_cons_of_mem _ hother, hof, htimed⟩
  · exact .inr ⟨List.forall_mem_cons.mpr ⟨fun _ => hrow, hnone⟩, hsame⟩

/-- A stale row is handled before the rest, which is about other tasks. -/
theorem ScanResult.handle (hrow : StaleRow staleBefore row id)
    (htimed : r.TimesOut env r' row.1.1 id)
    (hothers : ∀ other, other ≠ row.1.1 → r.Untouched r' other)
    (hfresh : ∀ other ∈ rest, other.1.1 ≠ row.1.1)
    (hrest : ScanResult env staleBefore rest r' r'') :
    ScanResult env staleBefore (row :: rest) r r'' := by
  intro taskId
  by_cases hfirst : taskId = row.1.1
  · subst hfirst
    refine .inl ⟨row, List.mem_cons_self, rfl, id, hrow, ?_⟩
    rcases hrest row.1.1 with ⟨other, hother, hof, -⟩ | ⟨-, hsame⟩
    · exact absurd hof (hfresh other hother)
    · exact htimed.then_untouched hsame
  · rcases hrest taskId with ⟨other, hother, hof, id', hstale, hlater⟩ | ⟨hnone, hsame⟩
    · exact .inl ⟨other, List.mem_cons_of_mem _ hother, hof, id', hstale,
        .of_untouched (hothers taskId hfirst) hlater⟩
    · exact .inr ⟨List.forall_mem_cons.mpr ⟨fun heq => absurd heq.symm hfirst, hnone⟩,
        (hothers taskId hfirst).trans hsame⟩

end Loop

/-- **The loop of the scan.** -/
theorem scanLoop_spec {staleBefore : ℤ}
    {rows : List ((TaskId × Task) × Option (TaskAttemptId × TaskAttempt))} {handled : ℕ}
    (hstuck : ∀ row ∈ rows, Stuck h row) (hnodup : (rows.map fun row => row.1.1).Nodup) :
    ∃ count h', (TasksProcessor.scanLoop env staleBefore rows handled).run h = (.ok count, h') ∧
      ScanResult env staleBefore rows h.rows h'.rows := by
  induction rows generalizing h handled with
  | nil => exact ⟨handled, h, rfl, fun taskId => .inr ⟨List.forall_mem_nil _, .refl _ _⟩⟩
  | cons row rest ih =>
      obtain ⟨hfresh, hnodup'⟩ := List.nodup_cons.mp hnodup
      have hrest : ∀ other ∈ rest, other.1.1 ≠ row.1.1 := fun other hother hsame =>
        hfresh (List.mem_map.mpr ⟨other, hother, hsame⟩)
      have hstuck' : ∀ other ∈ rest, Stuck h other := fun other hother =>
        hstuck other (List.mem_cons_of_mem _ hother)
      -- a task without an attempt, or with a fresh one, is passed over
      obtain ⟨⟨first, task⟩, latest⟩ := row
      cases latest with
      | none =>
          obtain ⟨count, h', hrun, hall⟩ := @ih h handled hstuck' hnodup'
          refine ⟨count, h', hrun, .skip ?_ hall⟩
          rintro id ⟨attempt, hlatest, -⟩
          cases hlatest
      | some found =>
          obtain ⟨id, attempt⟩ := found
          unfold TasksProcessor.scanLoop
          split
          · next hskip =>
            obtain ⟨count, h', hrun, hall⟩ := @ih h handled hstuck' hnodup'
            refine ⟨count, h', hrun, .skip ?_ hall⟩
            rintro id' ⟨other, hlatest, hactive, hstale⟩
            cases hlatest
            rw [hactive, Bool.not_true, Bool.false_or, decide_eq_true_eq] at hskip
            exact hstale.not_ge hskip
          · next hhandle =>
            rw [Bool.or_eq_true, not_or, Bool.not_eq_true', Bool.not_eq_false, decide_eq_true_eq,
              not_le] at hhandle
            -- a stale one is timed out, and the rest is still stuck
            obtain ⟨h₁, hrun, htimed, hothers, hkept⟩ :=
              @timeOutTask_spec env h first id task attempt (hstuck _ List.mem_cons_self)
            obtain ⟨count, h', hloop, hall⟩ := @ih h₁ (handled + 1) (fun other hother =>
              hkept other (hrest other hother) (hstuck' other hother)) hnodup'
            rw [Proc.run_bind_of_ok hrun]
            exact ⟨count, h', hloop, .handle ⟨attempt, rfl, hhandle⟩ htimed hothers hrest hall⟩

/-- **A task the scan times out**: it is RUNNING, and neither its row nor its latest attempt,
which is active, has changed within the timeout. -/
structure Hub.Stale (env : Env) (h : Hub) (taskId : TaskId) (id : TaskAttemptId) : Prop where
  row : ∃ task, h.tasks taskId = some task ∧ task.status = .RUNNING ∧
    task.updatedAt + TasksService.watchdogTimeoutMs env < env.clock h.reads
  attempt : ∃ attempt, latestAttempt env h.attempts taskId = some (id, attempt) ∧
    attempt.active = true ∧
    attempt.lastSeenAt + TasksService.watchdogTimeoutMs env < env.clock h.reads

/-- **The scan**, task by task. -/
theorem scan_spec (env : Env) (h : Hub) (taskId : TaskId) :
    (∃ id, h.Stale env taskId id ∧ h.rows.TimesOut env (h.after env .watchdog).rows taskId id) ∨
    (∀ id, ¬h.Stale env taskId id) ∧ h.rows.Untouched (h.after env .watchdog).rows taskId := by
  obtain ⟨h₁, hh₁⟩ : ∃ h₁ : Hub, h₁ = { h with reads := h.reads + 1 } := ⟨_, rfl⟩
  have hrows₁ : h₁.rows = h.rows := by
    rw [hh₁]
    rfl
  have htasks : h₁.tasks = h.tasks := congrArg Rows.tasks hrows₁
  have hattempts : h₁.attempts = h.attempts := congrArg Rows.attempts hrows₁
  obtain ⟨staleBefore, hstale⟩ : ∃ staleBefore : ℤ,
    staleBefore = (env.clock h.reads : ℤ) - TasksService.watchdogTimeoutMs env := ⟨_, rfl⟩
  obtain ⟨count, h', hrun, hall⟩ := @scanLoop_spec env h₁ staleBefore
    (TasksProcessor.stuckTasks env h₁ staleBefore) 0 (fun row => stuckTasks_stuck)
    (stuckTasks_nodup _)
  have hafter : h.after env .watchdog = h' := by
    unfold Hub.after perform TasksProcessor.scanStuckTasksOnce
    rw [hstale] at hrun
    rw [hh₁] at hrun
    simp only [Proc.run_bind, now_run, Proc.run_read, hrun]
    rfl
  have hcutoff : ∀ time : ℕ, (time : ℤ) < staleBefore ↔
      time + TasksService.watchdogTimeoutMs env < env.clock h.reads := fun time => by
    rw [hstale]
    omega
  rw [hafter]
  rcases hall taskId with ⟨row, hrow, rfl, id, ⟨attempt, hlatest, hactive, hseen⟩, htimed⟩ |
    ⟨hnone, hsame⟩
  · obtain ⟨htask, hrunning, hupdated, hattempt⟩ := mem_stuckTasks.mp hrow
    rw [htasks] at htask
    rw [hattempts, hlatest] at hattempt
    rw [hrows₁] at htimed
    exact .inl ⟨id, ⟨⟨row.1.2, htask, hrunning, (hcutoff _).mp hupdated⟩, attempt, hattempt.symm,
      hactive, (hcutoff _).mp hseen⟩, htimed⟩
  · rw [hrows₁] at hsame
    refine .inr ⟨?_, hsame⟩
    rintro id ⟨⟨task, htask, hrunning, hupdated⟩, attempt, hlatest, hactive, hseen⟩
    refine hnone ((taskId, task), latestAttempt env h₁.attempts taskId) (mem_stuckTasks.mpr ?_) rfl
      id ⟨attempt, ?_, hactive, (hcutoff _).mpr hseen⟩
    · rw [htasks]
      exact ⟨htask, hrunning, (hcutoff _).mpr hupdated, rfl⟩
    · rw [hattempts]
      exact hlatest

/-! ## Never early -/

/-- **What is handled for a task**: a dispatch job, unless it finds the task RUNNING and passes
it over, a status update, a log chunk, or a decision of the owner on its pending approval. -/
def HubCall.Refreshes (h : Hub) (taskId : TaskId) : HubCall → Prop
  | dispatch jobId =>
    (∃ job, h.jobs jobId = some job ∧ job.taskId = some taskId) ∧
      ∀ task, h.tasks taskId = some task → task.status ≠ .RUNNING
  | message _ (.TASK_STATUS_UPDATE payload) =>
    payload.taskId = .id taskId ∧ payload.status ≠ .invalid
  | message _ (.TASK_LOG payload) => payload.taskId = .id taskId
  | decideApproval ownerId approvalId _ =>
    ∃ approval, h.approvals approvalId = some approval ∧ approval.taskId = taskId ∧
      approval.status = .PENDING ∧ h.ownerOf taskId = some ownerId
  | _ => False

/-- A job that finds its task queued is about to write it. -/
theorem refreshes_dispatch {jobId : ℕ}
    (hjob : (h.jobs jobId).map (·.taskId) = some (some taskId))
    (hstatus : (h.tasks taskId).map (·.status) = some .QUEUED) :
    (HubCall.dispatch jobId).Refreshes h taskId := by
  refine ⟨Option.map_eq_some_iff.mp hjob, fun task htask hrunning => ?_⟩
  rw [htask, Option.map_some, hrunning] at hstatus
  cases hstatus

section Dated

variable {α β : Type} {time : Time}

/-- A task that was last written at some time or later. -/
def Hub.Dated (h : Hub) (taskId : TaskId) (time : Time) : Prop :=
  ∀ task, h.tasks taskId = some task → time ≤ task.updatedAt

/-- A task that is not RUNNING, or was last written at some time or later. -/
def Hub.UpToDate (h : Hub) (taskId : TaskId) (time : Time) : Prop :=
  ∀ task, h.tasks taskId = some task → task.status = .RUNNING → time ≤ task.updatedAt

/-- What is dated is up to date, RUNNING or not. -/
theorem Hub.Dated.upToDate (hdated : h.Dated taskId time) : h.UpToDate taskId time :=
  fun task htask _ => hdated task htask

/-- A stamped row is dated later still. -/
theorem Stamped.dated (hstamped : Stamped env h h') (htime : time ≤ env.clock h.reads)
    (hdated : h.Dated taskId time) : h'.Dated taskId time := by
  intro task' htask'
  rcases hstamped.task htask' with hkept | hlate
  · exact hdated task' hkept
  · exact htime.trans hlate

/-- A row that is not written stays up to date; one that is written is dated. -/
theorem Stamped.upToDate (hstamped : Stamped env h h') (htime : time ≤ env.clock h.reads)
    (hup : h.UpToDate taskId time) : h'.UpToDate taskId time := by
  intro task' htask' hrunning
  rcases hstamped.task htask' with hkept | hlate
  · exact hup task' hkept hrunning
  · exact htime.trans hlate

/-- What is dated stays so in the rest of a sequence. -/
theorem dated_of_rest (hclock : Monotone env.clock) {p : HubM α} {f : α → HubM β}
    (hp : p.Guarantees (Stamped env)) (hf : ∀ value, (f value).Guarantees (Stamped env))
    (htime : time ≤ env.clock h.reads) (hdated : (p.run h).2.Dated taskId time) :
    ((p >>= f).run h).2.Dated taskId time := by
  have hfirst := hp.run Stamped.refl (Stamped.trans hclock) h
  exact (Proc.Guarantees.run_rest hf Stamped.refl (Stamped.trans hclock) h).dated
    (htime.trans (hclock hfirst.reads)) hdated

/-- An update dates its task, if it is there. -/
theorem taskUpdate_dated {f : Task → Task} (hserver : ∀ task, (f task).serverId = task.serverId)
    (htime : time ≤ env.clock h.reads) :
    ((Prisma.taskUpdate env taskId f).run h).2.Dated taskId time := by
  cases htask : h.tasks taskId with
  | none =>
      rw [taskUpdate_run_none htask]
      intro task' htask'
      rw [htask] at htask'
      cases htask'
  | some task =>
      rw [taskUpdate_run htask (hserver task)]
      intro task' htask'
      rw [Table.modify_apply, if_pos rfl, htask] at htask'
      cases htask'
      exact htime

/-- A valid status dates its task. -/
theorem updateStatus_dated (hclock : Monotone env.clock) {status : StatusRef}
    {result : Option Json} (hvalid : status ≠ .invalid) (htime : time ≤ env.clock h.reads) :
    ((TasksService.updateStatus env (.id taskId) status result).run h).2.Dated taskId time := by
  unfold TasksService.updateStatus
  rw [Proc.run_bind_of_ok (show (Prisma.key (.id taskId)).run h = (.ok taskId, h) from rfl),
    if_neg hvalid]
  exact dated_of_rest hclock (taskUpdate_stamped _ _) (fun _ => (serverOf_stamped _).bind fun _ =>
    (notifyUser_stamped _ _).bind fun _ => Proc.guarantees_pure _) htime
      (taskUpdate_dated (fun _ => rfl) htime)

/-- What is dated after the attempt of a task was touched. -/
theorem touched_dated (hclock : Monotone env.clock) {f : Unit → HubM α}
    (hrest : ∀ h₁ : Hub, env.clock h.reads ≤ env.clock h₁.reads →
      ((f ()).run h₁).2.Dated taskId (env.clock h.reads)) :
    ((TasksService.touchRunningAttempt env (.id taskId) >>= f).run h).2.Dated taskId
      (env.clock h.reads) := by
  have hlater := hclock ((touchRunningAttempt_stamped (.id taskId)).run Stamped.refl
    (Stamped.trans hclock) h).reads
  obtain ⟨reads, htouch⟩ := @touchRunningAttempt_run env h (.id taskId) _ rfl
  rw [htouch] at hlater
  rw [Proc.run_bind_of_ok htouch]
  exact hrest _ hlater

/-- A status update dates its task. -/
theorem statusUpdate_dated (hclock : Monotone env.clock) {payload : DaemonTaskStatusPayload}
    (hid : payload.taskId = .id taskId) (hvalid : payload.status ≠ .invalid) :
    ((TasksService.handleDaemonTaskStatus env payload).run h).2.Dated taskId
      (env.clock h.reads) := by
  unfold TasksService.handleDaemonTaskStatus
  rw [hid]
  exact touched_dated hclock fun h₁ hlater => dated_of_rest hclock (updateStatus_stamped _ _ _)
    (fun _ => Proc.guarantees_pure _) hlater (updateStatus_dated hclock hvalid hlater)

/-- A log chunk dates its task. -/
theorem taskLog_dated (hclock : Monotone env.clock) (hs : h.rows.Sound)
    {payload : DaemonTaskLogPayload} (hid : payload.taskId = .id taskId) :
    ((TasksService.handleDaemonTaskLog env payload).run h).2.Dated taskId
      (env.clock h.reads) := by
  unfold TasksService.handleDaemonTaskLog
  rw [hid, Proc.run_bind_of_ok (show (Prisma.key (.id taskId)).run h = (.ok taskId, h) from rfl)]
  cases htask : h.tasks taskId with
  | none =>
      have hnone : (Prisma.taskFindUniqueWithServer taskId).run h = (.ok none, h) := by
        change (Except.ok (h.taskWithServer taskId), h) = _
        unfold Hub.taskWithServer
        rw [htask]
        rfl
      rw [Proc.run_bind_of_ok hnone]
      intro task' htask'
      rw [show h.tasks taskId = some task' from htask'] at htask
      cases htask
  | some task =>
      obtain ⟨home, -, hfound⟩ := taskFindUniqueWithServer_run hs htask
      rw [Proc.run_bind_of_ok hfound]
      exact touched_dated hclock fun h₁ hlater => dated_of_rest hclock (taskUpdate_stamped _ _)
        (fun _ => notifyUser_stamped _ _) hlater (taskUpdate_dated (fun _ => rfl) hlater)

/-- A decision dates the task of its approval. -/
theorem decide_dated (hclock : Monotone env.clock) {ownerId : UserId} {approvalId : ApprovalId}
    {dto : DecideApprovalDto} {approval : Approval}
    (happroval : h.approvals approvalId = some approval) (hpending : approval.status = .PENDING)
    (howns : h.ownerOf approval.taskId = some ownerId) :
    ((ApprovalsService.decide env ownerId approvalId dto).run h).2.Dated approval.taskId
      (env.clock h.reads) := by
  obtain ⟨task, -, htask, -⟩ := ownerOf_some (r := h.rows) howns
  obtain ⟨h', hrun, hrows⟩ := @decide_run env h ownerId approvalId dto approval task happroval
    hpending htask howns
  have htasks : h'.tasks = _ := congrArg Rows.tasks hrows
  rw [hrun]
  intro task' htask'
  rw [htasks, Table.modify_apply, if_pos rfl] at htask'
  obtain ⟨row, -, rfl⟩ := Option.map_eq_some_iff.mp htask'
  exact hclock (Nat.le_succ _)

end Dated

/-- **What is handled for a task stamps it**, unless the task is not RUNNING. -/
theorem refreshes_upToDate (hclock : Monotone env.clock) (hs : h.rows.Sound)
    (hrefreshes : call.Refreshes h taskId) :
    (h.after env call).UpToDate taskId (env.clock h.reads) := by
  cases call with
  | dispatch jobId =>
      intro task' htask' hrunning
      rcases (after_stamped hclock h (.dispatch jobId)).task htask' with hkept | hlate
      · exact absurd hrunning (hrefreshes.2 task' hkept)
      · exact hlate
  | message socketId inbound =>
      have htasks : (h.after env (.message socketId inbound)).tasks =
          ((DaemonGateway.onMessage env socketId inbound).run h).2.tasks :=
        congrArg Rows.tasks (message_rows env h socketId inbound)
      refine Hub.Dated.upToDate fun task' htask' => ?_
      rw [htasks] at htask'
      cases inbound with
      | TASK_STATUS_UPDATE payload =>
          exact statusUpdate_dated hclock hrefreshes.1 hrefreshes.2 task' htask'
      | TASK_LOG payload => exact taskLog_dated hclock hs hrefreshes task' htask'
      | HEARTBEAT => exact hrefreshes.elim
      | TASK_RESULT payload => exact hrefreshes.elim
      | APPROVAL_REQUEST payload => exact hrefreshes.elim
  | decideApproval ownerId approvalId dto =>
      obtain ⟨approval, happroval, rfl, hpending, howns⟩ := hrefreshes
      exact (dated_of_rest hclock (decide_stamped _ _ _) (fun _ => Proc.guarantees_pure _) le_rfl
        (decide_dated hclock happroval hpending howns)).upToDate
  | _ => exact hrefreshes.elim

/-- A task that was stamped within the timeout is not stale. -/
theorem Hub.UpToDate.not_stale {time : Time} (hup : h.UpToDate taskId time)
    (hsoon : env.clock h.reads ≤ time + TasksService.watchdogTimeoutMs env) :
    ¬h.Stale env taskId id := by
  rintro ⟨⟨task, htask, hrunning, hstale⟩, -⟩
  have hlate := hup task htask hrunning
  exact absurd (lt_of_le_of_lt (Nat.add_le_add_right hlate _) hstale) hsoon.not_gt

/-! ## Runs -/

/-- **The watchdog fires neither early nor at random.**  In every run, a task for which something
was handled is left alone by every scan within the timeout; and every scan times out exactly the
stale tasks, each through its latest attempt, and touches no other task. -/
theorem watchdog_exact {allowed : HubCall → Prop} (hclock : Monotone env.clock) {first : Hub}
    {calls : List HubCall} (hstart : first.Fresh)
    (hruns : (hubMachine env allowed).Runs first calls) :
    (∀ front call middle back, calls = front ++ call :: (middle ++ .watchdog :: back) → ∀ taskId,
      call.Refreshes ((hubMachine env allowed).exec first front) taskId →
      env.clock ((hubMachine env allowed).exec first (front ++ call :: middle)).reads ≤
        env.clock ((hubMachine env allowed).exec first front).reads +
          TasksService.watchdogTimeoutMs env →
      ((hubMachine env allowed).exec first (front ++ call :: middle)).rows.Untouched
        ((hubMachine env allowed).exec first (front ++ call :: (middle ++ [.watchdog]))).rows
        taskId) ∧
    ∀ front back, calls = front ++ .watchdog :: back → ∀ taskId,
      (∃ id, ((hubMachine env allowed).exec first front).Stale env taskId id ∧
        ((hubMachine env allowed).exec first front).rows.TimesOut env
          ((hubMachine env allowed).exec first (front ++ [.watchdog])).rows taskId id) ∨
      (∀ id, ¬((hubMachine env allowed).exec first front).Stale env taskId id) ∧
        ((hubMachine env allowed).exec first front).rows.Untouched
          ((hubMachine env allowed).exec first (front ++ [.watchdog])).rows taskId := by
  have hreach : (hubMachine env allowed).Reachable first := .of_start hstart
  constructor
  · rintro front call middle back rfl taskId hrefreshes hsoon
    have hfront := hreach.exec ((Machine.runs_append _ _ _ _).mp hruns).1
    -- the call stamps the task, and no later call takes that back
    have hup := refreshes_upToDate (h := (hubMachine env allowed).exec first front) hclock
      (reachable_sound hfront) hrefreshes
    have hfirst := after_stamped hclock ((hubMachine env allowed).exec first front) call
    have hmiddle := @Machine.exec_related _ _ (hubMachine env allowed) (Stamped env) Stamped.refl
      (Stamped.trans hclock) (((hubMachine env allowed).exec first front).after env call) middle
      fun visit _ => after_stamped hclock visit.1 visit.2
    have hlater := hmiddle.upToDate (hclock hfirst.reads) hup
    rw [Machine.exec_append] at hsoon
    rw [Machine.exec_append, Machine.exec_append, Machine.exec_cons, Machine.exec_cons,
      Machine.exec_append]
    rcases scan_spec env ((hubMachine env allowed).exec
      (((hubMachine env allowed).exec first front).after env call) middle) taskId with
      ⟨id, hstale, -⟩ | ⟨-, hsame⟩
    · exact absurd hstale (hlater.not_stale hsoon)
    · exact hsame
  · rintro front back rfl taskId
    rw [Machine.exec_append]
    exact scan_spec env _ taskId

/-- **A task just dispatched is left alone** by the scan that follows. -/
theorem watchdog_exact_sample :
    let env := { Env.sample with clock := fun reads => 60000 * reads }
    let front := sampleConnects ++ [.submit 0 ⟨0, .CODEX, sampleInput⟩]
    let final := (hubMachine env HubCall.Typed).exec Hub.sample
    (final (front ++ [.dispatch 0])).rows.Untouched
      (final (front ++ .dispatch 0 :: ([] ++ [.watchdog]))).rows 0 := by
  intro env front final
  have hclock : Monotone env.clock := fun _ _ hle => Nat.mul_le_mul_left 60000 hle
  have hruns : (hubMachine env HubCall.Typed).Runs Hub.sample
      (front ++ .dispatch 0 :: ([] ++ [.watchdog])) := by decide
  have hrefreshes : (HubCall.dispatch 0).Refreshes (final front) 0 :=
    refreshes_dispatch (by decide) (by decide)
  have hsoon : (final (front ++ [.dispatch 0])).reads ≤ (final front).reads + 10 := by
    decide
  have htimeout : TasksService.watchdogTimeoutMs env = 900000 := by decide
  have hlate : 60000 * (final (front ++ [.dispatch 0])).reads ≤
      60000 * (final front).reads + 900000 := by omega
  have hexact := (watchdog_exact hclock Hub.sample_fresh hruns).1 front (.dispatch 0) [] [] rfl
  have huntouched := hexact 0 hrefreshes
  rw [htimeout] at huntouched
  exact huntouched hlate

end CodeCaller
