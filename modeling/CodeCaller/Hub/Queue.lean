import CodeCaller.Hub.Attempts

/-!
# Queued tasks and their jobs

A queued task waits for a dispatch job, and a job that has used its attempts is never run again.
`GivesUp` is the one step that strands a task: the last attempt at its last job, while no candidate
can be reached.  Every other step keeps a waiting job for each queued task, so that a run without
such a step is one in which no task is stranded, and conversely.

### Main results

* `Effect.live`: all effects but those of dispatch keep a waiting job for each queued task.
* `dispatch_live_iff`: a job strands a task exactly when it gives it up.  This rests on `Processed`
  from `Hub.DispatchEffects`: a processor that returned has left no queued task, and one that threw
  has left its task queued.
* `queue_live_iff`: the equivalence over runs, by `Machine.holds_along_iff`: one call keeps the
  property exactly when it meets the condition.

`queue_not_live` is the run of five attempts without a daemon.  The processor has no branch for the
last attempt, and BullMQ does not tell the database that a job has failed.
-/

namespace CodeCaller

open Async

variable {env : Env} {call : HubCall} {r r' : Rows} {h : Hub}

/-! ## The invariant -/

/-- **A waiting job for a task**: it can still run. -/
def Rows.Pending (r : Rows) (taskId : TaskId) (jobId : ℕ) : Prop :=
  ∃ job, r.jobs jobId = some job ∧ job.taskId = some taskId ∧ job.state = .waiting

/-- **No task is stranded**: each queued task has a waiting job. -/
def Rows.Live (r : Rows) : Prop :=
  ∀ ⦃taskId task⦄, r.tasks taskId = some task → task.status = .QUEUED →
    ∃ jobId, r.Pending taskId jobId

/-- **A dispatch that gives its task up**: the job has no attempt left after this
one, the queued task cannot be placed, and no other job waits for it. -/
def Hub.GivesUp (h : Hub) (jobId : ℕ) : Prop :=
  ∃ job taskId task, h.jobs jobId = some job ∧ job.attempts ≤ job.attemptsMade + 1 ∧
    job.taskId = some taskId ∧ h.tasks taskId = some task ∧ task.status = .QUEUED ∧
    ¬h.rows.Dispatchable taskId ∧ ∀ other, h.rows.Pending taskId other → other = jobId

/-- A call that gives no task up. -/
def HubCall.Retains (h : Hub) : HubCall → Prop
  | dispatch jobId => ¬h.GivesUp jobId
  | _ => True

/-! ## One effect -/

/-- Jobs are added; only dispatch changes one. -/
theorem Effect.jobs_kept (h : Effect env call r r') (hcall : ∀ jobId, call ≠ .dispatch jobId)
    {jobId : ℕ} {job : DispatchJob} (hjob : r.jobs jobId = some job) :
    r'.jobs jobId = some job := by
  have hinsert : ∀ added : DispatchJob, r.jobs.insert added jobId = some job := fun added => by
    rw [Table.insert_apply, if_neg (Table.lt_next hjob).ne]
    exact hjob
  cases h with
  | submitted => exact hinsert _
  | failedOver => exact hinsert _
  | requeued => exact hinsert _
  | jobTaken _ hdispatch => exact absurd hdispatch (hcall _)
  | _ => exact hjob

/-- **A new task** is one that was submitted, with a job. -/
theorem Effect.task_submitted (h : Effect env call r r') {taskId : TaskId} {task' : Task}
    (htask : r.tasks taskId = none) (htask' : r'.tasks taskId = some task') :
    (∃ ownerId dto, call = .submit ownerId dto) ∧
      r'.jobs = r.jobs.insert ⟨some taskId, 0, 5, .waiting⟩ := by
  have hmodify : ∀ {other f}, r'.tasks = r.tasks.modify other f → False := fun {other f} heq => by
    rw [heq, Table.modify_apply] at htask'
    split at htask'
    · next hid =>
      rw [← hid, htask] at htask'
      cases htask'
    · rw [htask] at htask'
      cases htask'
  have hsame : r'.tasks = r.tasks → False := fun heq => by
    rw [heq, htask] at htask'
    cases htask'
  cases h with
  | submitted date hcall =>
      rw [Table.insert_apply] at htask'
      split at htask'
      · next heq => exact ⟨⟨_, _, hcall⟩, by rw [heq]⟩
      · rw [htask] at htask'
        cases htask'
  | relabelled => exact (hmodify rfl).elim
  | failedOver => exact (hmodify rfl).elim
  | assigned => exact (hmodify rfl).elim
  | expired => exact (hmodify rfl).elim
  | requeued => exact (hmodify rfl).elim
  | serverDeleted =>
      have hrow := (Option.filter_eq_some_iff.mp htask').1
      rw [htask] at hrow
      cases hrow
  | _ => exact (hsame rfl).elim

/-- A queued task was queued before, or a job was added for it, and not by
dispatch. -/
theorem Effect.queued_origin (h : Effect env call r r') (htyped : call.Typed) {taskId : TaskId}
    {task' : Task} (htask' : r'.tasks taskId = some task') (hqueued : task'.status = .QUEUED) :
    (∃ task, r.tasks taskId = some task ∧ task.status = .QUEUED) ∨
      (∀ jobId, call ≠ .dispatch jobId) ∧
        r'.jobs = r.jobs.insert ⟨some taskId, 0, 5, .waiting⟩ := by
  cases htask : r.tasks taskId with
  | none =>
      obtain ⟨⟨ownerId, dto, hcall⟩, hjobs⟩ := h.task_submitted htask htask'
      exact .inr ⟨fun jobId hdispatch => (by rw [hcall] at hdispatch; cases hdispatch), hjobs⟩
  | some task =>
      by_cases hbefore : task.status = .QUEUED
      · exact .inl ⟨task, rfl, hbefore⟩
      · obtain ⟨hcauses, hjobs⟩ := h.queues htyped htask hbefore htask' hqueued
        refine .inr ⟨fun jobId hdispatch => ?_, hjobs⟩
        rcases hcauses with ⟨_, _, _, _, hcall, -⟩ | ⟨_, _, _, hcall, -⟩
        · rw [hcall] at hdispatch
          cases hdispatch
        · rw [hcall] at hdispatch
          cases hdispatch

/-- **Every effect but those of dispatch keeps a job for each queued task.** -/
theorem Effect.live (h : Effect env call r r') (htyped : call.Typed)
    (hcall : ∀ jobId, call ≠ .dispatch jobId) (hl : r.Live) : r'.Live := by
  intro taskId task' htask' hqueued
  rcases h.queued_origin htyped htask' hqueued with ⟨task, htask, hbefore⟩ | ⟨-, hjobs⟩
  · obtain ⟨jobId, job, hjob, hpending⟩ := hl htask hbefore
    exact ⟨jobId, job, h.jobs_kept hcall hjob, hpending⟩
  · refine ⟨r.jobs.next, ⟨some taskId, 0, 5, .waiting⟩, ?_, rfl, rfl⟩
    rw [hjobs, Table.insert_apply, if_pos rfl]

/-! ## One job -/

/-- A task that is queued while a job is processed was queued before. -/
theorem Processed.queued {job : DispatchJob} {outcome : Except HubError Unit} {h' : Hub}
    {jobId : ℕ} (hp : Processed env (.dispatch jobId) job h outcome h') {taskId : TaskId}
    {task' : Task} (htask' : h'.tasks taskId = some task') (hqueued : task'.status = .QUEUED) :
    ∃ task, h.tasks taskId = some task ∧ task.status = .QUEUED := by
  have hchain := hp.chain
  change h'.rows.tasks taskId = some task' at htask'
  generalize h'.rows = r at hchain htask'
  induction hchain generalizing task' with
  | refl => exact ⟨task', htask', hqueued⟩
  | tail _ hstep ih =>
      rcases hstep.queued_origin trivial htask' hqueued with ⟨task, htask, hbefore⟩ | ⟨hnot, -⟩
      · exact ih hbefore htask
      · exact absurd rfl (hnot jobId)

/-- After a job was taken, the jobs that wait are the other ones, and it, if it
threw and has attempts left. -/
theorem pending_after {job : DispatchJob} {outcome : Except HubError Unit} {h' : Hub} {jobId : ℕ}
    (hjobs : h'.jobs = h.jobs) (hjob : h.jobs jobId = some job) (hwaiting : job.state = .waiting)
    {taskId : TaskId} {other : ℕ} :
    ({ h' with jobs := h'.jobs.modify jobId fun _ => job.after outcome } : Hub).rows.Pending
        taskId other ↔
      h.rows.Pending taskId other ∧ (other = jobId →
        (∃ error, outcome = .error error) ∧ job.attemptsMade + 1 < job.attempts) := by
  unfold Rows.Pending
  change (∃ row, h'.jobs.modify jobId (fun _ => job.after outcome) other = some row ∧ _ ∧ _) ↔
    (∃ row, h.jobs other = some row ∧ _ ∧ _) ∧ _
  rw [hjobs, Table.modify_apply]
  by_cases hsame : other = jobId
  · subst hsame
    rw [if_pos rfl, hjob]
    cases outcome with
    | ok => simp [DispatchJob.after]
    | error error =>
        by_cases hleft : job.attemptsMade + 1 ≥ job.attempts <;>
          simp [DispatchJob.after, hleft, hwaiting]
        omega
  · simp [hsame]

/-- **A job strands a task exactly when it gives it up.** -/
theorem dispatch_live_iff {jobId : ℕ} (hready : HubCall.ready h (.dispatch jobId))
    (hl : h.rows.Live) : (h.after env (.dispatch jobId)).rows.Live ↔ ¬h.GivesUp jobId := by
  obtain ⟨job, hjob, hwaiting⟩ := hready
  obtain ⟨outcome, h', hprocessed, hrun⟩ := @runJob_run env (.dispatch jobId) h jobId job rfl hjob
  have hafter : h.after env (.dispatch jobId) =
      { h' with jobs := h'.jobs.modify jobId fun _ => job.after outcome } := by
    change ((runJob env jobId >>= fun _ => pure Response.done).run h).2 = _
    rw [Proc.run_bind_of_ok hrun]
    rfl
  have hpending := @pending_after h job outcome h' jobId hprocessed.jobs hjob hwaiting
  rw [hafter]
  constructor
  · rintro hl' ⟨job', taskId, task, hjob', hlast, hid, htask, hqueued, hplace, honly⟩
    obtain rfl : job = job' := Option.some.inj (hjob.symm.trans hjob')
    cases outcome with
    | ok value => exact hplace (hprocessed.placed value rfl taskId task hid htask hqueued)
    | error error =>
        obtain ⟨other, task', hother, htask', hqueued', -⟩ := hprocessed.threw error rfl
        rw [hid] at hother
        cases hother
        obtain ⟨next, hnext⟩ := hl' htask' hqueued'
        obtain ⟨hbefore, hretry⟩ := hpending.mp hnext
        have hleft := (hretry (honly next hbefore)).2
        omega
  · intro hkeeps taskId task' htask' hqueued'
    change h'.tasks taskId = some task' at htask'
    obtain ⟨task, htask, hqueued⟩ := hprocessed.queued htask' hqueued'
    obtain ⟨other, hother⟩ := hl htask hqueued
    by_cases hsame : other = jobId
    · -- the job that was taken is the one the task waits for
      subst hsame
      have hid : job.taskId = some taskId := by
        obtain ⟨job', hjob', hid, -⟩ := hother
        obtain rfl : job = job' := Option.some.inj (hjob.symm.trans hjob')
        exact hid
      cases outcome with
      | ok value => exact absurd hqueued' (hprocessed.returned value rfl taskId task' hid htask')
      | error error =>
          obtain ⟨threw, _, hthrew, -, -, hplace⟩ := hprocessed.threw error rfl
          rw [hid] at hthrew
          cases hthrew
          by_cases hlast : job.attempts ≤ job.attemptsMade + 1
          · by_contra hnone
            refine hkeeps ⟨job, taskId, task, hjob, hlast, hid, htask, hqueued, hplace,
              fun next hnext => ?_⟩
            by_contra hne
            exact hnone ⟨next, hpending.mpr ⟨hnext, fun heq => absurd heq hne⟩⟩
          · exact ⟨other, hpending.mpr ⟨hother, fun _ => ⟨⟨error, rfl⟩, not_le.mp hlast⟩⟩⟩
    · exact ⟨other, hpending.mpr ⟨hother, fun heq => absurd heq hsame⟩⟩

/-! ## Runs -/

/-- **One call keeps a job for each queued task exactly when it gives none
up.** -/
theorem after_live_iff (htyped : call.Typed) (hready : call.ready h) (hl : h.rows.Live) :
    (h.after env call).rows.Live ↔ call.Retains h := by
  by_cases hdispatch : ∃ jobId, call = .dispatch jobId
  · obtain ⟨jobId, rfl⟩ := hdispatch
    exact dispatch_live_iff hready hl
  · have hcall : ∀ jobId, call ≠ .dispatch jobId := fun jobId heq => hdispatch ⟨jobId, heq⟩
    have hretains : call.Retains h := by
      cases call <;> first | trivial | exact absurd rfl (hcall _)
    refine iff_of_true ?_ hretains
    have hchain := after_effects env h call
    generalize (h.after env call).rows = r at hchain ⊢
    induction hchain with
    | refl => exact hl
    | tail _ hstep ih => exact hstep.live htyped hcall ih

/-- At the beginning nothing is queued. -/
theorem Hub.Fresh.live (hstart : h.Fresh) : h.rows.Live := by
  intro taskId task htask
  rw [show h.rows.tasks = Table.empty from hstart.tasks] at htask
  cases htask

/-- **No task is stranded in the queue** in a run exactly when no dispatch of the
run gives a task up. -/
theorem queue_live_iff {first : Hub} {calls : List HubCall} (hstart : first.Fresh)
    (hruns : (hubMachine env HubCall.Typed).Runs first calls) :
    (∀ front back, calls = front ++ back →
      ((hubMachine env HubCall.Typed).exec first front).rows.Live) ↔
    ∀ visit ∈ (hubMachine env HubCall.Typed).visits first calls, visit.2.Retains visit.1 := by
  refine Machine.holds_along_iff (P := fun h : Hub => h.rows.Live)
    (C := fun (h : Hub) (call : HubCall) => call.Retains h) hstart.live fun visit hvisit hlive => ?_
  obtain ⟨htyped, -, hready⟩ := hruns visit hvisit
  exact after_live_iff htyped hready hlive

/-- While every job has attempts left no task is given up. -/
theorem HubCall.retains_of_left
    (hleft : ∀ row ∈ h.jobs.toList, row.2.attemptsMade + 1 < row.2.attempts) :
    call.Retains h := by
  cases call with
  | dispatch jobId =>
      rintro ⟨job, -, -, hjob, hlast, -⟩
      exact absurd (hleft (jobId, job) (Table.mem_toList.mpr hjob)) (not_lt.mpr hlast)
  | _ => trivial

/-- A task that finds nobody twice, and then its daemon. -/
theorem queue_live_retried :
    let calls : List HubCall := [.submit 0 ⟨0, .CODEX, sampleInput⟩, .dispatch 0, .dispatch 0,
      .openSocket (some (js "a")), .handleConnection 0, .dispatch 0]
    ∀ front back, calls = front ++ back →
      ((hubMachine Env.sample HubCall.Typed).exec Hub.sample front).rows.Live := by
  intro calls
  have hruns : (hubMachine Env.sample HubCall.Typed).Runs Hub.sample calls := by decide
  have hleft : ∀ visit ∈ (hubMachine Env.sample HubCall.Typed).visits Hub.sample calls,
      ∀ row ∈ visit.1.jobs.toList, row.2.attemptsMade + 1 < row.2.attempts := by decide
  exact (queue_live_iff Hub.sample_fresh hruns).mpr fun visit hvisit =>
    HubCall.retains_of_left (hleft visit hvisit)

/-- **A stranded task**: no daemon is connected for as long as the five attempts
at its job last. -/
theorem queue_not_live :
    let calls : List HubCall := [.submit 0 ⟨0, .CODEX, sampleInput⟩, .dispatch 0, .dispatch 0,
      .dispatch 0, .dispatch 0, .dispatch 0]
    (hubMachine Env.sample HubCall.Typed).Reachable
        ((hubMachine Env.sample HubCall.Typed).exec Hub.sample calls) ∧
      ¬((hubMachine Env.sample HubCall.Typed).exec Hub.sample calls).rows.Live := by
  intro calls
  have hruns : (hubMachine Env.sample HubCall.Typed).Runs Hub.sample calls := by decide
  refine ⟨(Machine.Reachable.of_start Hub.sample_fresh).exec hruns, fun hl => ?_⟩
  obtain ⟨final, hfinal⟩ : ∃ final, final =
    (hubMachine Env.sample HubCall.Typed).exec Hub.sample calls := ⟨_, rfl⟩
  have hstatus : (final.tasks 0).map (·.status) = some .QUEUED := by
    rw [hfinal]
    decide
  have hnext : final.jobs.next = 1 := by
    rw [hfinal]
    decide
  have hfailed : (final.jobs 0).map (·.state) = some .failed := by
    rw [hfinal]
    decide
  obtain ⟨task, htask, hqueued⟩ := Option.map_eq_some_iff.mp hstatus
  rw [← hfinal] at hl
  obtain ⟨jobId, job, hjob, -, hwaiting⟩ := hl htask hqueued
  have hid : jobId < final.jobs.next := Table.lt_next hjob
  obtain rfl : jobId = 0 := by omega
  rw [show final.jobs 0 = some job from hjob, Option.map_some, hwaiting] at hfailed
  cases hfailed

end CodeCaller
