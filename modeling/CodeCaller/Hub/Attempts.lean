import CodeCaller.Hub.Integrity

/-!
# The discipline of attempts

A task has at most one active attempt, the latest, and none while it is queued.  Every handler
chooses the attempt it writes by a query of its own; that all of them find the same one rests on
the joint invariant `Disciplined` of tasks and attempts.  A closed attempt is never written again.

### Main results

* `AttemptChange.closed_kept`, `exec_finishes`: closed attempts are final.  This needs no
  invariant, since every update is of an attempt that was active when it was chosen.
* `Effect.queues`: the two ways back into the queue, each with an attempt that is closed and a job
  that is added.
* `Effect.disciplined`: every effect of a typed call preserves the discipline.
* `attempt_discipline`: what this comes to over runs.

### What is load-bearing

**`Rows.Disciplined.queued`.**  Dispatch opens attempts for queued tasks only, so uniqueness of the
active attempt follows if a queued task has none.  That in turn is kept because whoever queues a
task again closes its latest active attempt first, and the latest is the only one: the two halves
of the invariant prove each other.

**Typed calls.**  A daemon that sends the status `QUEUED`, which the contract does not let it send,
queues a task with a running attempt, and the next dispatch opens a second one.
-/

namespace CodeCaller

open Async

variable {env : Env} {call : HubCall} {r r' : Rows}

/-! ## Closed attempts -/

/-- An attempt that timed out stays an attempt of its task. -/
@[simp] theorem TaskAttempt.expired_taskId (finished : Time) (attempt : TaskAttempt) :
    (attempt.expired env finished).taskId = attempt.taskId := rfl

/-- A result closes an attempt whatever its status is. -/
@[simp] theorem TaskAttempt.closed_active (payload : DaemonTaskResultPayload)
    (lastSeen finished : Time) (attempt : TaskAttempt) :
    (attempt.closed payload lastSeen finished).active = false := by
  unfold TaskAttempt.closed TaskAttempt.active
  split
  · rfl
  · dsimp only
    split <;> rfl

/-- A closed attempt has an end. -/
@[simp] theorem TaskAttempt.closed_finishedAt (payload : DaemonTaskResultPayload)
    (lastSeen finished : Time) (attempt : TaskAttempt) :
    (attempt.closed payload lastSeen finished).finishedAt = some finished := by
  unfold TaskAttempt.closed
  split <;> rfl

/-- A closed attempt is left as it is, or deleted. -/
theorem AttemptChange.closed_kept {id : TaskAttemptId} {attempt : TaskAttempt}
    {row' : Option TaskAttempt} (h : AttemptChange env call r id (some attempt) row')
    (hclosed : attempt.active = false) : row' = some attempt ∨ row' = none := by
  cases h with
  | kept => exact .inl rfl
  | touched _ _ _ _ hactive =>
      rw [hclosed] at hactive
      cases hactive
  | settled _ _ _ _ _ hactive =>
      rw [hclosed] at hactive
      cases hactive
  | expired _ _ hactive =>
      rw [hclosed] at hactive
      cases hactive
  | deleted => exact .inr rfl

/-- **Closed attempts are final**: what is left of them is unchanged, and what
was deleted stays so. -/
structure Rows.Finishes (r r' : Rows) : Prop where
  next : r.attempts.next ≤ r'.attempts.next
  closed : ∀ {id attempt}, r.attempts id = some attempt → attempt.active = false →
    r'.attempts id = some attempt ∨ r'.attempts id = none
  gone : ∀ {id}, id < r.attempts.next → r.attempts id = none → r'.attempts id = none

/-- Nothing happens. -/
theorem Rows.Finishes.refl (r : Rows) : r.Finishes r :=
  ⟨le_rfl, fun hrow _ => .inl hrow, fun _ hnone => hnone⟩

/-- What is final over each part of a run is final over the whole. -/
theorem Rows.Finishes.trans {r'' : Rows} (h : r.Finishes r') (h' : r'.Finishes r'') :
    r.Finishes r'' where
  next := h.next.trans h'.next
  closed {id attempt} hrow hclosed := by
    rcases h.closed hrow hclosed with hkept | hgone
    · exact h'.closed hkept hclosed
    · exact .inr (h'.gone ((Table.lt_next hrow).trans_le h.next) hgone)
  gone {id} hold hnone := h'.gone (hold.trans_le h.next) (h.gone hold hnone)

/-- An update takes no new number. -/
theorem updateActive_next (env : Env) (selects : TaskId → Bool) (f : TaskAttempt → TaskAttempt)
    (attempts : Table TaskAttempt) :
    (updateActive env selects f attempts).next = attempts.next := by
  unfold updateActive
  split <;> rfl

/-- Keys of attempts are generated upwards. -/
theorem Effect.attempts_next (h : Effect env call r r') : r.attempts.next ≤ r'.attempts.next := by
  cases h with
  | touched => exact (updateActive_next _ _ _ _).ge
  | settled => exact (updateActive_next _ _ _ _).ge
  | failedOver => exact (updateActive_next _ _ _ _).ge
  | assigned => exact Nat.le_succ _
  | rejected => exact Nat.le_succ _
  | _ => exact le_rfl

/-- One effect leaves closed attempts as they are. -/
theorem Effect.finishes (h : Effect env call r r') : r.Finishes r' where
  next := h.attempts_next
  closed {id attempt} hrow hclosed := by
    have hchange := h.attempt id
    rw [hrow] at hchange
    exact hchange.closed_kept hclosed
  gone {id} hold hnone := by
    have hchange := h.attempt id
    rw [hnone] at hchange
    generalize r'.attempts id = row' at hchange ⊢
    cases hchange with
    | kept => rfl
    | assigned _ _ _ _ hnew => exact absurd hnew hold.ne
    | rejected _ _ _ _ _ hnew => exact absurd hnew hold.ne

/-- No call opens a closed attempt, with what it writes. -/
theorem after_finishes (env : Env) (h : Hub) (call : HubCall) :
    h.rows.Finishes (h.after env call).rows := by
  have hchain := after_effects env h call
  generalize (h.after env call).rows = r at hchain ⊢
  induction hchain with
  | refl => exact .refl _
  | tail _ hstep ih => exact ih.trans hstep.finishes

/-- And so does every run, of any calls. -/
theorem exec_finishes {allowed : HubCall → Prop} (h : Hub) (calls : List HubCall) :
    h.rows.Finishes ((hubMachine env allowed).exec h calls).rows :=
  Machine.exec_related (R := fun h h' => h.rows.Finishes h'.rows) (fun _ => .refl _)
    (fun h h' => h.trans h') fun visit _ => after_finishes env visit.1 visit.2

/-! ## The invariant -/

/-- **The discipline of attempts.** -/
structure Rows.Disciplined (r : Rows) : Prop where
  /-- An active attempt is the latest of its task. -/
  latest : ∀ {id id' attempt attempt'}, r.attempts id = some attempt →
    r.attempts id' = some attempt' → attempt'.taskId = attempt.taskId →
    attempt.active = true → id' ≤ id
  /-- A queued task has no active attempt. -/
  queued : ∀ {id attempt task}, r.attempts id = some attempt →
    r.tasks attempt.taskId = some task → task.status = .QUEUED → attempt.active = false
  /-- An attempt is finished when it is closed. -/
  finished : ∀ {id attempt}, r.attempts id = some attempt →
    (attempt.finishedAt.isSome = true ↔ attempt.active = false)

/-- A task has one active attempt. -/
theorem Rows.Disciplined.unique (hd : r.Disciplined) {id id' : TaskAttemptId}
    {attempt attempt' : TaskAttempt} (hrow : r.attempts id = some attempt)
    (hrow' : r.attempts id' = some attempt') (hsame : attempt'.taskId = attempt.taskId)
    (hactive : attempt.active = true) (hactive' : attempt'.active = true) : id' = id :=
  le_antisymm (hd.latest hrow hrow' hsame hactive) (hd.latest hrow' hrow hsame.symm hactive')

/-- A candidate is tried for a task without active attempt. -/
theorem Rows.Candidate.inactive {taskId : TaskId} {serverId : ServerId}
    (hcandidate : r.Candidate taskId serverId) (hd : r.Disciplined) {id : TaskAttemptId}
    {attempt : TaskAttempt} (hrow : r.attempts id = some attempt)
    (hof : attempt.taskId = taskId) : attempt.active = false := by
  obtain ⟨task, -, -, htask, hqueued, -⟩ := hcandidate.queued
  rw [← hof] at htask
  exact hd.queued hrow htask hqueued

/-- An active attempt was active, or is new on a candidate. -/
theorem AttemptChange.active {id : TaskAttemptId} {row : Option TaskAttempt}
    {attempt' : TaskAttempt} (h : AttemptChange env call r id row (some attempt'))
    (hactive' : attempt'.active = true) :
    (∃ attempt, row = some attempt ∧ attempt.taskId = attempt'.taskId ∧
      attempt.active = true) ∨
    (id = r.attempts.next ∧ r.Candidate attempt'.taskId attempt'.serverId) := by
  cases h with
  | kept => exact .inl ⟨attempt', rfl, rfl, hactive'⟩
  | @touched attempt _ _ _ _ _ _ hactive => exact .inl ⟨attempt, rfl, rfl, hactive⟩
  | settled =>
      rw [TaskAttempt.closed_active] at hactive'
      cases hactive'
  | expired => cases hactive'
  | assigned _ _ _ hcandidate hnew => exact .inr ⟨hnew, hcandidate⟩
  | rejected => cases hactive'

/-- The active attempt is the latest: a new one is only made when there is no active one. -/
theorem Effect.disciplined_latest (h : Effect env call r r') (hd : r.Disciplined)
    {id id' : TaskAttemptId} {attempt attempt' : TaskAttempt} (hrow : r'.attempts id = some attempt)
    (hrow' : r'.attempts id' = some attempt') (hsame : attempt'.taskId = attempt.taskId)
    (hactive : attempt.active = true) : id' ≤ id := by
  have hchange := h.attempt id
  have hchange' := h.attempt id'
  rw [hrow] at hchange
  rw [hrow'] at hchange'
  have horigin' := hchange'.origin
  rcases hchange.active hactive with ⟨old, hold, htask, hwas⟩ | ⟨hnew, hcandidate⟩
  · rcases horigin' with ⟨old', hold', htask', -⟩ | ⟨-, -, hcandidate'⟩
    · exact hd.latest hold hold' (by rw [htask, htask', hsame]) hwas
    · -- a new attempt is made while the task is queued
      have hinactive := hcandidate'.inactive hd hold (htask.trans hsame.symm)
      rw [hwas] at hinactive
      cases hinactive
  · rcases horigin' with ⟨old', hold', -⟩ | ⟨hnew', -⟩
    · rw [hnew]
      exact (Table.lt_next hold').le
    · rw [hnew, hnew']

/-! ## The ways into the queue and out of it -/

/-- **A task enters the queue again** by a capacity failure or by the watchdog:
its latest active attempt is closed, and a job is added. -/
theorem Effect.queues (h : Effect env call r r') (htyped : call.Typed) {taskId : TaskId}
    {task task' : Task} (htask : r.tasks taskId = some task) (hbefore : task.status ≠ .QUEUED)
    (htask' : r'.tasks taskId = some task') (hqueued : task'.status = .QUEUED) :
    ((∃ socketId payload lastSeen finished, call = .message socketId (.TASK_RESULT payload) ∧
        payload.taskId = .id taskId ∧ r'.attempts = updateActive env (fun other => other == taskId)
          (TaskAttempt.closed payload lastSeen finished) r.attempts) ∨
      ∃ id attempt finished, call = .watchdog ∧ r.attempts id = some attempt ∧
        attempt.taskId = taskId ∧ attempt.active = true ∧
        r'.attempts = r.attempts.modify id (TaskAttempt.expired env finished)) ∧
    r'.jobs = r.jobs.insert ⟨some taskId, 0, 5, .waiting⟩ := by
  -- the row of the task changes, so only the effects that write to the tasks are left
  have hsame : r'.tasks taskId ≠ r.tasks taskId := fun hsame => by
    rw [hsame, htask] at htask'
    cases htask'
    exact hbefore hqueued
  have hmodify : ∀ {other f}, r'.tasks = r.tasks.modify other f → other = taskId ∧
      task' = f task := fun {other f} heq => by
    rw [heq, Table.modify_apply] at hsame htask'
    split at hsame
    · next hid =>
      subst hid
      rw [if_pos rfl, htask] at htask'
      cases htask'
      exact ⟨rfl, rfl⟩
    · exact absurd rfl hsame
  cases h with
  | submitted =>
      rw [Table.insert_apply, if_neg (Table.lt_next htask).ne] at hsame
      exact absurd rfl hsame
  | relabelled _ _ _ hstatus =>
      obtain ⟨rfl, rfl⟩ := hmodify rfl
      rcases hstatus task with hkept | ⟨-, hnot⟩
      · exact absurd (hkept.symm.trans hqueued) hbefore
      · exact absurd hqueued (hnot htyped)
  | failedOver lastSeen finished _ _ hcall hid =>
      obtain ⟨rfl, -⟩ := hmodify rfl
      exact ⟨.inl ⟨_, _, lastSeen, finished, hcall, hid, rfl⟩, rfl⟩
  | assigned =>
      obtain ⟨rfl, rfl⟩ := hmodify rfl
      cases hqueued
  | expired =>
      obtain ⟨rfl, rfl⟩ := hmodify rfl
      cases hqueued
  | requeued finished _ _ hcall _ _ hrow hid hactive =>
      obtain ⟨rfl, -⟩ := hmodify rfl
      exact ⟨.inr ⟨_, _, finished, hcall, hrow, hid, hactive, rfl⟩, rfl⟩
  | serverDeleted =>
      have hrow := (Option.filter_eq_some_iff.mp htask').1
      rw [htask] at hrow
      cases hrow
      exact absurd hqueued hbefore
  | _ => exact absurd rfl hsame

/-- **A new attempt** is one that dispatch made: running, with its task, or
failed at once. -/
theorem Effect.new_attempt (h : Effect env call r r') {id : TaskAttemptId} {attempt : TaskAttempt}
    (hnew : id = r.attempts.next) (hrow : r'.attempts id = some attempt) :
    r.Candidate attempt.taskId attempt.serverId ∧
      ((attempt.status = .RUNNING ∧
          ∀ task', r'.tasks attempt.taskId = some task' → task'.status = .RUNNING) ∨
        attempt.status = .FAILED) := by
  have hnext : r.attempts.next < r'.attempts.next := hnew ▸ Table.lt_next hrow
  subst hnew
  cases h with
  | touched => exact absurd hnext (updateActive_next _ _ _ _).le.not_gt
  | settled => exact absurd hnext (updateActive_next _ _ _ _).le.not_gt
  | failedOver => exact absurd hnext (updateActive_next _ _ _ _).le.not_gt
  | @assigned jobId job taskId serverId input started lastSeen updated hcall hjob hid hcandidate =>
      rw [Table.insert_apply, if_pos rfl] at hrow
      cases hrow
      refine ⟨hcandidate, .inl ⟨rfl, fun task' htask' => ?_⟩⟩
      rw [Table.modify_apply, if_pos rfl] at htask'
      obtain ⟨task, -, rfl⟩ := Option.map_eq_some_iff.mp htask'
      rfl
  | rejected _ _ _ _ _ _ hcandidate =>
      rw [Table.insert_apply, if_pos rfl] at hrow
      cases hrow
      exact ⟨hcandidate, .inr rfl⟩
  | _ => exact absurd hnext (lt_irrefl _)

/-! ## The invariant through an effect -/

/-- After an update of the latest active attempt of a task to a closed one, the
task has no active attempt. -/
theorem updateActive_inactive (hd : r.Disciplined) {taskId : TaskId}
    {f : TaskAttempt → TaskAttempt} (hclosed : ∀ attempt, (f attempt).active = false)
    {id : TaskAttemptId} {attempt : TaskAttempt}
    (hrow : updateActive env (fun other => other == taskId) f r.attempts id = some attempt)
    (hof : attempt.taskId = taskId) : attempt.active = false := by
  rcases updateActive_cases env (fun other => other == taskId) f r.attempts with
    ⟨hsame, hnone⟩ | ⟨found, old, hold, hsel, hactive, hmodify⟩
  · rw [hsame] at hrow
    exact hnone id attempt hrow (beq_iff_eq.mpr hof)
  · rw [hmodify, Table.modify_apply] at hrow
    split at hrow
    · obtain ⟨row, -, rfl⟩ := Option.map_eq_some_iff.mp hrow
      exact hclosed row
    · next hne =>
      by_contra hopen
      rw [Bool.not_eq_false] at hopen
      exact hne (hd.unique hold hrow (hof.trans (beq_iff_eq.mp hsel).symm) hactive hopen)

/-- After the watchdog closed the active attempt of a task, it has none. -/
theorem expire_inactive (hd : r.Disciplined) {found id : TaskAttemptId}
    {old attempt : TaskAttempt} {finished : Time} (hold : r.attempts found = some old)
    (hactive : old.active = true)
    (hrow : r.attempts.modify found (TaskAttempt.expired env finished) id = some attempt)
    (hof : attempt.taskId = old.taskId) : attempt.active = false := by
  rw [Table.modify_apply] at hrow
  split at hrow
  · obtain ⟨row, -, rfl⟩ := Option.map_eq_some_iff.mp hrow
    rfl
  · next hne =>
    by_contra hopen
    rw [Bool.not_eq_false] at hopen
    exact hne (hd.unique hold hrow hof hactive hopen)

/-- A queued task has no active attempt: whoever queues it has closed what was active. -/
theorem Effect.disciplined_queued (h : Effect env call r r') (htyped : call.Typed) (hs : r.Sound)
    (hd : r.Disciplined) {id : TaskAttemptId} {attempt : TaskAttempt} {task' : Task}
    (hrow : r'.attempts id = some attempt) (htask' : r'.tasks attempt.taskId = some task')
    (hqueued : task'.status = .QUEUED) : attempt.active = false := by
  by_contra hopen
  rw [Bool.not_eq_false] at hopen
  have hchange := h.attempt id
  rw [hrow] at hchange
  rcases hchange.active hopen with ⟨old, hold, hof, hwas⟩ | ⟨hnew, -⟩
  · -- the attempt was active, so this effect has put the task into the queue
    obtain ⟨home, -, howner⟩ := hs.attempt_owner hold
    obtain ⟨task, -, htask, -⟩ := ownerOf_some howner
    have hbefore : task.status ≠ .QUEUED := fun hqueued => by
      rw [hd.queued hold htask hqueued] at hwas
      cases hwas
    rw [hof] at htask
    have hinactive : attempt.active = false := by
      rcases (h.queues htyped htask hbefore htask' hqueued).1 with
        ⟨_, _, _, _, -, -, hattempts⟩ | ⟨_, found, _, -, hfound, htaskId, hactive, hattempts⟩
      · rw [hattempts] at hrow
        exact updateActive_inactive hd (TaskAttempt.closed_active _ _ _) hrow rfl
      · rw [hattempts] at hrow
        exact expire_inactive hd hfound hactive hrow htaskId.symm
    rw [hopen] at hinactive
    cases hinactive
  · rcases (h.new_attempt hnew hrow).2 with ⟨-, hrunning⟩ | hfailed
    · rw [hrunning task' htask'] at hqueued
      cases hqueued
    · rw [TaskAttempt.active, hfailed] at hopen
      cases hopen

/-- `finishedAt` is set by exactly the changes that close. -/
theorem AttemptChange.finished {id : TaskAttemptId} {row : Option TaskAttempt}
    {attempt' : TaskAttempt} (h : AttemptChange env call r id row (some attempt'))
    (hfinished : ∀ attempt, row = some attempt →
      (attempt.finishedAt.isSome = true ↔ attempt.active = false)) :
    attempt'.finishedAt.isSome = true ↔ attempt'.active = false := by
  cases h with
  | kept => exact hfinished attempt' rfl
  | @touched attempt _ _ _ _ _ _ hactive =>
      have hbefore := hfinished attempt rfl
      rw [hactive] at hbefore
      exact hbefore
  | settled => simp
  | expired => simp [TaskAttempt.expired, TaskAttempt.active, TaskAttemptStatus.active]
  | assigned => simp [TaskAttempt.active, TaskAttemptStatus.active]
  | rejected => simp [TaskAttempt.active, TaskAttemptStatus.active]

/-- **Every effect of a typed call preserves the discipline.** -/
theorem Effect.disciplined (h : Effect env call r r') (htyped : call.Typed) (hs : r.Sound)
    (hd : r.Disciplined) : r'.Disciplined where
  latest hrow hrow' hsame hactive := h.disciplined_latest hd hrow hrow' hsame hactive
  queued hrow htask hqueued := h.disciplined_queued htyped hs hd hrow htask hqueued
  finished {id attempt} hrow := by
    have hchange := h.attempt id
    rw [hrow] at hchange
    exact hchange.finished fun attempt hrow => hd.finished hrow

/-- Without attempts there is nothing to keep. -/
theorem Hub.Fresh.disciplined {h : Hub} (hfresh : h.Fresh) : h.rows.Disciplined := by
  have hattempts : h.rows.attempts = Table.empty := hfresh.attempts
  constructor <;> intros <;> simp_all

/-! ## Runs -/

/-- The discipline of every state a typed run reaches. -/
theorem reachable_disciplined {h : Hub} (hreach : (hubMachine env HubCall.Typed).Reachable h) :
    h.rows.Disciplined := by
  have hboth : h.rows.Sound ∧ h.rows.Disciplined :=
    reachable_rows (I := fun r => r.Sound ∧ r.Disciplined)
      (fun _ hfresh => ⟨hfresh.sound, hfresh.disciplined⟩)
      (fun htyped hI heffect => ⟨heffect.sound hI.1, heffect.disciplined htyped hI.1 hI.2⟩) hreach
  exact hboth.2

/-- **Attempt discipline.**  After every run of typed calls, a task has at most
one active attempt, the latest it has, and none while it is queued; an attempt
has `finishedAt` exactly when it is closed; and an attempt that was closed
earlier in the run is as it was, unless it was deleted with a server. -/
theorem attempt_discipline {first : Hub} {calls : List HubCall} (hstart : first.Fresh)
    (hruns : (hubMachine env HubCall.Typed).Runs first calls) :
    let final := (hubMachine env HubCall.Typed).exec first calls
    (∀ {id id' attempt attempt'}, final.attempts id = some attempt →
      final.attempts id' = some attempt' → attempt'.taskId = attempt.taskId →
      attempt.active = true → id' ≤ id ∧ (attempt'.active = true → id' = id)) ∧
    (∀ {id attempt task}, final.attempts id = some attempt →
      final.tasks attempt.taskId = some task → task.status = .QUEUED → attempt.active = false) ∧
    (∀ {id attempt}, final.attempts id = some attempt →
      (attempt.finishedAt.isSome = true ↔
        attempt.status = .SUCCEEDED ∨ attempt.status = .FAILED ∨ attempt.status = .TIMED_OUT)) ∧
    ∀ front back, calls = front ++ back → ∀ {id attempt},
      ((hubMachine env HubCall.Typed).exec first front).attempts id = some attempt →
      attempt.status = .SUCCEEDED ∨ attempt.status = .FAILED ∨ attempt.status = .TIMED_OUT →
      final.attempts id = some attempt ∨ final.attempts id = none := by
  intro final
  have hd : final.rows.Disciplined :=
    reachable_disciplined ((Machine.Reachable.of_start hstart).exec hruns)
  have hclosed : ∀ attempt : TaskAttempt, attempt.active = false ↔
      attempt.status = .SUCCEEDED ∨ attempt.status = .FAILED ∨ attempt.status = .TIMED_OUT := by
    intro attempt
    unfold TaskAttempt.active
    cases attempt.status <;> simp [TaskAttemptStatus.active]
  refine ⟨fun {id id' attempt attempt'} hrow hrow' hsame hactive => ⟨?_, fun hactive' => ?_⟩,
    fun hrow htask hqueued => hd.queued hrow htask hqueued,
    fun {id attempt} hrow => (hd.finished hrow).trans (hclosed attempt), ?_⟩
  · exact hd.latest hrow hrow' hsame hactive
  · exact hd.unique hrow hrow' hsame hactive hactive'
  · rintro front back rfl id attempt hrow hstatus
    have hfinishes := @exec_finishes env HubCall.Typed
      ((hubMachine env HubCall.Typed).exec first front) back
    rw [← Machine.exec_append] at hfinishes
    exact hfinishes.closed hrow ((hclosed attempt).mpr hstatus)

/-- The attempt on the server 0 timed out, and after a late log of its daemon the
one on the server 1 is the latest, and active. -/
theorem attempt_discipline_failover :
    let calls := sampleConnects ++
      [.submit 0 ⟨0, .CODEX, sampleInput⟩, .dispatch 0, .watchdog, .dispatch 1,
        .message 0 (.TASK_LOG ⟨.id 0, js "late"⟩)]
    let final := (hubMachine Env.sample HubCall.Typed).exec Hub.sample calls
    (final.attempts 0).map (·.status) = some .TIMED_OUT ∧
    (final.attempts 1).map (·.status) = some .RUNNING ∧
    ∀ attempt, final.attempts 1 = some attempt →
      ∀ id' attempt', final.attempts id' = some attempt' →
      attempt'.taskId = attempt.taskId → id' ≤ 1 := by
  intro calls final
  have hruns : (hubMachine Env.sample HubCall.Typed).Runs Hub.sample calls := by decide
  have hstatus : (final.attempts 1).map (·.status) = some .RUNNING := by decide
  refine ⟨by decide, hstatus, fun attempt hrow id' attempt' hrow' hsame => ?_⟩
  rw [hrow, Option.map_some, Option.some.injEq] at hstatus
  refine ((attempt_discipline Hub.sample_fresh hruns).1 hrow hrow' hsame ?_).1
  rw [TaskAttempt.active, hstatus]
  rfl

end CodeCaller
