import CodeCaller.Hub.Tracking

/-!
# Terminal tasks and their attempts

A task becomes terminal by a result, by a failover without candidates, by the watchdog, by a
cancellation, by a rejection or by a status update.  The first three close its attempt as well, the
others leave the attempts alone: these are the calls that can end a task and leave an attempt of it
running.

* `Rows.ClosedTasks`: all attempts of a terminal task are over, with `finishedAt` and a closed
  status.  By the discipline of attempts this is the same as having no active attempt
  (`closed_iff`), and that is what effects are looked at for.
* `Effect.ended`: every effect of the calls that write no status keeps it.
* `after_ended_iff`, `closed_tasks_iff`: a call, and a run, keeps it exactly when it ends no task
  under an active attempt.  `closed_tasks_cancelled` is a task that was cancelled after its
  dispatch.

The lemmas on active attempts are those of `Hub.Tracking` read backwards: there an attempt had to
stay, here none may appear.
-/

namespace CodeCaller

open Async

variable {env : Env} {call : HubCall} {r r' : Rows} {h : Hub}

/-! ## The invariant -/

/-- **An attempt that is over.** -/
structure TaskAttempt.Over (attempt : TaskAttempt) : Prop where
  status : attempt.status = .SUCCEEDED ∨ attempt.status = .FAILED ∨ attempt.status = .TIMED_OUT
  finishedAt : attempt.finishedAt.isSome = true

/-- **All attempts of a terminal task are over.** -/
def Rows.ClosedTasks (r : Rows) : Prop :=
  ∀ ⦃taskId task id attempt⦄, r.tasks taskId = some task → task.status.terminal = true →
    r.attempts id = some attempt → attempt.taskId = taskId → attempt.Over

/-- No terminal task has an active attempt. -/
def Rows.Ended (r : Rows) : Prop :=
  ∀ ⦃taskId task⦄, r.tasks taskId = some task → task.status.terminal = true → ¬r.Active taskId

/-- The other columns follow from the status. -/
theorem TaskAttempt.over_iff {attempt : TaskAttempt}
    (hfinished : attempt.finishedAt.isSome = true ↔ attempt.active = false) :
    attempt.Over ↔ attempt.active = false := by
  constructor
  · rintro ⟨-, hsome⟩
    exact hfinished.mp hsome
  · intro hclosed
    refine ⟨?_, hfinished.mpr hclosed⟩
    unfold TaskAttempt.active at hclosed
    cases hstatus : attempt.status with
    | DISPATCHING | RUNNING =>
        rw [hstatus] at hclosed
        cases hclosed
    | SUCCEEDED => exact .inl rfl
    | FAILED => exact .inr (.inl rfl)
    | TIMED_OUT => exact .inr (.inr rfl)

/-- With the discipline of attempts, being over is being closed. -/
theorem closed_iff (hd : r.Disciplined) : r.ClosedTasks ↔ r.Ended := by
  constructor
  · rintro hclosed taskId task htask hterminal ⟨id, attempt, hrow, hof, hactive⟩
    have hover := hclosed htask hterminal hrow hof
    rw [(TaskAttempt.over_iff (hd.finished hrow)).mp hover] at hactive
    cases hactive
  · intro hended taskId task id attempt htask hterminal hrow hof
    refine (TaskAttempt.over_iff (hd.finished hrow)).mpr ?_
    cases hactive : attempt.active with
    | false => rfl
    | true => exact absurd ⟨id, attempt, hrow, hof, hactive⟩ (hended htask hterminal)

/-! ## Active attempts, looked at backwards -/

/-- What is active after an active attempt was changed was active before. -/
theorem Rows.Active.before_modify {id : TaskAttemptId} {old : TaskAttempt}
    {f : TaskAttempt → TaskAttempt} {taskId : TaskId} (ha : r'.Active taskId)
    (hattempts : r'.attempts = r.attempts.modify id f) (hrow : r.attempts id = some old)
    (hactive : old.active = true) (hf : (f old).taskId = old.taskId) : r.Active taskId := by
  obtain ⟨other, attempt, hother, hof, hopen⟩ := ha
  rw [hattempts, Table.modify_apply] at hother
  split at hother
  · rw [hrow] at hother
    cases hother
    exact ⟨id, old, hrow, hf.symm.trans hof, hactive⟩
  · exact ⟨other, attempt, hother, hof, hopen⟩

theorem Rows.Active.before_update {selects : TaskId → Bool} {f : TaskAttempt → TaskAttempt}
    {taskId : TaskId} (ha : r'.Active taskId)
    (hattempts : r'.attempts = updateActive env selects f r.attempts)
    (hf : ∀ attempt, (f attempt).taskId = attempt.taskId) : r.Active taskId := by
  rcases updateActive_cases env selects f r.attempts with
    ⟨hsame, -⟩ | ⟨id, old, hrow, -, hactive, hmodify⟩
  · obtain ⟨id, attempt, hrow, hof, hopen⟩ := ha
    rw [hattempts, hsame] at hrow
    exact ⟨id, attempt, hrow, hof, hopen⟩
  · exact ha.before_modify (hattempts.trans hmodify) hrow hactive (hf old)

theorem Rows.Active.before_insert {new : TaskAttempt} {taskId : TaskId} (ha : r'.Active taskId)
    (hattempts : r'.attempts = r.attempts.insert new)
    (hnew : new.taskId = taskId → new.active = false) : r.Active taskId := by
  obtain ⟨id, attempt, hrow, hof, hopen⟩ := ha
  rw [hattempts, Table.insert_apply] at hrow
  split at hrow
  · cases hrow
    rw [hnew hof] at hopen
    cases hopen
  · exact ⟨id, attempt, hrow, hof, hopen⟩

/-- An update that closes the active attempt of a task leaves none. -/
theorem Rows.Active.not_closed {selects : TaskId → Bool} {f : TaskAttempt → TaskAttempt}
    {taskId : TaskId} (hd : r.Disciplined) (hselects : selects taskId = true)
    (hattempts : r'.attempts = updateActive env selects f r.attempts)
    (hone : ∀ other, selects other = true → other = taskId)
    (hf : ∀ attempt, (f attempt).active = false) : ¬r'.Active taskId := by
  rintro ⟨id, attempt, hrow, hof, hopen⟩
  rcases updateActive_cases env selects f r.attempts with
    ⟨hsame, hnone⟩ | ⟨found, old, hold, hsel, hactive, hmodify⟩
  · rw [hattempts, hsame] at hrow
    rw [hnone id attempt hrow (hof ▸ hselects)] at hopen
    cases hopen
  · rw [hattempts, hmodify, Table.modify_apply] at hrow
    split at hrow
    · rw [hold] at hrow
      cases hrow
      rw [hf old] at hopen
      cases hopen
    · next hne =>
      exact hne (hd.unique hold hrow (hof.trans (hone _ hsel).symm) hactive hopen)

/-! ## The calls that write no status -/

/-- What is terminal with an active attempt was so before. -/
theorem Rows.Ended.of_kept (he : r.Ended)
    (hback : ∀ ⦃taskId task'⦄, r'.tasks taskId = some task' → task'.status.terminal = true →
      r'.Active taskId → ∃ task, r.tasks taskId = some task ∧ task.status.terminal = true ∧
        r.Active taskId) : r'.Ended := by
  intro taskId task' htask' hterminal hactive
  obtain ⟨task, htask, hbefore, ha⟩ := hback htask' hterminal hactive
  exact he htask hbefore ha

/-- The watchdog closes the only active attempt of the task it writes. -/
theorem Rows.Ended.of_expire {taskId : TaskId} {id : TaskAttemptId} {attempt : TaskAttempt}
    {finished : Time} {f : Task → Task} (he : r.Ended) (hd : r.Disciplined)
    (hrow : r.attempts id = some attempt) (hof : attempt.taskId = taskId)
    (hactive : attempt.active = true)
    (hattempts : r'.attempts = r.attempts.modify id (TaskAttempt.expired env finished))
    (htasks : r'.tasks = r.tasks.modify taskId f) : r'.Ended := by
  refine he.of_kept fun other task' htask' hterminal ha => ?_
  rw [htasks, Table.modify_apply] at htask'
  have hbefore := ha.before_modify hattempts hrow hactive (TaskAttempt.expired_taskId _ _)
  split at htask'
  · next heq =>
    obtain ⟨id', attempt', hrow', hof', hopen⟩ := ha
    rw [hattempts, Table.modify_apply] at hrow'
    split at hrow'
    · rw [hrow] at hrow'
      cases hrow'
      cases hopen
    · next hne =>
      exact absurd (hd.unique hrow hrow' (hof'.trans (heq.trans hof.symm)) hactive hopen) hne
  · exact ⟨task', htask', hterminal, hbefore⟩

/-- **Every effect of the calls that write no status preserves `Ended`.** -/
theorem Effect.ended (heffect : Effect env call r r') (hwrites : ¬call.Writes)
    (hd : r.Disciplined) (he : r.Ended) : r'.Ended := by
  cases heffect with
  | submitted =>
      refine he.of_kept fun taskId task' htask' hterminal ha => ?_
      rw [Table.insert_apply] at htask'
      split at htask'
      · cases htask'
        cases hterminal
      · exact ⟨task', htask', hterminal, ha⟩
  | touched =>
      refine he.of_kept fun taskId task' htask' hterminal ha => ⟨task', htask', hterminal, ?_⟩
      exact ha.before_update rfl fun _ => rfl
  -- a result is a call that writes a status
  | settled _ _ hcall =>
      rw [hcall] at hwrites
      exact absurd trivial hwrites
  | relabelled _ _ _ hstatus =>
      refine he.of_kept fun taskId task' htask' hterminal ha => ?_
      rw [Table.modify_apply] at htask'
      split at htask'
      · next heq =>
        obtain ⟨task, htask, rfl⟩ := Option.map_eq_some_iff.mp htask'
        rcases hstatus task with hkept | ⟨hcall, -⟩
        · exact ⟨task, heq ▸ htask, hkept ▸ hterminal, ha⟩
        · exact absurd hcall hwrites
      · exact ⟨task', htask', hterminal, ha⟩
  | failedOver _ _ _ _ hcall =>
      rw [hcall] at hwrites
      exact absurd trivial hwrites
  | assigned =>
      refine he.of_kept fun taskId task' htask' hterminal ha => ?_
      rw [Table.modify_apply] at htask'
      split at htask'
      · obtain ⟨task, -, rfl⟩ := Option.map_eq_some_iff.mp htask'
        cases hterminal
      · next hne =>
        exact ⟨task', htask', hterminal, ha.before_insert rfl fun heq => absurd heq.symm hne⟩
  | rejected =>
      exact he.of_kept fun taskId task' htask' hterminal ha =>
        ⟨task', htask', hterminal, ha.before_insert rfl fun _ => rfl⟩
  | expired _ _ _ _ _ _ hrow hid hactive => exact he.of_expire hd hrow hid hactive rfl rfl
  | requeued _ _ _ _ _ _ hrow hid hactive => exact he.of_expire hd hrow hid hactive rfl rfl
  | serverDeleted =>
      refine he.of_kept fun taskId task' htask' hterminal ha => ?_
      obtain ⟨id, attempt, hrow, hof, hopen⟩ := ha
      exact ⟨task', (Option.filter_eq_some_iff.mp htask').1, hterminal,
        id, attempt, (Option.filter_eq_some_iff.mp hrow).1, hof, hopen⟩
  | _ => exact he

/-! ## The calls that write a status -/

/-- **A call that ends no task under an active attempt**, unless it is one that closes the
attempt. -/
def HubCall.EndsIdle (h : Hub) (call : HubCall) : Prop :=
  call.OnlyTouches → ∀ taskId task status, h.tasks taskId = some task →
    call.WritesStatus h taskId status → status.terminal = true → ¬h.rows.Active taskId

/-- The status updates, requests for approval, decisions and cancellations. -/
theorem touches_ended_iff (hs : h.rows.Sound) (hd : h.rows.Disciplined) (he : h.rows.Ended)
    (htyped : call.Typed) (hwrites : call.Writes) (hcall : call.OnlyTouches) :
    (h.after env call).rows.Ended ↔ call.EndsIdle h := by
  have hactive := @after_active_iff env call h hcall
  rcases @writes_spec env call h hs hd htyped hwrites with
    ⟨hsame, hnone⟩ | ⟨written, status, ⟨f, hmodify, hstatus⟩, hiff⟩
  · refine iff_of_true ?_ ?_
    · intro taskId task htask hterminal ha
      refine he ?_ hterminal ((hactive taskId).mp ha)
      rw [← htask]
      exact congrArg (fun tasks : Table Task => tasks taskId) hsame.symm
    · intro _ taskId task status htask hw
      exact absurd hw (hnone taskId status (by rw [htask]; exact nofun))
  · constructor
    · intro hended _ taskId task status' htask hw hterminal ha
      obtain ⟨rfl, rfl⟩ := (hiff taskId _ (by rw [htask]; exact nofun)).mp hw
      refine @hended _ (f task) ?_ (by rw [hstatus]; exact hterminal) ((hactive taskId).mpr ha)
      change (h.after env call).tasks taskId = _
      rw [hmodify, Table.modify_apply, if_pos rfl, htask]
      rfl
    · intro hidle taskId task' htask' hterminal ha
      have hbefore := (hactive taskId).mp ha
      change (h.after env call).tasks taskId = _ at htask'
      rw [hmodify, Table.modify_apply] at htask'
      split at htask'
      · next heq =>
        subst heq
        obtain ⟨task, htask, rfl⟩ := Option.map_eq_some_iff.mp htask'
        rw [hstatus] at hterminal
        have hw := (hiff taskId status (by rw [htask]; exact nofun)).mpr ⟨rfl, rfl⟩
        exact hidle hcall taskId task status htask hw hterminal hbefore
      · exact he htask' hterminal hbefore

/-- **A result ends no task under an active attempt**: it closes the attempt first. -/
theorem result_ended {socketId : ℕ} {payload : DaemonTaskResultPayload} (hs : h.rows.Sound)
    (hd : h.rows.Disciplined) (he : h.rows.Ended)
    (htyped : HubCall.Typed (.message socketId (.TASK_RESULT payload))) :
    (h.after env (.message socketId (.TASK_RESULT payload))).rows.Ended := by
  obtain ⟨taskId, hid⟩ := htyped.1.exists_id
  have hback : ∀ ⦃other⦄,
      (h.after env (.message socketId (.TASK_RESULT payload))).rows.Active other →
      h.rows.Active other ∧ (other = taskId → h.taskWithServer taskId = none) := by
    intro other ha
    rcases after_result_attempts env h socketId payload with
      ⟨hsame, hnone⟩ | ⟨selects, lastSeen, finished, hsel, hattempts⟩
    · obtain ⟨id, attempt, hrow, hof, hopen⟩ := ha
      refine ⟨⟨id, attempt, ?_, hof, hopen⟩, fun _ => hnone taskId hid⟩
      rw [← hrow]
      exact congrArg (fun attempts : Table TaskAttempt => attempts id) hsame.symm
    · rw [hid] at hsel
      obtain rfl : (fun other => other == taskId) = selects := Option.some.inj hsel
      refine ⟨ha.before_update hattempts fun _ => TaskAttempt.closed_taskId, ?_⟩
      rintro rfl
      refine absurd ha (@Rows.Active.not_closed env h.rows _ (fun id => id == other)
        _ other hd (beq_self_eq_true other) hattempts (fun _ heq => beq_iff_eq.mp heq) fun _ =>
          TaskAttempt.closed_active payload lastSeen finished _)
  refine he.of_kept fun other task' htask' hterminal ha => ?_
  obtain ⟨hbefore, hgone⟩ := hback ha
  change (h.after env (.message socketId (.TASK_RESULT payload))).tasks other = _ at htask'
  -- the task of the result has no active attempt left, and the others are as they were
  have hother : h.tasks other ≠ none → other ≠ taskId := by
    rintro hstored rfl
    obtain ⟨task, htask⟩ := Option.ne_none_iff_exists'.mp hstored
    obtain ⟨home, -, hfound⟩ := taskFindUniqueWithServer_run hs htask
    have hsome : h.taskWithServer other = some (task, home) :=
      Except.ok.inj (congrArg Prod.fst hfound)
    rw [hgone rfl] at hsome
    cases hsome
  rcases @result_writes env h socketId payload hs hd htyped with
    ⟨hsame, -⟩ | ⟨written, status, ⟨f, hmodify, hstatus⟩, hiff⟩
  · rw [hsame] at htask'
    exact ⟨task', htask', hterminal, hbefore⟩
  · rw [hmodify, Table.modify_apply] at htask'
    split at htask'
    · next heq =>
      subst heq
      obtain ⟨task, htask, rfl⟩ := Option.map_eq_some_iff.mp htask'
      have hstored : h.tasks other ≠ none := by
        rw [htask]
        exact nofun
      have hw := (hiff other status hstored).mpr ⟨rfl, rfl⟩
      have hsame : payload.taskId = .id other := hw.1
      rw [hid] at hsame
      cases hsame
      exact absurd rfl (hother hstored)
    · exact ⟨task', htask', hterminal, hbefore⟩

/-- **One call keeps the attempts of terminal tasks closed exactly when it ends no task under an
active attempt.** -/
theorem after_ended_iff (hs : h.rows.Sound) (hd : h.rows.Disciplined) (he : h.rows.Ended)
    (htyped : call.Typed) : (h.after env call).rows.Ended ↔ call.EndsIdle h := by
  by_cases hwrites : call.Writes
  · by_cases hcall : call.OnlyTouches
    · exact touches_ended_iff hs hd he htyped hwrites hcall
    · obtain ⟨socketId, payload, rfl⟩ :
          ∃ socketId payload, call = .message socketId (.TASK_RESULT payload) := by
        unfold HubCall.Writes at hwrites
        split at hwrites
        all_goals first | exact ⟨_, _, rfl⟩ | exact absurd trivial hcall | exact hwrites.elim
      exact iff_of_true (result_ended hs hd he htyped) fun htouches => absurd htouches hcall
  · refine iff_of_true ?_ fun _ _ _ _ _ hw => absurd (HubCall.writes_of_status hw) hwrites
    have hchain := after_effects env h call
    have hall : (h.after env call).rows.Sound ∧ (h.after env call).rows.Disciplined ∧
        (h.after env call).rows.Ended := by
      generalize (h.after env call).rows = r at hchain ⊢
      induction hchain with
      | refl => exact ⟨hs, hd, he⟩
      | tail _ hstep ih =>
          obtain ⟨hs, hd, he⟩ := ih
          exact ⟨hstep.sound hs, hstep.disciplined htyped hs hd, hstep.ended hwrites hd he⟩
    exact hall.2.2

/-! ## Runs -/

/-- At the beginning there are no tasks. -/
theorem Hub.Fresh.ended (hfresh : h.Fresh) : h.rows.Ended := by
  intro taskId task htask
  rw [show h.rows.tasks = Table.empty from hfresh.tasks] at htask
  cases htask

/-- **Closed tasks have closed attempts** in every state of a run exactly when no cancellation,
rejection or status update of the run ends a task under an active attempt. -/
theorem closed_tasks_iff {first : Hub} {calls : List HubCall} (hstart : first.Fresh)
    (hruns : (hubMachine env HubCall.Typed).Runs first calls) :
    (∀ front back, calls = front ++ back →
      ((hubMachine env HubCall.Typed).exec first front).rows.ClosedTasks) ↔
    ∀ visit ∈ (hubMachine env HubCall.Typed).visits first calls, visit.2.EndsIdle visit.1 := by
  have hreach : (hubMachine env HubCall.Typed).Reachable first := .of_start hstart
  have hclosed : (∀ front back, calls = front ++ back →
      ((hubMachine env HubCall.Typed).exec first front).rows.ClosedTasks) ↔
      ∀ front back, calls = front ++ back →
        ((hubMachine env HubCall.Typed).exec first front).rows.Ended := by
    refine forall₃_congr fun front back heq => ?_
    have hfront : (hubMachine env HubCall.Typed).Runs first front := by
      rw [heq, Machine.runs_append] at hruns
      exact hruns.1
    exact closed_iff (reachable_disciplined (hreach.exec hfront))
  rw [hclosed]
  refine Machine.holds_along_iff (P := fun h : Hub => h.rows.Ended)
    (C := fun (h : Hub) (call : HubCall) => call.EndsIdle h) hstart.ended
    fun visit hvisit hended => ?_
  have hvisited := hreach.visits hruns hvisit
  exact after_ended_iff (reachable_sound hvisited) (reachable_disciplined hvisited) hended
    (hruns visit hvisit).1

/-- Without an active attempt every call ends what it likes. -/
theorem HubCall.endsIdle_of_closed (hclosed : ∀ row ∈ h.attempts.toList, row.2.active = false) :
    call.EndsIdle h := by
  rintro - taskId task status - - - ⟨id, attempt, hrow, -, hactive⟩
  rw [hclosed (id, attempt) (Table.mem_toList.mpr hrow)] at hactive
  cases hactive

/-- A task is cancelled in the queue, the next one is done. -/
theorem closed_tasks_done :
    let calls := sampleConnects ++ [.submit 0 ⟨0, .CODEX, sampleInput⟩, .cancel 0 0,
      .submit 0 ⟨0, .CODEX, sampleInput⟩] ++ [.dispatch 1,
      .message 0 (.TASK_RESULT ⟨.id 1, .status .COMPLETED, none, none⟩)]
    ∀ front back, calls = front ++ back →
      ((hubMachine Env.sample HubCall.Typed).exec Hub.sample front).rows.ClosedTasks := by
  intro calls
  refine (closed_tasks_iff Hub.sample_fresh (by decide)).mpr ?_
  rw [Machine.visits_append]
  refine List.forall_mem_append.mpr ⟨fun visit hvisit => ?_, ?_⟩
  · have hclosed : ∀ visit ∈ (hubMachine Env.sample HubCall.Typed).visits Hub.sample
        (sampleConnects ++ [.submit 0 ⟨0, .CODEX, sampleInput⟩, .cancel 0 0,
          .submit 0 ⟨0, .CODEX, sampleInput⟩]),
        ∀ row ∈ visit.1.attempts.toList, row.2.active = false := by decide
    exact HubCall.endsIdle_of_closed (hclosed visit hvisit)
  · rw [Machine.visits_cons, Machine.visits_cons, Machine.visits_nil, List.forall_mem_cons,
      List.forall_mem_singleton]
    exact ⟨fun htouches => htouches.elim, fun htouches => htouches.elim⟩

/-- **A cancelled task that is said to run**: it was cancelled after its dispatch. -/
theorem closed_tasks_cancelled :
    let h := (hubMachine Env.sample HubCall.Typed).exec Hub.sample
      (sampleConnects ++ [.submit 0 ⟨0, .CODEX, sampleInput⟩, .dispatch 0, .cancel 0 0])
    (hubMachine Env.sample HubCall.Typed).Reachable h ∧ ¬h.rows.ClosedTasks := by
  intro h
  refine ⟨(Machine.Reachable.of_start Hub.sample_fresh).exec (by decide), fun hclosed => ?_⟩
  have hcancelled : (h.tasks 0).map (·.status) = some .CANCELLED := by decide
  have hrunning : (h.attempts 0).map (fun attempt => (attempt.taskId, attempt.finishedAt)) =
      some (0, none) := by decide
  obtain ⟨task, htask, hstatus⟩ := Option.map_eq_some_iff.mp hcancelled
  obtain ⟨attempt, hrow, hattempt⟩ := Option.map_eq_some_iff.mp hrunning
  have hover := hclosed htask (by rw [hstatus]; rfl) hrow (congrArg Prod.fst hattempt)
  have hnone : attempt.finishedAt = none := congrArg Prod.snd hattempt
  have hsome := hover.finishedAt
  rw [hnone] at hsome
  cases hsome

end CodeCaller
