import CodeCaller.Hub.Attempts

/-!
# Failover

Dispatch excludes the servers a task has spent: an attempt there timed out, or ended with a
capacity failure.  The exclusion is read back from the rows of the attempts, so it lasts as long as
the rows do; with the discipline of attempts, no attempt is made on a server after the one that
spent it.

### Main definitions

* `spentAttempt` recognises a capacity failure by the prefix of its reason, so what counts is that
  the service writes the prefix and nobody else does (`closed_capacity_spent`,
  `offline_not_capacity`).
* `SpentBy` says the same of an attempt in terms of the run: the watchdog or a capacity failure
  closed it at some visit.  The theorem is about this notion, not about the text in a row.
* `watchdogRequeues`: the jobs the watchdog adds for a task at a visit.

### Main results

* `reachable_no_return`: no attempt follows the one that spent its server.
* `run_within_budget`: the requeues of a run, added to the attempts that had timed out before it,
  are within the budget.  Each requeue is paid for with an attempt that times out, and the check
  before it compares the number of those with the budget.
* `failover_bounded`: the three parts over runs.

### Deletion

A deletion of a server deletes its attempts, and with them what is known about it and what was
counted.  So the runs here are those without one; the condition is on the calls.
-/

namespace CodeCaller

open Async

variable {env : Env} {call : HubCall} {r r' : Rows}

/-- A call that deletes no server. -/
def HubCall.keepsServers : HubCall → Bool
  | removeServer _ _ => false
  | _ => true

/-- The calls of a run in which no server is deleted and daemons send what the
event contract types. -/
def HubCall.Contractual (call : HubCall) : Prop := call.Typed ∧ call.keepsServers = true

instance : DecidablePred HubCall.Contractual := fun _ => inferInstanceAs (Decidable (_ ∧ _))

theorem HubCall.not_removes (hkeeps : call.keepsServers = true) {ownerId : UserId}
    {serverId : ServerId} (hcall : call = .removeServer ownerId serverId) : False := by
  rw [hcall] at hkeeps
  cases hkeeps

/-! ## Closed attempts stay -/

/-- Without deletions a closed attempt is there as it was. -/
theorem Effect.closed_same (h : Effect env call r r') (hkeeps : call.keepsServers = true)
    {id : TaskAttemptId} {attempt : TaskAttempt} (hrow : r.attempts id = some attempt)
    (hclosed : attempt.active = false) : r'.attempts id = some attempt := by
  have hchange := h.attempt id
  rw [hrow] at hchange
  rcases hchange.closed_kept hclosed with hkept | hgone
  · exact hkept
  · rw [hgone] at hchange
    cases hchange with
    | deleted hcall => exact (HubCall.not_removes hkeeps hcall).elim

theorem after_closed_same {h : Hub} (hkeeps : call.keepsServers = true) {id : TaskAttemptId}
    {attempt : TaskAttempt} (hrow : h.attempts id = some attempt)
    (hclosed : attempt.active = false) : (h.after env call).attempts id = some attempt := by
  have hchain := after_effects env h call
  change h.rows.attempts id = some attempt at hrow
  change (h.after env call).rows.attempts id = some attempt
  generalize (h.after env call).rows = r at hchain ⊢
  induction hchain with
  | refl => exact hrow
  | tail _ hstep ih => exact hstep.closed_same hkeeps ih hclosed

/-- Over a run as well. -/
theorem exec_closed_same {h : Hub} {calls : List HubCall}
    (hruns : (hubMachine env HubCall.Contractual).Runs h calls) {id : TaskAttemptId}
    {attempt : TaskAttempt} (hrow : h.attempts id = some attempt)
    (hclosed : attempt.active = false) :
    ((hubMachine env HubCall.Contractual).exec h calls).attempts id = some attempt := by
  refine Machine.exec_related (M := hubMachine env HubCall.Contractual)
    (R := fun h h' => h.attempts id = some attempt → h'.attempts id = some attempt)
    (fun _ hrow => hrow) (fun hab hbc ha => hbc (hab ha)) (fun visit hvisit => ?_) hrow
  intro hrow
  exact after_closed_same (hruns visit hvisit).1.2 hrow hclosed

/-! ## Spent servers -/

/-- An attempt that is spent is closed, so it will not change any more. -/
theorem spentAttempt_closed {attempt : TaskAttempt} (hspent : spentAttempt attempt = true) :
    attempt.active = false := by
  unfold spentAttempt at hspent
  unfold TaskAttempt.active
  cases hstatus : attempt.status <;> rw [hstatus] at hspent <;> first | rfl | cases hspent

/-- A capacity failure is recorded so that the query of the excluded servers
finds it, whatever its message and detail are. -/
theorem closed_capacity_spent {payload : DaemonTaskResultPayload}
    (hcapacity : TasksService.isRetryableCapacityFailure payload = true) (lastSeen finished : Time)
    (attempt : TaskAttempt) :
    spentAttempt (attempt.closed payload lastSeen finished) = true := by
  rw [closed_of_capacity hcapacity]
  unfold spentAttempt TasksService.formatStructuredFailureReason
  simp

/-- An attempt that is spent was spent before, or was active. -/
theorem AttemptChange.spent {id : TaskAttemptId} {row : Option TaskAttempt}
    {attempt' : TaskAttempt} (h : AttemptChange env call r id row (some attempt'))
    (hspent : spentAttempt attempt' = true) :
    row = some attempt' ∨ ∃ attempt, row = some attempt ∧ attempt.active = true ∧
      attempt.taskId = attempt'.taskId := by
  cases h with
  | kept => exact .inl rfl
  | touched => cases hspent
  | @settled attempt _ payload _ lastSeen finished _ _ _ hactive =>
      exact .inr ⟨attempt, rfl, hactive, (TaskAttempt.closed_taskId ..).symm⟩
  | @expired attempt _ _ hactive => exact .inr ⟨attempt, rfl, hactive, rfl⟩
  | assigned => cases hspent
  | rejected => cases hspent

/-- **No attempt follows the one that spent its server.** -/
def Rows.NoReturn (r : Rows) : Prop :=
  ∀ ⦃id id' attempt attempt'⦄, r.attempts id = some attempt → r.attempts id' = some attempt' →
    attempt'.taskId = attempt.taskId → attempt'.serverId = attempt.serverId →
    spentAttempt attempt = true → id' ≤ id

/-- A new attempt is on a candidate, and candidates are not spent. -/
theorem Effect.no_return (h : Effect env call r r') (hd : r.Disciplined) (hn : r.NoReturn) :
    r'.NoReturn := by
  intro id id' attempt attempt' hrow hrow' htask hserver hspent
  have hchange := h.attempt id
  have hchange' := h.attempt id'
  rw [hrow] at hchange
  rw [hrow'] at hchange'
  rcases hchange.spent hspent with hold | ⟨old, hold, hactive, hof⟩
  · rcases hchange'.origin with ⟨old', hold', htask', hserver'⟩ | ⟨-, -, hcandidate⟩
    · exact hn hold hold' (htask'.trans htask) (hserver'.trans hserver) hspent
    · exact absurd hserver.symm (hcandidate.unspent id attempt hold htask.symm hspent)
  · rcases hchange'.origin with ⟨old', hold', htask', -⟩ | ⟨-, -, hcandidate⟩
    · exact hd.latest hold hold' (by rw [htask', htask, hof]) hactive
    · have hinactive := hcandidate.inactive hd hold (hof.trans htask.symm)
      rw [hactive] at hinactive
      cases hinactive

theorem reachable_no_return {h : Hub} (hreach : (hubMachine env HubCall.Contractual).Reachable h) :
    h.rows.NoReturn := by
  have hall : h.rows.Sound ∧ h.rows.Disciplined ∧ h.rows.NoReturn :=
    reachable_rows (I := fun r => r.Sound ∧ r.Disciplined ∧ r.NoReturn)
      (fun h hfresh => ⟨hfresh.sound, hfresh.disciplined, fun id _ attempt _ hrow => by
        rw [show h.rows.attempts = Table.empty from hfresh.attempts] at hrow
        cases hrow⟩)
      (fun hcall hI heffect => ⟨heffect.sound hI.1, heffect.disciplined hcall.1 hI.1 hI.2.1,
        heffect.no_return hI.2.1 hI.2.2⟩) hreach
  exact hall.2.2

/-! ## Capacity failures -/

/-- **A capacity failure closes an attempt** at a visit. -/
def ClosesForCapacity (env : Env) (visit : Hub × HubCall) (id : TaskAttemptId) : Prop :=
  ∃ socketId payload attempt attempt',
    visit.2 = .message socketId (.TASK_RESULT payload) ∧
    TasksService.isRetryableCapacityFailure payload = true ∧
    visit.1.attempts id = some attempt ∧ attempt.active = true ∧
    (visit.1.after env visit.2).attempts id = some attempt' ∧ attempt'.active = false

/-- An attempt that a capacity failure closes is spent. -/
theorem closesForCapacity_spent {visit : Hub × HubCall} {id : TaskAttemptId}
    (hcloses : ClosesForCapacity env visit id) :
    ∃ attempt, (visit.1.after env visit.2).attempts id = some attempt ∧
      spentAttempt attempt = true := by
  obtain ⟨h, call⟩ := visit
  obtain ⟨socketId, payload, before, after, rfl, hcapacity, hbefore, hactive, hafter, hclosed⟩ :=
    hcloses
  refine ⟨after, hafter, ?_⟩
  have hchain := after_effects env h (.message socketId (.TASK_RESULT payload))
  change h.rows.attempts id = some before at hbefore
  change (h.after env _).rows.attempts id = some after at hafter
  dsimp only at hchain hafter
  generalize (h.after env _).rows = r at hchain hafter
  suffices hall : ∃ attempt, r.attempts id = some attempt ∧
      (attempt.active = true ∨ spentAttempt attempt = true) by
    obtain ⟨attempt, hrow, hcases⟩ := hall
    rw [hafter] at hrow
    cases hrow
    rcases hcases with hopen | hspent
    · rw [hclosed] at hopen
      cases hopen
    · exact hspent
  clear hafter
  induction hchain with
  | refl => exact ⟨before, hbefore, .inl hactive⟩
  | tail _ hstep ih =>
      obtain ⟨attempt, hrow, hcases⟩ := ih
      rcases hcases with hopen | hspent
      · have hchange := hstep.attempt id
        rw [hrow] at hchange
        generalize Rows.attempts _ id = row' at hchange ⊢
        cases hchange with
        | kept => exact ⟨attempt, rfl, .inl hopen⟩
        | touched => exact ⟨_, rfl, .inl rfl⟩
        | settled lastSeen finished hcall =>
            cases hcall
            exact ⟨_, rfl, .inr (closed_capacity_spent hcapacity lastSeen finished attempt)⟩
        | expired _ hcall => cases hcall
        | deleted hcall => cases hcall
      · exact ⟨attempt, hstep.closed_same rfl hrow (spentAttempt_closed hspent), .inr hspent⟩

/-- **An attempt that spent its server**: it timed out, or a capacity failure
closed it at a visit. -/
def SpentBy (env : Env) (visits : List (Hub × HubCall)) (h : Hub) (id : TaskAttemptId) : Prop :=
  (∃ attempt, h.attempts id = some attempt ∧ attempt.status = .TIMED_OUT) ∨
    ∃ visit ∈ visits, ClosesForCapacity env visit id

/-- What spent its server in a run is found by the query for the excluded
servers after it. -/
theorem SpentBy.spent {first : Hub} {calls : List HubCall}
    (hruns : (hubMachine env HubCall.Contractual).Runs first calls) {id : TaskAttemptId}
    {attempt : TaskAttempt}
    (hrow : ((hubMachine env HubCall.Contractual).exec first calls).attempts id = some attempt)
    (hspent : SpentBy env ((hubMachine env HubCall.Contractual).visits first calls)
      ((hubMachine env HubCall.Contractual).exec first calls) id) :
    spentAttempt attempt = true := by
  rcases hspent with ⟨row, hstored, htimed⟩ | ⟨visit, hvisit, hcloses⟩
  · rw [hrow] at hstored
    cases hstored
    unfold spentAttempt
    rw [htimed]
    rfl
  · obtain ⟨closed, hclosed, hspent⟩ := closesForCapacity_spent hcloses
    obtain ⟨front, back, rfl, hfront⟩ := (Machine.mem_visits_iff _).mp hvisit
    rw [Machine.runs_append, ← hfront, Machine.runs_cons] at hruns
    rw [Machine.exec_append, ← hfront, Machine.exec_cons] at hrow
    have hlast := exec_closed_same hruns.2.2 hclosed (spentAttempt_closed hspent)
    rw [hrow] at hlast
    cases hlast
    exact hspent

/-! ## The budget of the watchdog -/

/-- The number of dispatch jobs there have been for a task. -/
def Rows.jobsOf (r : Rows) (taskId : TaskId) : ℕ :=
  r.jobs.count fun job => job.taskId == some taskId

/-- A job counts for its own task. -/
theorem Rows.jobsOf_insert {job : DispatchJob} (hjobs : r'.jobs = r.jobs.insert job)
    (taskId : TaskId) :
    r'.jobsOf taskId = r.jobsOf taskId + if job.taskId = some taskId then 1 else 0 := by
  unfold Rows.jobsOf
  rw [hjobs, Table.count_insert]
  simp only [beq_iff_eq]

/-- Attempts that timed out are counted for good. -/
theorem Effect.timedOut_le (h : Effect env call r r') (hkeeps : call.keepsServers = true)
    (taskId : TaskId) : r.timedOut taskId ≤ r'.timedOut taskId := by
  refine Table.count_le fun id attempt hrow htimed => ⟨attempt, ?_, htimed⟩
  obtain ⟨-, hstatus⟩ := Bool.and_eq_true_iff.mp htimed
  refine h.closed_same hkeeps hrow ?_
  rw [TaskAttempt.active, beq_iff_eq.mp hstatus]
  rfl

/-- An attempt the watchdog closes is counted in addition. -/
theorem timedOut_expire {id : TaskAttemptId} {attempt : TaskAttempt} {finished : Time}
    (hrow : r.attempts id = some attempt) (hactive : attempt.active = true)
    (hrow' : r'.attempts = r.attempts.modify id (TaskAttempt.expired env finished)) :
    r.timedOut attempt.taskId < r'.timedOut attempt.taskId := by
  have hopen : ∀ row, r.attempts id = some row → (row.taskId == attempt.taskId &&
      row.status == .TIMED_OUT) = false := fun row hsame => by
    rw [hrow] at hsame
    cases hsame
    have hne : attempt.status ≠ .TIMED_OUT := fun htimed => by
      rw [TaskAttempt.active, htimed] at hactive
      cases hactive
    rw [beq_false_of_ne hne, Bool.and_false]
  refine @Table.count_lt _ _ _ _ id (attempt.expired env finished) (fun key row hkey hp => ?_)
    ?_ (by simp [TaskAttempt.expired]) hopen
  · refine ⟨row, ?_, hp⟩
    rw [hrow', Table.modify_apply, if_neg, hkey]
    rintro rfl
    rw [hopen row hkey] at hp
    cases hp
  · rw [hrow', Table.modify_apply, if_pos rfl, hrow]
    rfl

/-- **A job the watchdog adds is paid for** with an attempt that timed out, and
the budget was not used up. -/
theorem Effect.watchdog_pays (h : Effect env .watchdog r r') (taskId : TaskId) :
    r'.jobsOf taskId = r.jobsOf taskId ∨
      r'.jobsOf taskId = r.jobsOf taskId + 1 ∧ r.timedOut taskId < r'.timedOut taskId ∧
        r.timedOut taskId < TasksService.watchdogMaxRequeues env := by
  cases h with
  | submitted _ hcall => cases hcall
  | failedOver _ _ _ _ hcall => cases hcall
  | jobTaken _ hcall => cases hcall
  | @requeued other task id attempt finished updated logs _ htask hrunning hrow hid hactive
      hcount =>
      rw [@Rows.jobsOf_insert r _ _ rfl]
      by_cases hsame : other = taskId
      · subst hsame hid
        rw [if_pos rfl]
        exact .inr ⟨rfl, timedOut_expire hrow hactive rfl, hcount⟩
      · rw [if_neg fun heq => hsame (Option.some.inj heq)]
        exact .inl rfl
  | _ => exact .inl rfl

/-- What the watchdog adds to the jobs of a task, at a visit. -/
def watchdogRequeues (env : Env) (taskId : TaskId) : Hub × HubCall → ℕ
  | (h, .watchdog) => (h.after env .watchdog).rows.jobsOf taskId - h.rows.jobsOf taskId
  | _ => 0

/-- A visit takes its requeues from the budget. -/
theorem visit_within_budget (h : Hub) (call : HubCall) (hkeeps : call.keepsServers = true)
    (taskId : TaskId) :
    h.rows.timedOut taskId + watchdogRequeues env taskId (h, call) ≤
        (h.after env call).rows.timedOut taskId ∧
      (watchdogRequeues env taskId (h, call) = 0 ∨
        h.rows.timedOut taskId + watchdogRequeues env taskId (h, call) ≤
          TasksService.watchdogMaxRequeues env) := by
  have hchain := after_effects env h call
  by_cases hwatchdog : call = .watchdog
  · subst hwatchdog
    unfold watchdogRequeues
    dsimp only at hchain ⊢
    generalize (h.after env .watchdog).rows = r at hchain ⊢
    suffices hall : h.rows.jobsOf taskId ≤ r.jobsOf taskId ∧
        h.rows.timedOut taskId + (r.jobsOf taskId - h.rows.jobsOf taskId) ≤ r.timedOut taskId ∧
        (r.jobsOf taskId - h.rows.jobsOf taskId = 0 ∨
          h.rows.timedOut taskId + (r.jobsOf taskId - h.rows.jobsOf taskId) ≤
            TasksService.watchdogMaxRequeues env) from hall.2
    induction hchain with
    | refl => simp
    | tail _ hstep ih =>
        have hle := hstep.timedOut_le hkeeps taskId
        rcases hstep.watchdog_pays taskId with hsame | ⟨hmore, hlt, hbudget⟩ <;> omega
  · have hnone : watchdogRequeues env taskId (h, call) = 0 := by
      cases call <;> first | rfl | exact absurd rfl hwatchdog
    rw [hnone]
    refine ⟨?_, .inl rfl⟩
    generalize (h.after env call).rows = r at hchain ⊢
    induction hchain with
    | refl => exact le_rfl
    | tail _ hstep ih => exact ih.trans (hstep.timedOut_le hkeeps taskId)

/-- **The requeues of a run are within the budget**, counted together with the
attempts that timed out. -/
theorem run_within_budget {h : Hub} {calls : List HubCall}
    (hruns : (hubMachine env HubCall.Contractual).Runs h calls) (taskId : TaskId) :
    (((hubMachine env HubCall.Contractual).visits h calls).map
        (watchdogRequeues env taskId)).sum = 0 ∨
      h.rows.timedOut taskId + (((hubMachine env HubCall.Contractual).visits h calls).map
        (watchdogRequeues env taskId)).sum ≤ TasksService.watchdogMaxRequeues env := by
  induction calls generalizing h with
  | nil => exact .inl rfl
  | cons call calls ih =>
      obtain ⟨⟨hcall, -⟩, hrest⟩ := (Machine.runs_cons _ _ _ _).mp hruns
      rw [Machine.visits_cons, List.map_cons, List.sum_cons]
      obtain ⟨hpaid, hfirst⟩ := @visit_within_budget env h call hcall.2 taskId
      have hlast := ih hrest
      change _ ∨ (h.after env call).rows.timedOut taskId + _ ≤ _ at hlast
      omega

/-! ## Runs -/

/-- **Failover is bounded.**  In every run without deletion of a server, no
attempt at a task is made on a server after the attempt that spent it, a task
spends a server at most once, and the watchdog queues a task again at most
`watchdogMaxRequeues` times. -/
theorem failover_bounded {first : Hub} {calls : List HubCall} (hstart : first.Fresh)
    (hruns : (hubMachine env HubCall.Contractual).Runs first calls) :
    let final := (hubMachine env HubCall.Contractual).exec first calls
    (∀ front back, calls = front ++ back → ∀ id attempt,
      ((hubMachine env HubCall.Contractual).exec first front).attempts id = some attempt →
      SpentBy env ((hubMachine env HubCall.Contractual).visits first front)
        ((hubMachine env HubCall.Contractual).exec first front) id →
      ∀ id' attempt', final.attempts id' = some attempt' → attempt'.taskId = attempt.taskId →
        attempt'.serverId = attempt.serverId → id' ≤ id) ∧
    (∀ id id' attempt attempt', final.attempts id = some attempt →
      final.attempts id' = some attempt' → attempt'.taskId = attempt.taskId →
      attempt'.serverId = attempt.serverId →
      SpentBy env ((hubMachine env HubCall.Contractual).visits first calls) final id →
      SpentBy env ((hubMachine env HubCall.Contractual).visits first calls) final id' →
      id' = id) ∧
    ∀ taskId, (((hubMachine env HubCall.Contractual).visits first calls).map
      (watchdogRequeues env taskId)).sum ≤ TasksService.watchdogMaxRequeues env := by
  intro final
  have hn : final.rows.NoReturn :=
    reachable_no_return ((Machine.Reachable.of_start hstart).exec hruns)
  refine ⟨?_, ?_, fun taskId => ?_⟩
  · rintro front back rfl id attempt hrow hspent id' attempt' hrow' htask hserver
    obtain ⟨hfront, hback⟩ := (Machine.runs_append _ _ _ _).mp hruns
    have hspent := hspent.spent hfront hrow
    have hkept := exec_closed_same hback hrow (spentAttempt_closed hspent)
    rw [← Machine.exec_append] at hkept
    exact hn hkept hrow' htask hserver hspent
  · intro id id' attempt attempt' hrow hrow' htask hserver hspent hspent'
    have hspent := hspent.spent hruns hrow
    have hspent' := hspent'.spent hruns hrow'
    exact le_antisymm (hn hrow hrow' htask hserver hspent)
      (hn hrow' hrow htask.symm hserver.symm hspent')
  · rcases run_within_budget hruns taskId with hzero | hle <;> omega

/-- The server 0 is spent by a capacity failure and the server 1 by the watchdog:
dispatch finds nobody any more. -/
theorem failover_bounded_spent :
    let failure : DaemonTaskFailurePayload := ⟨.CAPACITY_EXHAUSTED, none, some (js "busy"), none⟩
    let calls := sampleConnects ++
      [.submit 0 ⟨0, .CODEX, sampleInput⟩, .dispatch 0,
        .message 0 (.TASK_RESULT ⟨.id 0, .status .FAILED, some failure, none⟩), .dispatch 1,
        .watchdog, .dispatch 2]
    (∀ id attempt, ((hubMachine Env.sample HubCall.Contractual).exec Hub.sample calls).attempts id =
      some attempt → attempt.taskId = 0 → attempt.serverId = 1 → id ≤ 1) ∧
    (((hubMachine Env.sample HubCall.Contractual).visits Hub.sample calls).map
      (watchdogRequeues Env.sample 0)).sum ≤ 2 := by
  intro failure calls
  have hruns : (hubMachine Env.sample HubCall.Contractual).Runs Hub.sample calls := by
    decide
  have hstatus : (((hubMachine Env.sample HubCall.Contractual).exec Hub.sample calls).attempts
      1).map (fun attempt => (attempt.taskId, attempt.serverId, attempt.status)) =
      some (0, 1, .TIMED_OUT) := by decide
  obtain ⟨spent, hrow, hspent⟩ := Option.map_eq_some_iff.mp hstatus
  obtain ⟨htask, hserver, htimed⟩ : spent.taskId = 0 ∧ spent.serverId = 1 ∧
      spent.status = .TIMED_OUT := by simpa using hspent
  have hmax : TasksService.watchdogMaxRequeues Env.sample = 2 := by decide
  obtain ⟨hnever, -, hbudget⟩ := failover_bounded Hub.sample_fresh hruns
  refine ⟨fun id attempt hstored hof hon => ?_, hmax ▸ hbudget 0⟩
  exact hnever calls [] (List.append_nil _).symm 1 spent hrow (.inl ⟨spent, hrow, htimed⟩) id
    attempt hstored (hof.trans htask.symm) (hon.trans hserver.symm)

end CodeCaller
