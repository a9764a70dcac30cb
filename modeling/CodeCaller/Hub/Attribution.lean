import CodeCaller.Hub.Failover

/-!
# Attribution of outcomes

A result closes the latest active attempt of its task, whichever daemon sent it.  The outcome is
that of the server of the attempt as long as the daemon of that server is the one that reports.

`after_result_attempts` is the description of what a result does to the attempts, with both ways a
result can go (`SparesAttempts` collects what the rest of the handlers does not touch).  From it:

* `attributes_of_own`: if the sender is the daemon of the server of the attempt to be closed, an
  attempt ends by a result of its server only.
* `spent_reported`: and a server is excluded for a task only after a timeout or a report of its own
  daemon.  This is an induction on the run, because the exclusion is read from the rows much later.
* `outcomes_attributed`: both, over runs.
* `outcomes_not_attributed`: what happens otherwise.  A task that the watchdog has moved is still
  being worked on by its old daemon, and the message says which task, not which attempt.
-/

namespace CodeCaller

open Async

variable {env : Env} {call : HubCall} {r r' : Rows} {h : Hub} {socketId : ℕ}
  {payload : DaemonTaskResultPayload}

/-! ## The attempts after a result -/

/-- The attempts are as they were. -/
def SparesAttempts (h h' : Hub) : Prop := h'.attempts = h.attempts

/-- What leaves the rows alone leaves the attempts alone. -/
theorem Quiet.spares (h h' : Hub) (hquiet : Quiet h h') : SparesAttempts h h' :=
  congrArg Rows.attempts hquiet

/-- A query changes no attempt. -/
theorem read_spares {α : Type} (query : Hub → α) :
    (Proc.read query : HubM α).Guarantees SparesAttempts :=
  (read_quiet query).mono Quiet.spares

/-- The status of a task is not that of its attempts. -/
theorem taskUpdate_spares (taskId : TaskId) (data : Task → Task) :
    (Prisma.taskUpdate env taskId data).Guarantees SparesAttempts := by
  refine Proc.guarantees_atomically fun h => ?_
  cases h.tasks taskId with
  | none => rfl
  | some task =>
      dsimp only
      split <;> rfl

/-- A status is written to the task only. -/
theorem updateStatus_spares (ref : TaskRef) (status : StatusRef) (result : Option Json) :
    (TasksService.updateStatus env ref status result).Guarantees SparesAttempts := by
  unfold TasksService.updateStatus
  refine Proc.Guarantees.bind ?_ fun id => ?_
  · cases ref <;> trivial
  · exact .ite (fun _ => trivial) fun _ => (taskUpdate_spares id _).bind fun task =>
      ((serverOf_quiet task).mono Quiet.spares).bind fun server =>
        ((notifyUser_quiet _ _).mono Quiet.spares).bind fun _ => Proc.guarantees_pure _

/-- So what follows the closing of an attempt leaves it alone: -/
theorem updateTaskAndNotify_spares (taskId : TaskId) (status : TaskStatus) (result : Option Json)
    (logs : JsString) :
    (TasksService.updateTaskAndNotify env taskId status result logs).Guarantees
      SparesAttempts := by
  unfold TasksService.updateTaskAndNotify
  exact (taskUpdate_spares taskId _).bind fun task => ((serverOf_quiet task).mono Quiet.spares).bind
    fun server => ((notifyUser_quiet _ _).mono Quiet.spares).bind fun _ => Proc.guarantees_pure _

/-- the push, -/
theorem sendPush_spares (userId : UserId) (title body : JsString) :
    (NotificationsService.sendPush env userId title body).Guarantees SparesAttempts :=
  (sendPush_quiet userId title body).mono Quiet.spares

/-- and the search for another server. -/
theorem getDispatchCandidates_spares (workerType : WorkerType) (serverId : ServerId)
    (excluded : List ServerId) :
    (WorkerRegistry.getDispatchCandidates env workerType serverId excluded).Guarantees
      SparesAttempts := by
  unfold WorkerRegistry.getDispatchCandidates WorkerRegistry.get
  refine Proc.Guarantees.bind ?_ fun _ => (read_spares _).bind fun found => ?_
  · exact .ite (fun _ => Proc.guarantees_pure _) fun _ => Proc.guarantees_throw _
  · cases found with
    | none => exact Proc.guarantees_throw _
    | some server => exact (read_spares _).bind fun _ => Proc.guarantees_pure _

/-- **A capacity failure** closes the latest active attempt, or leaves the attempts
alone because it finds no task. -/
theorem handleRetryableCapacityFailure_attempts (env : Env) (h : Hub)
    (hcapacity : TasksService.isRetryableCapacityFailure payload = true) :
    (((TasksService.handleRetryableCapacityFailure env payload).run h).2.attempts = h.attempts ∧
      ∀ taskId, payload.taskId = .id taskId → h.taskWithServer taskId = none) ∨
    ∃ selects lastSeen finished, payload.taskId.selects = some selects ∧
      ((TasksService.handleRetryableCapacityFailure env payload).run h).2.attempts =
        updateActive env selects (TaskAttempt.closed payload lastSeen finished) h.attempts := by
  unfold TasksService.handleRetryableCapacityFailure
  cases hid : payload.taskId with
  | filter selects => exact .inl ⟨rfl, nofun⟩
  | invalid => exact .inl ⟨rfl, nofun⟩
  | id taskId =>
      rw [Proc.run_bind_of_ok (show (Prisma.key (.id taskId)).run h = (.ok taskId, h) from rfl),
        Proc.run_bind_of_ok (show (Prisma.taskFindUniqueWithServer taskId).run h =
          (.ok (h.taskWithServer taskId), h) from rfl)]
      cases hfound : h.taskWithServer taskId with
      | none =>
          refine .inl ⟨rfl, fun other heq => ?_⟩
          cases heq
          exact hfound
      | some found =>
          obtain ⟨task, server⟩ := found
          obtain ⟨h₁, hfinish, hrows⟩ := @finishRunningAttempt_closes env h payload
            (.id taskId) _ .FAILED (some (TasksService.formatStructuredFailureReason payload)) rfl
            (closed_of_capacity hcapacity)
          refine .inr ⟨_, env.clock h.reads, env.clock (h.reads + 1), rfl, ?_⟩
          dsimp only
          rw [Proc.run_bind_of_ok hfinish]
          refine Eq.trans (Proc.Guarantees.run (G := SparesAttempts) ?_ (fun _ => rfl)
            (fun hab hbc => Eq.trans hbc hab) h₁) (congrArg Rows.attempts hrows)
          refine (read_spares _).bind fun excluded => (getDispatchCandidates_spares _ _ _).bind
            fun candidates => ?_
          cases candidates with
          | nil => exact (updateTaskAndNotify_spares _ _ _ _).bind fun _ => sendPush_spares _ _ _
          | cons first rest =>
              exact (updateTaskAndNotify_spares _ _ _ _).bind fun _ =>
                Proc.guarantees_atomically fun _ => rfl

/-- **A result closes the latest active attempt** its `taskId` selects, and no
other. -/
theorem after_result_attempts (env : Env) (h : Hub) (socketId : ℕ)
    (payload : DaemonTaskResultPayload) :
    ((h.after env (.message socketId (.TASK_RESULT payload))).attempts = h.attempts ∧
      ∀ taskId, payload.taskId = .id taskId → h.taskWithServer taskId = none) ∨
    ∃ selects lastSeen finished, payload.taskId.selects = some selects ∧
      (h.after env (.message socketId (.TASK_RESULT payload))).attempts =
        updateActive env selects (TaskAttempt.closed payload lastSeen finished) h.attempts := by
  have hafter : h.after env (.message socketId (.TASK_RESULT payload)) =
      ((TasksService.handleDaemonTaskResult env payload).run h).2 := by
    unfold Hub.after perform DaemonGateway.onMessage
    rw [Proc.run_bind]
    dsimp only
    cases (TasksService.handleDaemonTaskResult env payload).run h with
    | mk outcome h₁ => cases outcome <;> rfl
  rw [hafter]
  unfold TasksService.handleDaemonTaskResult
  by_cases hcapacity : TasksService.isRetryableCapacityFailure payload = true
  · have hhandled := handleRetryableCapacityFailure_attempts env h hcapacity
    rw [if_pos hcapacity, Proc.run_bind]
    cases hrun : (TasksService.handleRetryableCapacityFailure env payload).run h with
    | mk outcome h₁ =>
      rw [hrun] at hhandled
      cases outcome <;> exact hhandled
  · rw [if_neg hcapacity]
    cases hsel : payload.taskId.selects with
    | none =>
        rw [Proc.run_bind_of_error (finishRunningAttempt_run_invalid hsel)]
        refine .inl ⟨rfl, fun taskId hid => ?_⟩
        rw [hid] at hsel
        cases hsel
    | some selects =>
        obtain ⟨h₁, hfinish, hrows⟩ := @finishRunningAttempt_closes env h payload _ _ _ _ hsel
          (closed_of_not_capacity hcapacity)
        refine .inr ⟨selects, env.clock h.reads, env.clock (h.reads + 1), rfl, ?_⟩
        rw [Proc.run_bind_of_ok hfinish]
        refine Eq.trans (Proc.Guarantees.run (G := SparesAttempts) ?_ (fun _ => rfl)
          (fun hab hbc => Eq.trans hbc hab) h₁) (congrArg Rows.attempts hrows)
        exact (updateStatus_spares _ _ _).bind fun row => sendPush_spares _ _ _

/-- An attempt that a result changes is the latest active one. -/
theorem result_changes {id : TaskAttemptId} {attempt' : TaskAttempt}
    (hrow : (h.after env (.message socketId (.TASK_RESULT payload))).attempts id = some attempt') :
    h.attempts id = some attempt' ∨
    ∃ selects attempt lastSeen finished, payload.taskId.selects = some selects ∧
      latestActive env h.attempts selects = some (id, attempt) ∧
      attempt' = attempt.closed payload lastSeen finished := by
  rcases after_result_attempts env h socketId payload with
    ⟨hsame, -⟩ | ⟨selects, lastSeen, finished, hsel, hattempts⟩
  · rw [hsame] at hrow
    exact .inl hrow
  · rw [hattempts] at hrow
    cases hlatest : latestActive env h.attempts selects with
    | none =>
        unfold updateActive at hrow
        rw [hlatest] at hrow
        exact .inl hrow
    | some found =>
        obtain ⟨found, attempt⟩ := found
        unfold updateActive at hrow
        rw [hlatest] at hrow
        dsimp only at hrow
        rw [Table.modify_apply] at hrow
        split at hrow
        · next heq =>
          subst heq
          rw [(latestActive_some hlatest).1] at hrow
          cases hrow
          exact .inr ⟨selects, attempt, lastSeen, finished, hsel, hlatest, rfl⟩
        · exact .inl hrow

/-! ## Blame -/

/-- An active attempt has no failure reason. -/
def Rows.Unblamed (r : Rows) : Prop :=
  ∀ ⦃id attempt⦄, r.attempts id = some attempt → attempt.active = true →
    attempt.failureReason = none

/-- A reason is written by what closes an attempt, and by nothing else. -/
theorem Effect.unblamed (h : Effect env call r r') (hu : r.Unblamed) : r'.Unblamed := by
  intro id attempt' hrow hactive
  have hchange := h.attempt id
  rw [hrow] at hchange
  generalize hold : r.attempts id = row at hchange
  cases hchange with
  | kept => exact hu hold hactive
  | @touched attempt _ _ _ _ _ _ hopen => exact @hu id attempt hold hopen
  | settled =>
      rw [TaskAttempt.closed_active] at hactive
      cases hactive
  | expired => cases hactive
  | assigned => rfl
  | rejected => cases hactive

/-- Nobody is blamed without a report, in every state that can be reached. -/
theorem reachable_unblamed {allowed : HubCall → Prop} {h : Hub}
    (hreach : (hubMachine env allowed).Reachable h) : h.rows.Unblamed :=
  reachable_rows (fun h hfresh id attempt hrow => by
    rw [show h.rows.attempts = Table.empty from hfresh.attempts] at hrow
    cases hrow) (fun _ hu heffect => heffect.unblamed hu) hreach

/-- A result that is no capacity failure spends no server. -/
theorem closed_spent {attempt : TaskAttempt} {lastSeen finished : Time}
    (hblame : attempt.failureReason = none)
    (hspent : spentAttempt (attempt.closed payload lastSeen finished) = true) :
    TasksService.isRetryableCapacityFailure payload = true := by
  by_contra hcapacity
  unfold TaskAttempt.closed at hspent
  rw [if_neg hcapacity] at hspent
  by_cases hcompleted : payload.status = .status .COMPLETED
  · rw [if_pos hcompleted] at hspent
    cases hspent
  · rw [if_neg hcompleted, hblame] at hspent
    by_cases hfailed : payload.status = .status .FAILED
    · rw [if_pos hfailed] at hspent
      cases hspent
    · rw [if_neg hfailed] at hspent
      cases hspent

/-- A call that is no result spends a server only when an attempt times out. -/
theorem after_spent_timed_out (hcall : ∀ socketId payload,
      call ≠ .message socketId (.TASK_RESULT payload)) {id : TaskAttemptId}
    {attempt' : TaskAttempt} (hrow : (h.after env call).attempts id = some attempt')
    (hspent : spentAttempt attempt' = true) :
    h.attempts id = some attempt' ∨ attempt'.status = .TIMED_OUT := by
  have hchain := after_effects env h call
  change (h.after env call).rows.attempts id = some attempt' at hrow
  change h.rows.attempts id = some attempt' ∨ _
  generalize (h.after env call).rows = r at hchain hrow
  induction hchain generalizing attempt' with
  | refl => exact .inl hrow
  | @tail r r' _ hstep ih =>
      have hchange := hstep.attempt id
      rw [hrow] at hchange
      generalize hold : r.attempts id = row at hchange
      cases hchange with
      | kept => exact ih hspent hold
      | touched => cases hspent
      | settled _ _ hresult => exact absurd hresult (hcall _ _)
      | expired => exact .inr rfl
      | assigned => cases hspent
      | rejected => cases hspent

/-- A closed attempt stays on its server. -/
@[simp] theorem TaskAttempt.closed_serverId {lastSeen finished : Time} {attempt : TaskAttempt} :
    (attempt.closed payload lastSeen finished).serverId = attempt.serverId := by
  unfold TaskAttempt.closed
  split <;> rfl

/-! ## Reports of the own daemon -/

/-- The server a socket was accepted for. -/
def Hub.daemonOf (h : Hub) (socketId : ℕ) : Option ServerId :=
  ((h.sockets socketId).bind (·.data)).map (·.1)

/-- The server whose daemon sends a result. -/
def HubCall.resultFrom (h : Hub) : HubCall → Option ServerId
  | message socketId (.TASK_RESULT _) => h.daemonOf socketId
  | _ => none

/-- **A result from the server concerned**: the attempt it will close, if there
is one, is on the server of the socket. -/
def HubCall.FromServerOfAttempt (env : Env) (h : Hub) : HubCall → Prop
  | message socketId (.TASK_RESULT payload) =>
    ∀ found ∈ payload.taskId.selects.bind (latestActive env h.attempts),
      h.daemonOf socketId = some found.2.serverId
  | _ => True

instance (h : Hub) (call : HubCall) : Decidable (call.FromServerOfAttempt env h) := by
  unfold HubCall.FromServerOfAttempt
  split <;> infer_instance

/-- **An attempt ends by a result of its server only**, at a visit. -/
def AttributesOutcomes (env : Env) (visit : Hub × HubCall) : Prop :=
  ∀ socketId payload id attempt attempt', visit.2 = .message socketId (.TASK_RESULT payload) →
    visit.1.attempts id = some attempt →
    (visit.1.after env visit.2).attempts id = some attempt' → attempt'.status ≠ attempt.status →
    attempt'.status = .SUCCEEDED ∨ attempt'.status = .FAILED →
    visit.1.daemonOf socketId = some attempt.serverId

/-- **The daemon of a server reported the capacity failure** of an attempt, in
some visit. -/
def ReportedByDaemon (env : Env) (visits : List (Hub × HubCall)) (id : TaskAttemptId)
    (serverId : ServerId) : Prop :=
  ∃ visit ∈ visits, visit.2.resultFrom visit.1 = some serverId ∧ ClosesForCapacity env visit id

/-- **A server is excluded for a reason of its own**: an attempt on it timed
out, or its daemon reported a capacity failure. -/
def ExcludesFairly (env : Env) (visits : List (Hub × HubCall)) (h : Hub) : Prop :=
  ∀ taskId excluded, ((retryExcludedServerIds env taskId).run h).1 = .ok excluded →
    ∀ serverId ∈ excluded, ∃ id attempt, h.attempts id = some attempt ∧
      attempt.taskId = taskId ∧ attempt.serverId = serverId ∧
      (attempt.status = .TIMED_OUT ∨ ReportedByDaemon env visits id serverId)

/-- One visit, if the result comes from the server of the attempt. -/
theorem attributes_of_own {visit : Hub × HubCall} (hown : visit.2.FromServerOfAttempt env visit.1) :
    AttributesOutcomes env visit := by
  rintro socketId payload id attempt attempt' hcall hrow hrow' hchanged -
  obtain ⟨h, call⟩ := visit
  dsimp only at hcall hrow hrow' hown ⊢
  subst hcall
  rcases result_changes hrow' with hsame | ⟨selects, found, _, _, hsel, hlatest, -⟩
  · rw [hrow] at hsame
    cases hsame
    exact absurd rfl hchanged
  · have hfound := (latestActive_some hlatest).1
    rw [hrow] at hfound
    cases hfound
    exact hown (id, attempt) (Option.bind_eq_some_iff.mpr ⟨selects, hsel, hlatest⟩)

/-- What spent a server in a run of such results. -/
theorem spent_reported {first : Hub} (hstart : first.Fresh) (calls : List HubCall)
    (hruns : (hubMachine env fun _ => True).Runs first calls)
    (hown : ∀ visit ∈ (hubMachine env fun _ => True).visits first calls,
      visit.2.FromServerOfAttempt env visit.1) {id : TaskAttemptId} {attempt : TaskAttempt}
    (hrow : ((hubMachine env fun _ => True).exec first calls).attempts id = some attempt)
    (hspent : spentAttempt attempt = true) :
    attempt.status = .TIMED_OUT ∨ ReportedByDaemon env
      ((hubMachine env fun _ => True).visits first calls) id attempt.serverId := by
  induction calls using List.reverseRecOn generalizing attempt with
  | nil =>
      rw [Machine.exec_nil, hstart.attempts] at hrow
      cases hrow
  | append_singleton calls call ih =>
      obtain ⟨hfront, -⟩ := (Machine.runs_append _ _ _ _).mp hruns
      rw [Machine.visits_append] at hown ⊢
      rw [Machine.exec_append] at hrow
      have hunblamed := reachable_unblamed ((Machine.Reachable.of_start hstart).exec hfront)
      have ih := @ih hfront fun visit hvisit => hown visit (List.mem_append_left _ hvisit)
      have hlast := hown _ (List.mem_append_right _ List.mem_cons_self)
      generalize (hubMachine env fun _ => True).exec first calls = h at ih hrow hunblamed hlast ⊢
      generalize (hubMachine env fun _ => True).visits first calls = visits at ih ⊢
      change (h.after env call).attempts id = some attempt at hrow
      have hbefore : h.attempts id = some attempt → attempt.status = .TIMED_OUT ∨
          ReportedByDaemon env (visits ++ [(h, call)]) id attempt.serverId := fun hold => by
        rcases ih hold hspent with htimed | ⟨visit, hvisit, hreported⟩
        · exact .inl htimed
        · exact .inr ⟨visit, List.mem_append_left _ hvisit, hreported⟩
      by_cases hresult : ∃ socketId payload, call = .message socketId (.TASK_RESULT payload)
      · obtain ⟨socketId, payload, rfl⟩ := hresult
        rcases result_changes hrow with
          hsame | ⟨selects, old, lastSeen, finished, hsel, hlatest, rfl⟩
        · exact hbefore hsame
        · obtain ⟨hold, -, hactive⟩ := latestActive_some hlatest
          have hcapacity := closed_spent (hunblamed hold hactive) hspent
          rw [TaskAttempt.closed_serverId]
          have hfrom : h.daemonOf socketId = some old.serverId :=
            hlast (id, old) (Option.bind_eq_some_iff.mpr ⟨selects, hsel, hlatest⟩)
          exact .inr ⟨_, List.mem_append_right _ List.mem_cons_self, hfrom, socketId, payload, old,
            _, rfl, hcapacity, hold, hactive, hrow, TaskAttempt.closed_active ..⟩
      · rcases after_spent_timed_out (fun socketId payload hcall =>
          hresult ⟨socketId, payload, hcall⟩) hrow hspent with hsame | htimed
        · exact hbefore hsame
        · exact .inl htimed

/-- **Outcomes are attributed to the right server** in every run in which each
result comes from the server of the attempt it closes. -/
theorem outcomes_attributed {first : Hub} {calls : List HubCall} (hstart : first.Fresh)
    (hruns : (hubMachine env fun _ => True).Runs first calls)
    (hown : ∀ visit ∈ (hubMachine env fun _ => True).visits first calls,
      visit.2.FromServerOfAttempt env visit.1) :
    (∀ visit ∈ (hubMachine env fun _ => True).visits first calls, AttributesOutcomes env visit) ∧
    ExcludesFairly env ((hubMachine env fun _ => True).visits first calls)
      ((hubMachine env fun _ => True).exec first calls) := by
  refine ⟨fun visit hvisit => attributes_of_own (hown visit hvisit), ?_⟩
  intro taskId excluded hexcluded serverId hmem
  obtain ⟨found, hrun, hspec⟩ := retryExcludedServerIds_run env
    ((hubMachine env fun _ => True).exec first calls) taskId
  rw [hrun] at hexcluded
  cases hexcluded
  obtain ⟨id, attempt, hrow, htask, hspent, rfl⟩ := (hspec serverId).mp hmem
  exact ⟨id, attempt, hrow, htask, rfl, spent_reported hstart calls hruns hown hrow hspent⟩

/-- The daemon of the server 0 reports a capacity failure, and the one of the
server 1 completes the task. -/
theorem outcomes_attributed_own :
    let failure : DaemonTaskFailurePayload := ⟨.CAPACITY_EXHAUSTED, none, some (js "busy"), none⟩
    let calls := sampleConnects ++
      [.submit 0 ⟨0, .CODEX, sampleInput⟩, .dispatch 0,
        .message 0 (.TASK_RESULT ⟨.id 0, .status .FAILED, some failure, none⟩), .dispatch 1,
        .message 1 (.TASK_RESULT ⟨.id 0, .status .COMPLETED, none, none⟩)]
    ExcludesFairly Env.sample ((hubMachine Env.sample fun _ => True).visits Hub.sample calls)
      ((hubMachine Env.sample fun _ => True).exec Hub.sample calls) := by
  intro failure calls
  have hruns : (hubMachine Env.sample fun _ => True).Runs Hub.sample calls := by decide
  have hown : ∀ visit ∈ (hubMachine Env.sample fun _ => True).visits Hub.sample calls,
      visit.2.FromServerOfAttempt Env.sample visit.1 := by decide
  exact (outcomes_attributed Hub.sample_fresh hruns hown).2

/-- **A late report is attributed to the wrong server.**  The task was given to
the server 0, timed out there and is on the server 1; a late result of the
daemon of the server 0 ends the attempt on the server 1, and a late capacity
failure excludes the server 1. -/
theorem outcomes_not_attributed :
    let failure : DaemonTaskFailurePayload := ⟨.CAPACITY_EXHAUSTED, none, some (js "busy"), none⟩
    let calls := sampleConnects ++
      [.submit 0 ⟨0, .CODEX, sampleInput⟩, .dispatch 0, .watchdog, .dispatch 1]
    let h := (hubMachine Env.sample fun _ => True).exec Hub.sample calls
    let late := HubCall.message 0 (.TASK_RESULT ⟨.id 0, .status .COMPLETED, none, none⟩)
    let busy := HubCall.message 0 (.TASK_RESULT ⟨.id 0, .status .FAILED, some failure, none⟩)
    (hubMachine Env.sample fun _ => True).Runs Hub.sample (calls ++ [late]) ∧
    (hubMachine Env.sample fun _ => True).Runs Hub.sample (calls ++ [busy]) ∧
    h.daemonOf 0 = some 0 ∧ ⟨0, .TASK_SUBMIT 0 sampleInput⟩ ∈ h.emitted ∧
    ¬AttributesOutcomes Env.sample (h, late) ∧
    ¬ExcludesFairly Env.sample
      ((hubMachine Env.sample fun _ => True).visits Hub.sample (calls ++ [busy]))
      ((hubMachine Env.sample fun _ => True).exec Hub.sample (calls ++ [busy])) := by
  intro failure calls h late busy
  refine ⟨by decide, by decide, by decide, ?_, ?_, ?_⟩
  · have hemitted : h.emitted =
      [⟨0, .TASK_SUBMIT 0 sampleInput⟩, ⟨1, .TASK_SUBMIT 0 sampleInput⟩] := by rfl
    rw [hemitted]
    exact List.mem_cons_self
  · intro hattributes
    -- the late result closes the attempt on server 1, and comes from server 0
    have hbefore : (h.attempts 1).map (fun attempt => (attempt.serverId, attempt.status)) =
        some (1, .RUNNING) := by decide
    have hafter : ((h.after Env.sample late).attempts 1).map (·.status) = some .SUCCEEDED := by
      decide
    obtain ⟨attempt, hrow, hattempt⟩ := Option.map_eq_some_iff.mp hbefore
    obtain ⟨attempt', hrow', hstatus'⟩ := Option.map_eq_some_iff.mp hafter
    obtain ⟨hserver, hstatus⟩ : attempt.serverId = 1 ∧ attempt.status = .RUNNING := by
      simpa using hattempt
    have hfrom := hattributes 0 _ 1 attempt attempt' rfl hrow hrow'
      (by rw [hstatus, hstatus']; decide) (.inl hstatus')
    have hdaemon : h.daemonOf 0 = some 0 := by decide
    rw [hserver] at hfrom
    exact absurd (hdaemon.symm.trans hfrom) (by decide)
  · intro hfair
    obtain ⟨final, hfinal⟩ : ∃ final, final =
      (hubMachine Env.sample fun _ => True).exec Hub.sample (calls ++ [busy]) := ⟨_, rfl⟩
    -- server 1 is excluded, and has reported nothing
    have hspent : (final.attempts 1).map (fun attempt =>
        (attempt.taskId, attempt.serverId, spentAttempt attempt)) = some (0, 1, true) := by
      rw [hfinal]
      decide
    have hnone : ∀ row ∈ final.attempts.toList, row.2.serverId = 1 → row.2.status ≠ .TIMED_OUT := by
      rw [hfinal]
      decide
    have hsilent : ∀ visit ∈ (hubMachine Env.sample fun _ => True).visits Hub.sample
        (calls ++ [busy]), visit.2.resultFrom visit.1 ≠ some 1 := by decide
    rw [← hfinal] at hfair
    obtain ⟨attempt, hrow, hattempt⟩ := Option.map_eq_some_iff.mp hspent
    obtain ⟨htask, hserver, hspent⟩ : attempt.taskId = 0 ∧ attempt.serverId = 1 ∧
        spentAttempt attempt = true := by simpa using hattempt
    obtain ⟨excluded, hrun, hspec⟩ := retryExcludedServerIds_run Env.sample final 0
    obtain ⟨id, found, hfound, -, hon, htimed | ⟨visit, hvisit, hfrom, -⟩⟩ :=
      hfair 0 excluded (by rw [hrun]) 1 ((hspec 1).mpr ⟨1, attempt, hrow, htask, hspent, hserver⟩)
    · exact hnone (id, found) (Table.mem_toList.mpr hfound) hon htimed
    · exact hsilent visit hvisit hfrom

end CodeCaller
