import CodeCaller.Hub.LogWriters

/-!
# Concurrent writers of one log

A call that appends to the logs of a task sets them to what it read before and a text, so what was
appended in between is overwritten.  Nothing is lost in a run whose writers find the logs as they
read them; this is the condition `CallPool.Undisturbed`, on the state a node is run in.

What a call writes is read off the run: the logs after its write without those it had read
(`CallPool.writeOf`).  `LogsKept` then compares the final logs with all that was written.

### Main definitions

* `CallPool.setsLogs`: whether the next node of a call sets the logs.  It is decided by running the
  node twice, on the Hub with two different logs: a node that keeps both is silent.  So the
  condition is about the programs as they are, and needs no annotation of theirs.
* `CallPool.InOrder`: the log messages of one daemon are taken up in the order it sent them.
* `LogsTracked`: what the calls know of the logs, each by its phase.
* `LogsWritten`: a run and its writes, which `LogsKept` is read from.

### Main results

`logs_kept`: every text once, every chunk among them, and those of one daemon in its order.
`logs_not_kept`: two log messages that both read before either writes.
-/

namespace CodeCaller

open Async

/-! ## Writers -/

/-- The messages of daemons, the jobs of the queue and the scans: what no user
asks for. -/
def HubCall.background : HubCall → Bool
  | message _ _ | dispatch _ | watchdog => true
  | _ => false

/-- A log message for the task: the socket it came over, and its chunk. -/
def HubCall.logMessage (taskId : TaskId) : HubCall → Option (ℕ × JsString)
  | message socketId (.TASK_LOG payload) =>
    if payload.taskId.names taskId then some (socketId, payload.chunk) else none
  | _ => none

/-- Whether a call may write a line of the Hub. -/
def HubCall.mayReport (taskId : TaskId) : HubCall → Bool
  | message _ (.TASK_RESULT payload) =>
    payload.taskId.names taskId && TasksService.isRetryableCapacityFailure payload
  | dispatch _ | watchdog => true
  | _ => false

/-- The node a call reads the logs at: a job and the clock are read before. -/
def HubCall.readsLogsAt : HubCall → ℕ
  | dispatch _ | watchdog => 1
  | _ => 0

/-- What a call may write. -/
def HubCall.LogText (taskId : TaskId) (call : HubCall) (text : JsString) : Prop :=
  match call.logMessage taskId with
  | some sent => text = sent.2
  | none => HubLine text

/-- Where a call starts. -/
def HubCall.logPhase (taskId : TaskId) (call : HubCall) : LogPhase :=
  if (call.logMessage taskId).isSome || call.mayReport taskId then .before 0 else .wrote

section Calls

variable {env : Env} {h : Hub} {taskId : TaskId} {call : HubCall}

/-- A call that writes nothing. -/
theorem perform_silent (hp : (perform env call).Guarantees (Silent taskId))
    (hmessage : call.logMessage taskId = none) (hreport : call.mayReport taskId = false) :
    (perform env call).Follows (Steady taskId)
      (LogMove call.readsLogsAt (call.LogText taskId) taskId)
      (fun a _ _ => (call.logMessage taskId).isSome = true → a = .wrote)
      (call.logPhase taskId) h := by
  have hphase : call.logPhase taskId = .wrote := by
    unfold HubCall.logPhase
    rw [hmessage, hreport]
    rfl
  rw [hphase]
  exact silent_follows hp nofun fun s outcome _ _ => rfl

/-- A call that may write a line of the Hub. -/
theorem perform_line (hp : (perform env call).Follows (Steady taskId)
      (LogMove call.readsLogsAt HubLine taskId) (fun _ _ _ => True) (.before 0) h)
    (hmessage : call.logMessage taskId = none) (hreport : call.mayReport taskId = true) :
    (perform env call).Follows (Steady taskId)
      (LogMove call.readsLogsAt (call.LogText taskId) taskId)
      (fun a _ _ => (call.logMessage taskId).isSome = true → a = .wrote)
      (call.logPhase taskId) h := by
  have htext : call.LogText taskId = HubLine := by
    unfold HubCall.LogText
    rw [hmessage]
  have hphase : call.logPhase taskId = .before 0 := by
    unfold HubCall.logPhase
    rw [hmessage, hreport]
    rfl
  rw [htext, hphase]
  refine hp.mono fun a s outcome _ hsome => ?_
  rw [hmessage] at hsome
  cases hsome

/-- A message names a task by its id. -/
theorem names_iff {ref : TaskRef} : ref.names taskId = true ↔ ref = .id taskId := by
  cases ref with
  | id other => exact beq_iff_eq.trans ⟨congrArg _, TaskRef.id.inj⟩
  | filter selects => exact ⟨nofun, nofun⟩
  | invalid => exact ⟨nofun, nofun⟩

/-- **Each call follows the protocol of its text.** -/
theorem perform_follows (hcall : call.background = true)
    (hhome : (h.taskWithServer taskId).isSome = true) :
    (perform env call).Follows (Steady taskId)
      (LogMove call.readsLogsAt (call.LogText taskId) taskId)
      (fun a _ _ => (call.logMessage taskId).isSome = true → a = .wrote)
      (call.logPhase taskId) h := by
  cases call with
  | dispatch jobId => exact perform_line (dispatch_follows hhome) rfl rfl
  | watchdog => exact perform_line (watchdog_follows hhome) rfl rfl
  | message socketId inbound =>
    cases inbound with
    | HEARTBEAT =>
        exact perform_silent (onHeartbeat_silent.bind fun _ => Proc.guarantees_pure _) rfl rfl
    | TASK_STATUS_UPDATE payload =>
        exact perform_silent (handleDaemonTaskStatus_silent.bind fun _ =>
          Proc.guarantees_pure _) rfl rfl
    | APPROVAL_REQUEST payload =>
        exact perform_silent (handleDaemonApprovalRequest_silent.bind fun _ =>
          Proc.guarantees_pure _) rfl rfl
    | TASK_LOG payload =>
        -- a log of another task is silent, and so is a result without a capacity failure
        by_cases hnames : payload.taskId.names taskId = true
        · have hmessage : (HubCall.message socketId (.TASK_LOG payload)).logMessage taskId =
              some (socketId, payload.chunk) := if_pos hnames
          have htext : (HubCall.message socketId (.TASK_LOG payload)).LogText taskId =
              (· = payload.chunk) := by
            unfold HubCall.LogText
            rw [hmessage]
          have hphase : (HubCall.message socketId (.TASK_LOG payload)).logPhase taskId =
              .before 0 := by
            unfold HubCall.logPhase
            rw [hmessage]
            rfl
          rw [htext, hphase]
          exact (taskLog_follows (names_iff.mp hnames) hhome).mono fun _ _ _ ha _ => ha
        · have hmessage : (HubCall.message socketId (.TASK_LOG payload)).logMessage taskId = none :=
            if_neg hnames
          exact perform_silent ((handleDaemonTaskLog_silent (Bool.not_eq_true _ ▸ hnames)).bind
            fun _ => Proc.guarantees_pure _) hmessage rfl
    | TASK_RESULT payload =>
        cases hreport : (HubCall.message socketId (.TASK_RESULT payload)).mayReport taskId with
        | false =>
            have hother : payload.taskId.names taskId = false ∨
                TasksService.isRetryableCapacityFailure payload = false :=
              Bool.and_eq_false_iff.mp hreport
            exact perform_silent ((handleDaemonTaskResult_silent hother).bind fun _ =>
              Proc.guarantees_pure _) rfl hreport
        | true =>
            obtain ⟨hnames, hcapacity⟩ := Bool.and_eq_true_iff.mp hreport
            refine perform_line ?_ rfl hreport
            refine .bind (Steady.refl taskId) (p := TasksService.handleDaemonTaskResult env payload)
              (.ite (fun _ => ?_) fun hnot => absurd hcapacity hnot)
            exact .bind (Steady.refl taskId) ((capacityFailure_follows (names_iff.mp hnames)
              hhome).mono fun a s outcome _ => by
                cases outcome with
                | error error => trivial
                | ok _ => exact fun _ _ => Proc.follows_pure fun _ _ => trivial)
  | _ => cases hcall

end Calls

/-! ## Runs of writers -/

/-- The Hub with other logs of the task. -/
def Hub.withLogs (h : Hub) (taskId : TaskId) (logs : JsString) : Hub :=
  { h with tasks := h.tasks.modify taskId fun row => { row with logs } }

/-- Whether the next node of the `i`-th call sets the logs: it does not keep both of
two different ones. -/
def CallPool.setsLogs (taskId : TaskId) (P : CallPool) (i : ℕ) : Bool :=
  [[], [0]].any fun logs =>
    (Pool.step ⟨P.shared.withLogs taskId logs, P.threads⟩ i).shared.logsOf taskId != some logs

/-- The node the `i`-th call reads the logs at. -/
def readNode (calls : List HubCall) (i : ℕ) : ℕ := calls[i]?.elim 0 (·.readsLogsAt)

/-- The logs as the `i`-th call read them. -/
def CallPool.logsRead (taskId : TaskId) (calls : List HubCall) (P : CallPool) (i : ℕ) :
    Option JsString :=
  P.threads[i]?.bind fun thread =>
    thread.past[readNode calls i]?.bind fun visit => visit.1.logsOf taskId

/-- **What is written at a visit**: the call that sets the logs, and what they are set
to without what it had read. -/
def CallPool.writeOf (taskId : TaskId) (calls : List HubCall) (visit : CallPool × ℕ) :
    Option (ℕ × JsString) :=
  if CallPool.setsLogs taskId visit.1 visit.2 then
    some (visit.2, (((visit.1.step visit.2).shared.logsOf taskId).getD []).drop
      ((CallPool.logsRead taskId calls visit.1 visit.2).getD []).length)
  else none

/-- All that is written in a run. -/
def logWrites (env : Env) (h : Hub) (calls : List HubCall) (taskId : TaskId)
    (schedule : List ℕ) : List (ℕ × JsString) :=
  (callMachine.visits (callPool env h calls) schedule).filterMap (CallPool.writeOf taskId calls)

section Daemons

variable {δ : Type}

/-- The daemon a log message for the task came from, where sockets are told apart by
their daemons: one daemon may have used several. -/
def logDaemon (taskId : TaskId) (daemon : ℕ → δ) (calls : List HubCall) (i : ℕ) : Option δ :=
  (calls[i]?.bind (·.logMessage taskId)).map fun sent => daemon sent.1

/-- Two log messages of one daemon. -/
def SameDaemon (taskId : TaskId) (daemon : ℕ → δ) (calls : List HubCall) (i j : ℕ) : Prop :=
  logDaemon taskId daemon calls i ≠ none ∧
    logDaemon taskId daemon calls i = logDaemon taskId daemon calls j

/-- The log messages of one daemon are taken up in the order it sent them, which is
that of the calls. -/
def CallPool.InOrder (taskId : TaskId) (daemon : ℕ → δ) (calls : List HubCall) (P : CallPool)
    (i : ℕ) : Prop :=
  ∀ j < i, SameDaemon taskId daemon calls j i → P.started j = true

/-- **The condition on a schedule**: who sets the logs finds them as it read them. -/
def CallPool.Undisturbed (taskId : TaskId) (calls : List HubCall) (P : CallPool) (i : ℕ) : Prop :=
  CallPool.setsLogs taskId P i = true →
    P.shared.logsOf taskId = CallPool.logsRead taskId calls P i

instance [DecidableEq δ] (taskId : TaskId) (daemon : ℕ → δ) (calls : List HubCall) (i j : ℕ) :
    Decidable (SameDaemon taskId daemon calls i j) :=
  inferInstanceAs (Decidable (_ ∧ _))

instance [DecidableEq δ] (taskId : TaskId) (daemon : ℕ → δ) (calls : List HubCall)
    (P : CallPool) (i : ℕ) : Decidable (CallPool.InOrder taskId daemon calls P i) :=
  inferInstanceAs (Decidable (∀ j < i, SameDaemon taskId daemon calls j i → P.started j = true))

instance (taskId : TaskId) (calls : List HubCall) (P : CallPool) (i : ℕ) :
    Decidable (CallPool.Undisturbed taskId calls P i) :=
  inferInstanceAs (Decidable (_ → _))

/-- **No log text is lost**: the logs have grown by all that was written, each text
once.  Every log message wrote its chunk, everything else that was written is a
line of the Hub, and the chunks of one daemon are in its order (an empty chunk has
no place). -/
structure LogsKept (env : Env) (h : Hub) (calls : List HubCall) (taskId : TaskId)
    (daemon : ℕ → δ) (schedule : List ℕ) : Prop where
  logs : (callMachine.exec (callPool env h calls) schedule).shared.logsOf taskId =
    (h.logsOf taskId).map (· ++ ((logWrites env h calls taskId schedule).map Prod.snd).flatten)
  once : ((logWrites env h calls taskId schedule).map Prod.fst).Nodup
  chunks : ∀ i sent, calls[i]?.bind (·.logMessage taskId) = some sent →
    (i, sent.2) ∈ logWrites env h calls taskId schedule
  lines : ∀ write ∈ logWrites env h calls taskId schedule,
    calls[write.1]?.bind (·.logMessage taskId) = none → HubLine write.2
  order : (logWrites env h calls taskId schedule).Pairwise fun first second =>
    first.2 ≠ [] → SameDaemon taskId daemon calls first.1 second.1 → first.1 < second.1

/-! ## What the calls know -/

/-- What the `i`-th call may write. -/
def LogTextOf (taskId : TaskId) (calls : List HubCall) (i : ℕ) : JsString → Prop :=
  calls[i]?.elim (fun _ => False) (·.LogText taskId)

/-- Where the `i`-th call starts. -/
def startLogPhase (taskId : TaskId) (calls : List HubCall) (i : ℕ) : LogPhase :=
  calls[i]?.elim .wrote (·.logPhase taskId)

/-- **What the calls know of the logs**, each by its phase: what it holds is what it
read, and the logs have only grown since. -/
structure LogsTracked (taskId : TaskId) (daemon : ℕ → δ) (calls : List HubCall)
    (phase : ℕ → LogPhase) (P : CallPool) : Prop where
  home : (P.shared.taskWithServer taskId).isSome = true
  before : ∀ i n thread, P.threads[i]? = some thread → phase i = .before n →
    thread.past.length = n ∧ n ≤ readNode calls i
  held : ∀ i logs, phase i = .holding logs → ∃ thread visit, P.threads[i]? = some thread ∧
    thread.past[readNode calls i]? = some visit ∧ visit.1.logsOf taskId = logs
  grown : ∀ i logs now, phase i = .holding (some logs) → P.shared.logsOf taskId = some now →
    logs.length ≤ now.length
  order : ∀ i j, i < j → SameDaemon taskId daemon calls i j → P.started j = true →
    P.started i = true

variable {env : Env} {h : Hub} {taskId : TaskId} {daemon : ℕ → δ} {calls : List HubCall}
  {phase phase' : ℕ → LogPhase} {P Q : CallPool} {i : ℕ} {update : Hub → Hub} {a a' : LogPhase}
  {k : ℕ} {T : JsString → Prop}

/-- A call waits for its first read only. -/
theorem LogMove.before (hmove : LogMove k T taskId a update h a') {n : ℕ} (ha : a' = .before n) :
    ∃ m, a = .before m ∧ n = m + 1 ∧ m ≠ k := by
  cases hmove with
  | wait hn _ => cases ha; exact ⟨_, rfl, rfl, hn⟩
  | read | keep | write | done => cases ha

/-- What a call holds it has read. -/
theorem LogMove.holding (hmove : LogMove k T taskId a update h a') {logs : Option JsString}
    (ha : a' = .holding logs) : a = .holding logs ∨ a = .before k ∧ logs = h.logsOf taskId := by
  cases hmove with
  | read => cases ha; exact .inr ⟨rfl, rfl⟩
  | keep => cases ha; exact .inl rfl
  | wait | write | done => cases ha

/-- **A node of a call is silent or writes** what the call holds and a text. -/
theorem LogMove.effect (hmove : LogMove k T taskId a update h a') :
    ((∀ s, Silent taskId s (update s)) ∧ (a = .wrote ↔ a' = .wrote) ∧
      ∀ logs, a = .holding logs → a' = .holding logs) ∨
    ∃ logs text, a = .holding (some logs) ∧ a' = .wrote ∧ T text ∧
      ∀ s, (s.tasks taskId).isSome = true → (update s).logsOf taskId = some (logs ++ text) := by
  cases hmove with
  | wait _ hsilent => exact .inl ⟨hsilent, ⟨nofun, nofun⟩, nofun⟩
  | read hsilent => exact .inl ⟨hsilent, ⟨nofun, nofun⟩, nofun⟩
  | keep hsilent => exact .inl ⟨hsilent, ⟨nofun, nofun⟩, fun _ h => h⟩
  | write htext _ hlogs => exact .inr ⟨_, _, rfl, rfl, htext, hlogs⟩
  | done hsilent => exact .inl ⟨hsilent, Iff.rfl, nofun⟩

/-- The probes of `setsLogs`. -/
theorem setsLogs_eq
    (heffect : (P.threads[i]?.bind fun thread => thread.program.effect?) = some update) :
    CallPool.setsLogs taskId P i = [[], [0]].any fun logs =>
      (update (P.shared.withLogs taskId logs)).logsOf taskId != some logs := by
  unfold CallPool.setsLogs
  congr
  funext logs
  rw [Pool.step_shared_of_effect? (P := ⟨P.shared.withLogs taskId logs, P.threads⟩) heffect]

/-- What was put there is read there. -/
theorem withLogs_logsOf {logs : JsString} (hstored : (h.tasks taskId).isSome = true) :
    (h.withLogs taskId logs).logsOf taskId = some logs := by
  obtain ⟨task, hrow⟩ := Option.isSome_iff_exists.mp hstored
  unfold Hub.logsOf Hub.withLogs
  dsimp only
  rw [Table.modify_apply, if_pos rfl, hrow]
  rfl

/-- A silent node keeps both probes. -/
theorem setsLogs_of_silent
    (heffect : (P.threads[i]?.bind fun thread => thread.program.effect?) = some update)
    (hstored : (P.shared.tasks taskId).isSome = true)
    (hsilent : ∀ s, Silent taskId s (update s)) : CallPool.setsLogs taskId P i = false := by
  rw [setsLogs_eq heffect, List.any_eq_false]
  intro logs _
  rw [(hsilent _).logs, withLogs_logsOf hstored, bne_self_eq_false]
  exact Bool.false_ne_true

/-- A write keeps one of them at most. -/
theorem setsLogs_of_write
    (heffect : (P.threads[i]?.bind fun thread => thread.program.effect?) = some update)
    (hstored : (P.shared.tasks taskId).isSome = true) {logs : JsString}
    (hwrite : ∀ s, (s.tasks taskId).isSome = true → (update s).logsOf taskId = some logs) :
    CallPool.setsLogs taskId P i = true := by
  have hprobe : ∀ other, ((P.shared.withLogs taskId other).tasks taskId).isSome = true := by
    intro other
    refine (Table.isSome_modify _ _ _ _).trans hstored
  rw [setsLogs_eq heffect]
  simp only [List.any_cons, hwrite _ (hprobe _), List.any_nil, Bool.or_false, Bool.or_eq_true,
    bne_iff_ne, ne_eq, Option.some.injEq]
  by_cases hnil : logs = []
  · exact .inr (by rw [hnil]; exact nofun)
  · exact .inl hnil

/-- **One node keeps track**, where it keeps the order in which messages are taken
up and does not shorten the logs. -/
theorem LogsTracked.step (ht : LogsTracked taskId daemon calls phase P) (hlive : P.live i = true)
    (hin : CallPool.InOrder taskId daemon calls P i)
    (hshared : (P.step i).shared = update P.shared)
    (hmove : LogMove (readNode calls i) T taskId (phase i) update P.shared a')
    (hlength : ∀ now later, P.shared.logsOf taskId = some now →
      (P.step i).shared.logsOf taskId = some later → now.length ≤ later.length) :
    LogsTracked taskId daemon calls (Function.update phase i a') (P.step i) := by
  obtain ⟨thread, program, shared, hthread, hnode, -⟩ := Pool.step_of_live hlive
  obtain ⟨-, hself⟩ := Pool.step_self hthread hnode
  refine ⟨?_, fun j n other hother hj => ?_, fun j logs hj => ?_, fun j logs later hj hlater => ?_,
    fun j l hlt hsame hstarted => ?_⟩
  · rw [hshared]
    exact hmove.steady.home ht.home
  · -- the thread has passed one node more on its way to the read
    refine Pool.forall_step (J := fun j a other => a = LogPhase.before n →
      other.past.length = n ∧ n ≤ readNode calls j) hlive (fun l other => ht.before l n other)
      (fun other program shared hthread _ _ hj => ?_) j other hother hj
    obtain ⟨m, hm, rfl, hne⟩ := hmove.before hj
    obtain ⟨hlength, hle⟩ := ht.before i m other hthread hm
    rw [List.length_append, hlength]
    exact ⟨rfl, by omega⟩
  · -- what it holds is what it has just read, or was held before
    by_cases heq : j = i
    · subst heq
      rw [Function.update_self] at hj
      rcases hmove.holding hj with hsame | ⟨hbefore, rfl⟩
      · obtain ⟨other, visit, hother, hvisit, hlogs⟩ := ht.held j logs hsame
        obtain rfl : thread = other := Option.some.inj (hthread.symm.trans hother)
        refine ⟨_, visit, hself, ?_, hlogs⟩
        exact (List.getElem?_append_left (List.getElem?_eq_some_iff.mp hvisit).1).trans hvisit
      · obtain ⟨hlength, -⟩ := ht.before j _ thread hthread hbefore
        refine ⟨_, (P.shared, shared), hself, ?_, rfl⟩
        rw [← hlength]
        exact List.getElem?_concat_length
    · rw [Function.update_of_ne heq] at hj
      obtain ⟨other, visit, hother, hvisit, hlogs⟩ := ht.held j logs hj
      exact ⟨other, visit, (Pool.step_other heq).trans hother, hvisit, hlogs⟩
  · -- the logs only grow after they were read
    rw [hshared] at hlater
    obtain ⟨task, hrow⟩ := stored_of_home ht.home
    obtain ⟨now, hnow⟩ : ∃ now, P.shared.logsOf taskId = some now :=
      ⟨task.logs, logsOf_of_row hrow rfl⟩
    have hle := hlength now later hnow (by rw [hshared]; exact hlater)
    by_cases heq : j = i
    · subst heq
      rw [Function.update_self] at hj
      rcases hmove.holding hj with hsame | ⟨-, hread⟩
      · exact (ht.grown j logs now hsame hnow).trans hle
      · rw [hnow] at hread
        cases hread
        exact hle
    · rw [Function.update_of_ne heq] at hj
      exact (ht.grown j logs now hj hnow).trans hle
  · rw [Pool.started_step hlive] at hstarted ⊢
    rcases hstarted with rfl | hstarted
    · exact .inr (hin j hlt hsame)
    · exact .inr (ht.order j l hlt hsame hstarted)

/-- The order of the two messages does not matter here. -/
theorem SameDaemon.symm {j : ℕ} (h : SameDaemon taskId daemon calls i j) :
    SameDaemon taskId daemon calls j i := ⟨by rw [← h.2]; exact h.1, h.2.symm⟩

/-- A log message reads the logs at its first node. -/
theorem SameDaemon.readNode {j : ℕ} (h : SameDaemon taskId daemon calls i j) :
    readNode calls i = 0 := by
  obtain ⟨hmessage, -⟩ := h
  unfold logDaemon at hmessage
  unfold CodeCaller.readNode
  cases hcall : calls[i]? with
  | none => rfl
  | some call =>
      rw [hcall, Option.bind_some] at hmessage
      cases call with
      | message => rfl
      | _ => exact absurd rfl hmessage

/-- A call with a past was taken up. -/
theorem started_of_past {thread : Thread Hub HubError Response} {visit : Hub × Hub}
    (hthread : P.threads[i]? = some thread) (hvisit : thread.past[k]? = some visit) :
    P.started i = true := by
  unfold Pool.started
  rw [hthread, Option.any_some]
  cases hpast : thread.past with
  | nil => rw [hpast] at hvisit; cases hvisit
  | cons => rfl

/-- A log message that was taken up has read the logs. -/
theorem LogsTracked.not_before (ht : LogsTracked taskId daemon calls phase P) {j n : ℕ}
    (hsame : SameDaemon taskId daemon calls i j) (hstarted : P.started i = true) :
    phase i ≠ .before n := by
  intro hbefore
  unfold Pool.started at hstarted
  obtain ⟨thread, hthread, hpast⟩ := (Option.any_eq_true _ _).mp hstarted
  obtain ⟨hlength, hle⟩ := ht.before i n thread hthread hbefore
  rw [hsame.readNode, Nat.le_zero] at hle
  rw [hle, List.length_eq_zero_iff] at hlength
  rw [hlength] at hpast
  cases hpast

/-! ## What a run writes -/

/-- **A run and its writes**, from one set of phases to another: every call that has
come to have written is among them, with a text of its own, and a call that held
the logs before wrote only if nothing was written since. -/
structure LogsWritten (taskId : TaskId) (daemon : ℕ → δ) (calls : List HubCall)
    (phase phase' : ℕ → LogPhase) (P Q : CallPool) (writes : List (ℕ × JsString)) : Prop where
  logs : ∀ now, P.shared.logsOf taskId = some now →
    Q.shared.logsOf taskId = some (now ++ (writes.map Prod.snd).flatten)
  text : ∀ write ∈ writes, LogTextOf taskId calls write.1 write.2
  open_ : ∀ write ∈ writes, phase write.1 ≠ .wrote
  current : ∀ write ∈ writes, ∀ held, phase write.1 = .holding held →
    ∃ logs, held = some logs ∧
      ∀ now, P.shared.logsOf taskId = some now → now.length ≤ logs.length
  all : ∀ i, phase i ≠ .wrote → phase' i = .wrote → ∃ text, (i, text) ∈ writes
  once : (writes.map Prod.fst).Nodup
  order : writes.Pairwise fun first second =>
    first.2 ≠ [] → SameDaemon taskId daemon calls first.1 second.1 → first.1 < second.1

/-- Before the first node nothing is written. -/
theorem LogsWritten.refl : LogsWritten taskId daemon calls phase phase P P [] where
  logs now hnow := hnow.trans (congrArg some (List.append_nil now).symm)
  text := nofun
  open_ := nofun
  current := nofun
  all _ hnot hwrote := absurd hwrote hnot
  once := List.nodup_nil
  order := .nil

variable {writes : List (ℕ × JsString)} {text : JsString}

/-- A silent node before a run. -/
theorem LogsWritten.silent
    (hw : LogsWritten taskId daemon calls (Function.update phase i a') phase' (P.step i) Q writes)
    (hlogs : (P.step i).shared.logsOf taskId = P.shared.logsOf taskId)
    (hwrote : phase i = .wrote ↔ a' = .wrote)
    (hholding : ∀ logs, phase i = .holding logs → a' = .holding logs) :
    LogsWritten taskId daemon calls phase phase' P Q writes where
  logs now hnow := hw.logs now (hlogs.trans hnow)
  text := hw.text
  open_ write hwrite := by
    have hopen := hw.open_ write hwrite
    by_cases heq : write.1 = i
    · rw [heq, Function.update_self] at hopen
      rw [heq]
      exact fun h => hopen (hwrote.mp h)
    · rw [Function.update_of_ne heq] at hopen
      exact hopen
  current write hwrite held hheld := by
    have hheld' : Function.update phase i a' write.1 = .holding held := by
      by_cases heq : write.1 = i
      · rw [heq] at hheld ⊢
        rw [Function.update_self]
        exact hholding held hheld
      · rw [Function.update_of_ne heq]
        exact hheld
    obtain ⟨logs, hsome, hle⟩ := hw.current write hwrite held hheld'
    exact ⟨logs, hsome, fun now hnow => hle now (hlogs.trans hnow)⟩
  all j hnot hdone := by
    refine hw.all j ?_ hdone
    by_cases heq : j = i
    · rw [heq, Function.update_self]
      rw [heq] at hnot
      exact fun h => hnot (hwrote.mpr h)
    · rw [Function.update_of_ne heq]
      exact hnot
  once := hw.once
  order := hw.order

/-- **A write before a run.**  A call that writes later and holds the logs already
would have to hold what was just written. -/
theorem LogsWritten.write {logs : JsString} (ht : LogsTracked taskId daemon calls phase P)
    (hw : LogsWritten taskId daemon calls (Function.update phase i .wrote) phase'
      (P.step i) Q writes)
    (hphase : phase i = .holding (some logs)) (hnow : P.shared.logsOf taskId = some logs)
    (hlater : (P.step i).shared.logsOf taskId = some (logs ++ text))
    (htext : LogTextOf taskId calls i text) :
    LogsWritten taskId daemon calls phase phase' P Q ((i, text) :: writes) := by
  have hother : ∀ write ∈ writes, write.1 ≠ i := by
    intro write hwrite heq
    have hopen := hw.open_ write hwrite
    rw [heq, Function.update_self] at hopen
    exact hopen rfl
  have hopen : ∀ write ∈ writes, phase write.1 ≠ .wrote := by
    intro write hwrite
    have hopen := hw.open_ write hwrite
    rw [Function.update_of_ne (hother write hwrite)] at hopen
    exact hopen
  have hcurrent : ∀ write ∈ writes, ∀ held, phase write.1 = .holding held →
      ∃ other, held = some other ∧ (logs ++ text).length ≤ other.length := by
    intro write hwrite held hheld
    rw [← Function.update_of_ne (hother write hwrite) (LogPhase.wrote) phase] at hheld
    obtain ⟨other, hsome, hle⟩ := hw.current write hwrite held hheld
    exact ⟨other, hsome, hle _ hlater⟩
  refine ⟨fun now hsome => ?_, ?_, ?_, ?_, fun j hnot hdone => ?_, ?_, ?_⟩
  · rw [hnow, Option.some.injEq] at hsome
    rw [hw.logs _ hlater, List.map_cons, List.flatten_cons, List.append_assoc, hsome]
  · exact List.forall_mem_cons.mpr ⟨htext, hw.text⟩
  · refine List.forall_mem_cons.mpr ⟨?_, hopen⟩
    rw [hphase]
    exact nofun
  · refine List.forall_mem_cons.mpr ⟨fun held hheld => ?_, fun write hwrite held hheld => ?_⟩
    · rw [hphase] at hheld
      refine ⟨logs, (LogPhase.holding.inj hheld).symm, fun now hsome => ?_⟩
      rw [hnow, Option.some.injEq] at hsome
      rw [hsome]
    · obtain ⟨other, hsome, hle⟩ := hcurrent write hwrite held hheld
      refine ⟨other, hsome, fun now hnow' => ?_⟩
      rw [hnow, Option.some.injEq] at hnow'
      rw [List.length_append, hnow'] at hle
      omega
  · by_cases heq : j = i
    · exact ⟨text, by rw [heq]; exact List.mem_cons_self⟩
    · obtain ⟨text, hmem⟩ := hw.all j (by rw [Function.update_of_ne heq]; exact hnot) hdone
      exact ⟨text, List.mem_cons_of_mem _ hmem⟩
  · rw [List.map_cons, List.nodup_cons]
    refine ⟨fun hmem => ?_, hw.once⟩
    obtain ⟨write, hwrite, heq⟩ := List.mem_map.mp hmem
    exact hother write hwrite heq
  · refine List.pairwise_cons.mpr ⟨fun write hwrite hne hsame => ?_, hw.order⟩
    by_contra hnot
    have hlt : write.1 < i := by
      have := hother write hwrite
      dsimp only at hnot
      omega
    -- the other message was taken up before this one, and holds the logs as they were
    have hstarted : P.started write.1 = true := by
      refine ht.order _ _ hlt hsame.symm ?_
      obtain ⟨thread, visit, hthread, hvisit, -⟩ := ht.held i _ hphase
      exact started_of_past hthread hvisit
    cases hheld : phase write.1 with
    | before n => exact absurd hheld (ht.not_before hsame.symm hstarted)
    | wrote => exact hopen write hwrite hheld
    | holding held =>
        obtain ⟨other, rfl, hle⟩ := hcurrent write hwrite held hheld
        have hgrown := ht.grown _ _ _ hheld hnow
        have hpos : 0 < text.length := List.length_pos_of_ne_nil hne
        rw [List.length_append] at hle
        omega

/-- **The run lemma**: the writes of a run are those its visits show. -/
theorem exists_written {post : ℕ → LogPhase → Hub → Except HubError Response → Prop}
    {schedule : List ℕ} (hruns : callMachine.Runs P schedule)
    (hin : ∀ visit ∈ callMachine.visits P schedule,
      CallPool.InOrder taskId daemon calls visit.1 visit.2)
    (hcond : ∀ visit ∈ callMachine.visits P schedule,
      CallPool.Undisturbed taskId calls visit.1 visit.2)
    (hP : P.Follows (Steady taskId)
      (fun i => LogMove (readNode calls i) (LogTextOf taskId calls i) taskId) post phase)
    (ht : LogsTracked taskId daemon calls phase P) :
    ∃ phase', (callMachine.exec P schedule).Follows (Steady taskId)
        (fun i => LogMove (readNode calls i) (LogTextOf taskId calls i) taskId) post phase' ∧
      LogsWritten taskId daemon calls phase phase' P (callMachine.exec P schedule)
        ((callMachine.visits P schedule).filterMap (CallPool.writeOf taskId calls)) := by
  induction schedule generalizing P phase with
  | nil => exact ⟨phase, hP, .refl⟩
  | cons i schedule ih =>
    obtain ⟨hlive, hruns⟩ := (Machine.runs_cons _ _ _ _).mp hruns
    rw [Machine.visits_cons, List.forall_mem_cons] at hin hcond
    obtain ⟨update, a', heffect, hshared, hmove, hnext⟩ := hP.step (Steady.refl taskId)
      (@Steady.trans taskId) (fun _ _ _ _ _ hmove => hmove.steady) hlive
    obtain ⟨task, hrow⟩ := stored_of_home ht.home
    have hstored : (P.shared.tasks taskId).isSome = true := by
      rw [hrow]
      rfl
    rcases hmove.effect with ⟨hsilent, hwrote, hholding⟩ | ⟨logs, text, hphase, rfl, htext, hwrite⟩
    · have hsame : (P.step i).shared.logsOf taskId = P.shared.logsOf taskId := by
        rw [hshared]
        exact (hsilent _).logs
      have hnone : CallPool.writeOf taskId calls (P, i) = none :=
        if_neg (by rw [setsLogs_of_silent heffect hstored hsilent]; exact nofun)
      have ht' := ht.step hlive hin.1 hshared hmove fun now later hnow hlater => by
        rw [hsame, hnow, Option.some.injEq] at hlater
        rw [hlater]
      obtain ⟨phase', hfollows, hwritten⟩ := ih hruns hin.2 hcond.2 hnext ht'
      rw [Machine.visits_cons, List.filterMap_cons_none hnone]
      exact ⟨phase', hfollows, hwritten.silent hsame hwrote hholding⟩
    · have hsets : CallPool.setsLogs taskId P i = true :=
        setsLogs_of_write heffect hstored hwrite
      obtain ⟨thread, visit, hthread, hvisit, hread⟩ := ht.held i _ hphase
      have hlogsRead : CallPool.logsRead taskId calls P i = some logs := by
        unfold CallPool.logsRead
        rw [hthread, Option.bind_some, hvisit]
        exact hread
      have hnow : P.shared.logsOf taskId = some logs := (hcond.1 hsets).trans hlogsRead
      have hlater : (P.step i).shared.logsOf taskId = some (logs ++ text) := by
        rw [hshared]
        exact hwrite _ hstored
      have hsome : CallPool.writeOf taskId calls (P, i) = some (i, text) := by
        refine (if_pos hsets).trans ?_
        rw [hlogsRead]
        change some (i, (((P.step i).shared.logsOf taskId).getD []).drop logs.length) = _
        rw [hlater, Option.getD_some, List.drop_left]
      have ht' := ht.step hlive hin.1 hshared hmove fun now later hnow' hlater' => by
        rw [hnow, Option.some.injEq] at hnow'
        rw [hlater, Option.some.injEq] at hlater'
        rw [← hnow', ← hlater', List.length_append]
        omega
      obtain ⟨phase', hfollows, hwritten⟩ := ih hruns hin.2 hcond.2 hnext ht'
      rw [Machine.visits_cons, List.filterMap_cons_some hsome]
      exact ⟨phase', hfollows, hwritten.write ht hphase hnow hlater htext⟩

/-! ## All calls together -/

/-- A call has its message still to write, or has none for the task. -/
theorem startLogPhase_cases (taskId : TaskId) (calls : List HubCall) (i : ℕ) :
    startLogPhase taskId calls i = .before 0 ∨ startLogPhase taskId calls i = .wrote := by
  unfold startLogPhase
  cases calls[i]? with
  | none => exact .inr rfl
  | some call =>
      dsimp only [Option.elim_some]
      unfold HubCall.logPhase
      split
      · exact .inl rfl
      · exact .inr rfl

/-- The programs of the calls, and the calls. -/
theorem callPool_thread {thread : Thread Hub HubError Response}
    (hthread : (callPool env h calls).threads[i]? = some thread) :
    ∃ call, calls[i]? = some call ∧ thread = ⟨perform env call, []⟩ := by
  unfold callPool Pool.start at hthread
  rw [List.getElem?_map, List.getElem?_map, Option.map_map, Option.map_eq_some_iff] at hthread
  obtain ⟨call, hcall, hsame⟩ := hthread
  exact ⟨call, hcall, hsame.symm⟩

/-- Each call of the pool follows its own protocol, and ends only after it has written its message,
if it has one. -/
theorem callPool_follows_logs (hhome : (h.taskWithServer taskId).isSome = true)
    (hcalls : ∀ call ∈ calls, call.background = true) :
    (callPool env h calls).Follows (Steady taskId)
      (fun i => LogMove (readNode calls i) (LogTextOf taskId calls i) taskId)
      (fun i a _ _ => ∀ call, calls[i]? = some call →
        (call.logMessage taskId).isSome = true → a = .wrote)
      (startLogPhase taskId calls) := by
  intro i thread hthread
  obtain ⟨call, hcall, rfl⟩ := callPool_thread hthread
  have hnode : readNode calls i = call.readsLogsAt := by
    unfold readNode
    rw [hcall, Option.elim_some]
  have htext : LogTextOf taskId calls i = call.LogText taskId := by
    unfold LogTextOf
    rw [hcall, Option.elim_some]
  have hphase : startLogPhase taskId calls i = call.logPhase taskId := by
    unfold startLogPhase
    rw [hcall, Option.elim_some]
  dsimp only
  rw [hnode, htext, hphase]
  refine (perform_follows (hcalls call (List.mem_of_getElem? hcall)) hhome).mono
    fun a s outcome ha other hother => ?_
  rw [hcall, Option.some.injEq] at hother
  rw [← hother]
  exact ha

/-- At the beginning the text is what was stored, and nothing is under way. -/
theorem logsTracked_start (hhome : (h.taskWithServer taskId).isSome = true) :
    LogsTracked taskId daemon calls (startLogPhase taskId calls) (callPool env h calls) where
  home := hhome
  before i n thread hthread hphase := by
    obtain ⟨call, -, rfl⟩ := callPool_thread hthread
    rcases startLogPhase_cases taskId calls i with hstart | hstart
    · rw [hstart, LogPhase.before.injEq] at hphase
      rw [← hphase]
      exact ⟨rfl, Nat.zero_le _⟩
    · rw [hstart] at hphase
      cases hphase
  held i logs hphase := by
    rcases startLogPhase_cases taskId calls i with hstart | hstart <;>
      rw [hstart] at hphase <;> cases hphase
  grown i logs now hphase := by
    rcases startLogPhase_cases taskId calls i with hstart | hstart <;>
      rw [hstart] at hphase <;> cases hphase
  order i j _ _ hstarted := by
    unfold Pool.started at hstarted
    obtain ⟨thread, hthread, hpast⟩ := (Option.any_eq_true _ _).mp hstarted
    obtain ⟨call, -, rfl⟩ := callPool_thread hthread
    cases hpast

/-- **Concurrent writers keep every text of a log**, where each of them sets the logs
while they are as it read them: whatever the messages, jobs and scans, and however
they are interleaved. -/
theorem logs_kept (hhome : (h.taskWithServer taskId).isSome = true)
    (hcalls : ∀ call ∈ calls, call.background = true) {schedule : List ℕ}
    (hruns : callMachine.Runs (callPool env h calls) schedule)
    (hfinished : (callMachine.exec (callPool env h calls) schedule).finished = true)
    (hin : ∀ visit ∈ callMachine.visits (callPool env h calls) schedule,
      CallPool.InOrder taskId daemon calls visit.1 visit.2)
    (hcond : ∀ visit ∈ callMachine.visits (callPool env h calls) schedule,
      CallPool.Undisturbed taskId calls visit.1 visit.2) :
    LogsKept env h calls taskId daemon schedule := by
  obtain ⟨phase, hfollows, hwritten⟩ := exists_written hruns hin hcond
    (callPool_follows_logs hhome hcalls) (logsTracked_start hhome)
  obtain ⟨task, hrow⟩ := stored_of_home hhome
  have hlogs : h.logsOf taskId = some task.logs := logsOf_of_row hrow rfl
  refine ⟨?_, hwritten.once, fun i sent hsent => ?_, fun write hwrite hnone => ?_, hwritten.order⟩
  · rw [hlogs]
    exact hwritten.logs _ hlogs
  · obtain ⟨call, hcall, hmessage⟩ := Option.bind_eq_some_iff.mp hsent
    have hstart : startLogPhase taskId calls i ≠ .wrote := by
      unfold startLogPhase HubCall.logPhase
      rw [hcall, Option.elim_some, hmessage]
      exact nofun
    obtain ⟨hlt, -⟩ := List.getElem?_eq_some_iff.mp hcall
    have hlength : i < (callMachine.exec (callPool env h calls) schedule).threads.length := by
      rw [Pool.exec_length]
      unfold callPool Pool.start
      rw [List.length_map, List.length_map]
      exact hlt
    obtain ⟨outcome, -, hdone⟩ := hfollows.outcome (Steady.refl taskId) hfinished hlength
    obtain ⟨text, hwrite⟩ := hwritten.all i hstart (hdone call hcall (by rw [hmessage]; rfl))
    have htext := hwritten.text _ hwrite
    unfold LogTextOf HubCall.LogText at htext
    rw [hcall, Option.elim_some, hmessage] at htext
    rw [← htext]
    exact hwrite
  · have htext := hwritten.text _ hwrite
    unfold LogTextOf at htext
    cases hcall : calls[write.1]? with
    | none => rw [hcall] at htext; exact htext.elim
    | some call =>
        rw [hcall, Option.elim_some] at htext
        rw [hcall, Option.bind_some] at hnone
        unfold HubCall.LogText at htext
        rw [hnone] at htext
        exact htext

end Daemons

/-- The calls that leave task 0 running on server 0. -/
def sampleRunning : List HubCall :=
  sampleConnects ++ [.submit 0 ⟨0, .CODEX, sampleInput⟩, .dispatch 0]

/-- One after the other: two log messages, and a scan that finds the task stale. -/
theorem logs_kept_in_turn :
    let h := (hubMachine Env.sample HubCall.Typed).exec Hub.sample sampleRunning
    let calls : List HubCall := [.message 0 (.TASK_LOG ⟨.id 0, js "a"⟩),
      .message 0 (.TASK_LOG ⟨.id 0, js "b"⟩), .watchdog]
    let schedule := [0, 0, 0, 0, 0, 0, 1, 1, 1, 1, 1, 1, 2, 2, 2, 2, 2, 2, 2]
    LogsKept Env.sample h calls 0 (id : ℕ → ℕ) schedule := by
  intro h calls schedule
  exact @logs_kept ℕ Env.sample h 0 id calls (by decide) (by decide) schedule
    (by decide) (by decide) (by decide) (by decide)

/-- **A chunk is lost**: the second message is read before the first one is written. -/
theorem logs_not_kept :
    let h := (hubMachine Env.sample HubCall.Typed).exec Hub.sample sampleRunning
    let calls : List HubCall := [.message 0 (.TASK_LOG ⟨.id 0, js "a"⟩),
      .message 0 (.TASK_LOG ⟨.id 0, js "b"⟩)]
    let schedule := [0, 1, 0, 0, 0, 0, 0, 1, 1, 1, 1, 1]
    (hubMachine Env.sample HubCall.Typed).Reachable h ∧
      callMachine.Runs (callPool Env.sample h calls) schedule ∧
      (callMachine.exec (callPool Env.sample h calls) schedule).finished = true ∧
      (∀ visit ∈ callMachine.visits (callPool Env.sample h calls) schedule,
        CallPool.InOrder 0 id calls visit.1 visit.2) ∧
      (callMachine.exec (callPool Env.sample h calls) schedule).shared.logsOf 0 = some (js "b") ∧
      ¬LogsKept Env.sample h calls 0 (id : ℕ → ℕ) schedule := by
  intro h calls schedule
  refine ⟨(Machine.Reachable.of_start Hub.sample_fresh).exec (by decide),
    by decide, by decide, by decide, by decide, fun hkept => ?_⟩
  exact absurd hkept.logs (by decide)

end CodeCaller
