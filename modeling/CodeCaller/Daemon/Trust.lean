import CodeCaller.Daemon.Client

/-!
# What a daemon works on

A daemon runs what it was sent, and speaks about what it runs.  `Trusts T` says of everything in a
daemon, the messages on their way to it, its runners and the messages on their way from it, that it
is about a task and an input in the relation `T`.  The daemon brings in no task of its own: if what
it hears is in `T`, all the rest is.

`Faithful` is the part of a runner, proved for each method: it keeps its task and its input, and
speaks about that task.  `Trusts.onMessage` and the lemmas after it lift it to the daemon.  `T` is
arbitrary, and is instantiated in `Fleet.Execution` with the tasks that are entrusted to the
daemon.

The second half is about the key and the socket of a daemon, which only connecting, disconnecting
and restarting change.
-/

namespace CodeCaller

open Async

/-- The `taskId` a message of a daemon carries. -/
def DaemonInbound.ref : DaemonInbound → Option TaskRef
  | HEARTBEAT => none
  | TASK_STATUS_UPDATE payload => some payload.taskId
  | TASK_LOG payload => some payload.taskId
  | TASK_RESULT payload => some payload.taskId
  | APPROVAL_REQUEST payload => some payload.taskId

namespace TaskRunner

variable {detectors : Detectors} {runner : TaskRunner}

/-- **A method keeps the task of its runner**, with its input, and speaks about that task. -/
structure Faithful (runner : TaskRunner) (reaction : Reaction) : Prop where
  taskId : reaction.1.taskId = runner.taskId
  input : reaction.1.input = runner.input
  speaks : ∀ inbound, .emit inbound ∈ reaction.2 → inbound.ref = some (.id runner.taskId)

/-- A method that says nothing. -/
theorem Faithful.silent {reaction : Reaction} (htaskId : reaction.1.taskId = runner.taskId)
    (hinput : reaction.1.input = runner.input) (hnone : reaction.2 = []) :
    runner.Faithful reaction where
  taskId := htaskId
  input := hinput
  speaks inbound hmem := by
    rw [hnone] at hmem
    exact absurd hmem List.not_mem_nil

/-- A failure is reported for the task of the runner. -/
theorem finishFailed_faithful (reason : JsString) :
    runner.Faithful (runner.finishFailed detectors reason) := by
  unfold finishFailed
  split
  · exact .silent rfl rfl rfl
  · refine ⟨rfl, rfl, fun inbound hmem => ?_⟩
    simp only [List.mem_cons, RunnerEffect.emit.injEq, List.not_mem_nil, reduceCtorEq,
      or_false] at hmem
    rw [hmem]
    rfl

/-- So is the beginning of a run. -/
theorem start_faithful (outcome : SpawnOutcome) :
    runner.Faithful (runner.start detectors outcome) := by
  cases outcome with
  | process => exact ⟨rfl, rfl, by simp [start, DaemonInbound.ref]⟩
  | noProcess => exact ⟨rfl, rfl, by simp [start, DaemonInbound.ref]⟩
  | noStreams => exact .silent rfl rfl rfl
  | threw message =>
      rw [start_threw]
      exact finishFailed_faithful _
  | noPlan => exact .silent rfl rfl rfl

/-- Output and prompts are sent under the task of the runner. -/
theorem onData_faithful (chunk : JsString) :
    runner.Faithful (runner.onData detectors chunk) := by
  unfold onData
  dsimp only
  split
  · exact ⟨rfl, rfl, by simp [DaemonInbound.ref]⟩
  · split
    · exact ⟨rfl, rfl, by simp [DaemonInbound.ref]⟩
    · refine ⟨rfl, rfl, fun inbound hmem => ?_⟩
      simp only [List.mem_cons, RunnerEffect.emit.injEq, List.not_mem_nil, or_false] at hmem
      rcases hmem with rfl | rfl <;> rfl

/-- A kill says nothing. -/
theorem kill_faithful : runner.Faithful runner.kill := by
  unfold kill
  split
  · exact .silent rfl rfl rfl
  · split
    · exact .silent rfl rfl rfl
    · exact ⟨rfl, rfl, by simp⟩

/-- A decision leaves the task and the input, and names no other task. -/
theorem decide_faithful (approved : Bool) : runner.Faithful (runner.decide approved) := by
  unfold decide resume
  split
  · split
    · split
      · exact .silent rfl rfl rfl
      · split
        · exact .silent rfl rfl rfl
        · exact ⟨rfl, rfl, by simp⟩
    · exact .silent rfl rfl rfl
  · exact kill_faithful

/-- So is the end of the child. -/
theorem onClose_faithful (code : Option ℤ) (signal : Option JsString) :
    runner.Faithful (runner.onClose detectors code signal) := by
  unfold onClose
  split
  · exact .silent rfl rfl rfl
  · dsimp only
    split
    · exact ⟨rfl, rfl, by simp⟩
    · refine ⟨rfl, rfl, fun inbound hmem => ?_⟩
      simp only [List.mem_cons, RunnerEffect.emit.injEq, List.not_mem_nil, reduceCtorEq,
        or_false] at hmem
      rw [hmem]
      rfl

/-- **All listeners are faithful.** -/
theorem onChildEvent_faithful (event : ChildEvent) :
    runner.Faithful (runner.onChildEvent detectors event) := by
  cases event with
  | data chunk => exact onData_faithful chunk
  | error message =>
      rw [onChildEvent_error]
      exact finishFailed_faithful _
  | exit code => exact .silent rfl rfl rfl
  | close code signal =>
      have hclose := @onClose_faithful detectors
        (runner.withChild fun child => { child with closed := true }) code signal
      exact ⟨hclose.taskId, hclose.input, hclose.speaks⟩
  | stdinDestroyed => exact .silent rfl rfl rfl

end TaskRunner

/-- A message to a daemon is about a task and an input of `T`; a task that it brings has that
input. -/
def DaemonOutbound.Brings (T : TaskId → Json → Prop) (message : DaemonOutbound) : Prop :=
  ∃ input, T message.taskId input ∧
    ∀ taskId brought, message = .TASK_SUBMIT taskId brought → brought = input

/-- A message of a daemon is about a task of `T`, if it is about one. -/
def DaemonInbound.About (T : TaskId → Json → Prop) (inbound : DaemonInbound) : Prop :=
  ∀ ref, inbound.ref = some ref → ∃ taskId input, ref = .id taskId ∧ T taskId input

namespace DaemonClient

variable {detectors : Detectors} {outcome : SpawnOutcome} {T : TaskId → Json → Prop}
  {client : DaemonClient} {serial : ℕ} {runner : TaskRunner} {reaction : Reaction}

/-- **All that is in a daemon is about tasks and inputs of `T`.** -/
structure Trusts (T : TaskId → Json → Prop) (client : DaemonClient) : Prop where
  inbox : ∀ message ∈ client.inbox, message.Brings T
  objects : ∀ serial runner, client.objects serial = some runner → T runner.taskId runner.input
  unsent : ∀ sent ∈ client.unsent, sent.inbound.About T ∧
    (sent.runner = none → sent.inbound.ref = none)

/-- What is in `T` is in a larger relation. -/
theorem Trusts.mono {T' : TaskId → Json → Prop} (h : client.Trusts T)
    (himp : ∀ taskId input, T taskId input → T' taskId input) : client.Trusts T' where
  inbox message hmem := by
    obtain ⟨input, hT, hbrought⟩ := h.inbox message hmem
    exact ⟨input, himp _ _ hT, hbrought⟩
  objects serial runner hrow := himp _ _ (h.objects serial runner hrow)
  unsent sent hmem := by
    refine ⟨fun ref href => ?_, (h.unsent sent hmem).2⟩
    obtain ⟨taskId, input, hid, hT⟩ := (h.unsent sent hmem).1 ref href
    exact ⟨taskId, input, hid, himp _ _ hT⟩

/-- In a daemon that has just started there is nothing. -/
theorem initial_trusts (apiKey : JsString) : (initial apiKey).Trusts T where
  inbox _ hmem := absurd hmem List.not_mem_nil
  objects := nofun
  unsent _ hmem := absurd hmem List.not_mem_nil

/-- A method of a runner keeps to the task of the runner. -/
theorem Trusts.react (h : client.Trusts T) (hrow : client.objects serial = some runner)
    (hfaithful : runner.Faithful reaction) : (client.react serial reaction).1.Trusts T where
  inbox := by
    rw [react_inbox]
    exact h.inbox
  objects other found hfound := by
    rw [react_objects, Table.modify_apply] at hfound
    split at hfound
    · obtain ⟨-, -, rfl⟩ := Option.map_eq_some_iff.mp hfound
      rw [hfaithful.taskId, hfaithful.input]
      exact h.objects serial runner hrow
    · exact h.objects other found hfound
  unsent sent hmem := by
    rcases mem_unsent_react hmem with hold | ⟨inbound, hemit, rfl⟩
    · exact h.unsent sent hold
    · refine ⟨fun ref href => ?_, nofun⟩
      rw [hfaithful.speaks inbound hemit] at href
      cases href
      exact ⟨_, _, rfl, h.objects serial runner hrow⟩

/-- A message for a task reaches the runner of this task only. -/
theorem Trusts.onRunner {taskId : TaskId} {method : TaskRunner → Reaction} (h : client.Trusts T)
    (hmethod : ∀ runner : TaskRunner, runner.Faithful (method runner)) :
    (client.onRunner taskId method).1.Trusts T := by
  rcases onRunner_cases taskId method client with ⟨-, hnone⟩ | ⟨serial, runner, -, hrow, hreact⟩
  · rw [hnone]
    exact h
  · rw [hreact]
    exact h.react hrow (hmethod runner)

/-- A new runner works on what the message brought. -/
theorem Trusts.onTaskSubmit {taskId : TaskId} {input : Json} (h : client.Trusts T)
    (hT : T taskId input) : (client.onTaskSubmit detectors outcome taskId input).1.Trusts T := by
  rcases onTaskSubmit_cases detectors outcome taskId input client with hsame | ⟨-, hnew⟩
  · rw [hsame]
    exact h
  · rw [hnew]
    have henlisted : (client.enlist taskId input).Trusts T := by
      refine ⟨h.inbox, fun other found hfound => ?_, h.unsent⟩
      unfold enlist at hfound
      dsimp only at hfound
      rw [Table.insert_apply] at hfound
      split at hfound
      · cases hfound
        exact hT
      · exact h.objects other found hfound
    exact henlisted.react enlist_new (TaskRunner.start_faithful outcome)

/-- **A daemon keeps to what it hears.** -/
theorem Trusts.onMessage {message : DaemonOutbound} (h : client.Trusts T)
    (hmessage : message.Brings T) : (client.onMessage detectors outcome message).1.Trusts T := by
  cases message with
  | TASK_SUBMIT taskId brought =>
      obtain ⟨input, hT, hbrought⟩ := hmessage
      rw [← hbrought taskId brought rfl] at hT
      exact h.onTaskSubmit hT
  | TASK_CANCEL taskId => exact h.onRunner fun _ => TaskRunner.kill_faithful
  | APPROVAL_DECISION taskId approved reason =>
      exact h.onRunner fun _ => TaskRunner.decide_faithful approved

/-- An event of a child reaches the runner of this child only. -/
theorem Trusts.onChildEvent {event : ChildEvent} (h : client.Trusts T) :
    (client.onChildEvent detectors serial event).1.Trusts T := by
  rcases onChildEvent_cases detectors serial event client with hsame | ⟨runner, hrow, hreact⟩
  · rw [hsame]
    exact h
  · rw [hreact]
    exact h.react hrow (TaskRunner.onChildEvent_faithful event)

/-! ## The connection -/

/-- A connection carries what the buffer held. -/
theorem Trusts.onConnect (h : client.Trusts T) (hsocket : client.socket = none)
    (socketId : ℕ) : (client.onConnect socketId).Trusts T where
  inbox := by
    unfold DaemonClient.onConnect
    rw [flushBuffer_inbox]
    exact fun _ hmem => absurd hmem List.not_mem_nil
  objects := by
    unfold DaemonClient.onConnect
    rw [flushBuffer_objects]
    exact h.objects
  unsent sent hmem := by
    unfold DaemonClient.onConnect at hmem
    rw [flushBuffer_unsent] at hmem
    refine h.unsent sent ?_
    unfold DaemonClient.unsent outbox at hmem ⊢
    rw [hsocket]
    exact hmem

/-- What was not received waits, or is lost; it is not changed. -/
theorem Trusts.onDisconnect (h : client.Trusts T) : client.onDisconnect.Trusts T where
  inbox _ hmem := absurd hmem List.not_mem_nil
  objects := h.objects
  unsent sent hmem := h.unsent sent (List.mem_append_right _ hmem)

/-- A restart forgets everything. -/
theorem Trusts.restart (h : client.Trusts T) : client.restart.Trusts T where
  inbox _ hmem := absurd hmem List.not_mem_nil
  objects serial runner hrow := h.objects serial runner (Option.filter_eq_some_iff.mp hrow).1
  unsent _ hmem := absurd hmem List.not_mem_nil

/-- A heartbeat names no task. -/
theorem Trusts.heartbeat (h : client.Trusts T) : client.heartbeat.Trusts T where
  inbox := by
    unfold DaemonClient.heartbeat
    rw [emit_inbox]
    exact h.inbox
  objects := by
    unfold DaemonClient.heartbeat
    rw [emit_objects]
    exact h.objects
  unsent sent hmem := by
    unfold DaemonClient.heartbeat at hmem
    rcases mem_unsent_emit.mp hmem with hold | rfl
    · exact h.unsent sent hold
    · exact ⟨nofun, fun _ => rfl⟩

/-! ## The key and the socket -/

/-- The key of a daemon and the socket it is connected on. -/
def line (client : DaemonClient) : JsString × Option ℕ :=
  (client.apiKey, client.socket.map (·.socketId))

/-- The key and the socket are touched by connections only. -/
theorem emit_line (message : Outgoing) : (client.emit message).line = client.line := by
  unfold emit line
  cases client.socket <;> rfl

theorem react_line : (client.react serial reaction).1.line = client.line := by
  suffices hall : ∀ client : DaemonClient,
      (reaction.2.foldl (carryOut serial reaction.1.taskId) client).line = client.line from
    hall { client with objects := client.objects.modify serial fun _ => reaction.1 }
  induction reaction.2 with
  | nil => exact fun _ => rfl
  | cons effect effects ih =>
      intro client
      rw [List.foldl_cons, ih]
      cases effect with
      | emit inbound => exact emit_line _
      | dropTask => rfl
      | write input => rfl
      | terminate => rfl

theorem onRunner_line (taskId : TaskId) (method : TaskRunner → Reaction) :
    (client.onRunner taskId method).1.line = client.line := by
  rcases onRunner_cases taskId method client with ⟨-, hnone⟩ | ⟨serial, runner, -, -, hreact⟩
  · rw [hnone]
  · rw [hreact, react_line]

theorem onMessage_line (message : DaemonOutbound) :
    (client.onMessage detectors outcome message).1.line = client.line := by
  cases message with
  | TASK_SUBMIT taskId input =>
      change (client.onTaskSubmit detectors outcome taskId input).1.line = _
      rcases onTaskSubmit_cases detectors outcome taskId input client with hsame | ⟨-, hnew⟩
      · rw [hsame]
      · rw [hnew]
        exact react_line
  | TASK_CANCEL taskId => exact onRunner_line _ _
  | APPROVAL_DECISION taskId approved reason => exact onRunner_line _ _

theorem onChildEvent_line (event : ChildEvent) :
    (client.onChildEvent detectors serial event).1.line = client.line := by
  rcases onChildEvent_cases detectors serial event client with hsame | ⟨runner, -, hreact⟩
  · rw [hsame]
  · rw [hreact, react_line]

theorem onConnect_line (socketId : ℕ) :
    (client.onConnect socketId).line = (client.apiKey, some socketId) := rfl

end DaemonClient

end CodeCaller
