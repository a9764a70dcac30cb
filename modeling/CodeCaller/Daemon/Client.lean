import CodeCaller.Daemon.Runner
import CodeCaller.Library.Table
import Mathlib.Logic.Function.Basic

/-!
# `client`

`DaemonClient`: the connection of a daemon to the Hub and the map of its runners.  What is in
flight in either direction belongs to the connection and is lost with it; what the daemon emits
while it has none is buffered and sent when it connects again.

A runner is an object that outlives its entry in the map, since its child goes on to call it.
`objects` holds every `TaskRunner` the daemon ever made, under the number of its creation.

### Main definitions

* `DaemonClient.emit`, `flushBuffer`, `onConnect`, `onDisconnect`: the channel.
* `react`: a runner reacts, and its effects are carried out in order.  All methods of runners are
  called through it.
* `onMessage`, `onChildEvent`: the listeners of the socket and of the children.
* `restart`: the process ends and is started again.

### Main results

`WellFormed`: every entry of the map is a runner of its task.  It is kept by everything that happens
to a daemon, since no method changes the task of its runner (`react_wellFormed`).
-/

namespace CodeCaller

open Async

/-! ## State -/

/-- A message of the daemon, with the runner that emitted it. -/
structure Outgoing where
  runner : Option ℕ
  inbound : DaemonInbound

/-- **A connection to the Hub**: its socket there, and what is in flight to the
daemon and from it. -/
structure Connection where
  socketId : ℕ
  inbox : List DaemonOutbound
  outbox : List Outgoing

/-- **The client**: its connection, if there is one, and the messages that wait for the next.
`runners` is the map of the source, from tasks to runners; `objects` are all runners there have
been since the process began, because a runner that has left the map still has a child whose events
arrive. -/
structure DaemonClient where
  apiKey : JsString
  socket : Option Connection
  buffer : List Outgoing
  runners : TaskId → Option ℕ
  objects : Table TaskRunner

/-- What a runner did that the properties of a daemon are about: it was started for
a task, it asked for approval, it answered its child, it reported a result. -/
inductive RunnerEvent where
  | started (runner : ℕ) (taskId : TaskId)
  | requested (runner : ℕ) (taskId : TaskId) (reason : Option JsString)
  | resumed (runner : ℕ) (taskId : TaskId)
  | reported (runner : ℕ) (taskId : TaskId) (status : StatusRef)
deriving DecidableEq

namespace DaemonClient

/-- A daemon that has just started with its API key. -/
def initial (apiKey : JsString) : DaemonClient :=
  { apiKey, socket := none, buffer := [], runners := fun _ => none, objects := Table.empty }

/-- The runner the daemon holds for a task. -/
def runnerOf (client : DaemonClient) (taskId : TaskId) : Option TaskRunner :=
  (client.runners taskId).bind fun serial => client.objects serial

/-- What is on its way to the daemon. -/
def inbox (client : DaemonClient) : List DaemonOutbound :=
  (client.socket.map (·.inbox)).getD []

/-- What is on its way from the daemon. -/
def outbox (client : DaemonClient) : List Outgoing :=
  (client.socket.map (·.outbox)).getD []

/-! ## The connection -/

/-- To the socket while there is one, else to the buffer. -/
def emit (message : Outgoing) (client : DaemonClient) : DaemonClient :=
  match client.socket with
  | some connection =>
    { client with
      socket := some { connection with outbox := connection.outbox ++ [message] } }
  | none => { client with buffer := client.buffer ++ [message] }

/-- What was buffered is handed to the socket in order. -/
def flushBuffer (client : DaemonClient) : DaemonClient :=
  match client.socket with
  | some connection =>
    { client with
      socket := some { connection with outbox := connection.outbox ++ client.buffer }
      buffer := [] }
  | none => client

/-- The `'connect'` listener, on the socket the Hub has opened. -/
def onConnect (socketId : ℕ) (client : DaemonClient) : DaemonClient :=
  { client with socket := some ⟨socketId, [], []⟩ }.flushBuffer

/-- The connection is gone, and with it what was in flight. -/
def onDisconnect (client : DaemonClient) : DaemonClient := { client with socket := none }

/-- The process ends and is started again: nothing is left but the configuration. -/
def restart (client : DaemonClient) : DaemonClient :=
  { client with
    socket := none
    buffer := []
    runners := fun _ => none
    objects := client.objects.filter fun _ _ => false }

/-- The timer of the heartbeat. -/
def heartbeat (client : DaemonClient) : DaemonClient := client.emit ⟨none, .HEARTBEAT⟩

/-! ## Runners -/

/-- The entry of a task is removed by the task, whichever runner it was. -/
def dropTask (taskId : TaskId) (client : DaemonClient) : DaemonClient :=
  { client with runners := Function.update client.runners taskId none }

/-- One effect of a runner. -/
def carryOut (serial : ℕ) (taskId : TaskId) (client : DaemonClient) : RunnerEffect → DaemonClient
  | .emit inbound => client.emit ⟨some serial, inbound⟩
  | .dropTask => client.dropTask taskId
  | .write _ | .terminate => client

/-- What is to be known of an effect. -/
def eventOf (serial : ℕ) (taskId : TaskId) : RunnerEffect → Option RunnerEvent
  | .emit (.APPROVAL_REQUEST payload) => some (.requested serial taskId payload.reason)
  | .emit (.TASK_RESULT payload) => some (.reported serial taskId payload.status)
  | .write _ => some (.resumed serial taskId)
  | .emit _ | .dropTask | .terminate => none

/-- **A runner reacts**: it is left as its method leaves it, and its effects are
carried out in order. -/
def react (serial : ℕ) (reaction : Reaction) (client : DaemonClient) :
    DaemonClient × List RunnerEvent :=
  let taskId := reaction.1.taskId
  (reaction.2.foldl (carryOut serial taskId)
      { client with objects := client.objects.modify serial fun _ => reaction.1 },
    reaction.2.filterMap (eventOf serial taskId))

variable (detectors : Detectors)

/-- A new runner for a task enters the map. -/
def enlist (taskId : TaskId) (input : Json) (client : DaemonClient) : DaemonClient :=
  { client with
    runners := Function.update client.runners taskId (some client.objects.next)
    objects := client.objects.insert (.create taskId input) }

/-- A submit for a task that has a runner is ignored. -/
def onTaskSubmit (outcome : SpawnOutcome) (taskId : TaskId) (input : Json)
    (client : DaemonClient) : DaemonClient × List RunnerEvent :=
  if (client.runners taskId).isSome then (client, [])
  else
    let serial := client.objects.next
    let reacted := (client.enlist taskId input).react serial
      ((TaskRunner.create taskId input).start detectors outcome)
    (reacted.1, .started serial taskId :: reacted.2)

/-- A call of a method on the runner of a task, if there is one. -/
def onRunner (taskId : TaskId) (method : TaskRunner → Reaction) (client : DaemonClient) :
    DaemonClient × List RunnerEvent :=
  match client.runners taskId with
  | none => (client, [])
  | some serial =>
    match client.objects serial with
    | none => (client, [])
    | some runner => client.react serial (method runner)

/-- A cancellation kills. -/
def onTaskCancel (taskId : TaskId) : DaemonClient → DaemonClient × List RunnerEvent :=
  onRunner taskId TaskRunner.kill

/-- A decision is for the runner of its task. -/
def onApprovalDecision (taskId : TaskId) (approved : Bool) :
    DaemonClient → DaemonClient × List RunnerEvent :=
  onRunner taskId (TaskRunner.decide approved)

/-- The listeners of the socket. -/
def onMessage (outcome : SpawnOutcome) (client : DaemonClient) :
    DaemonOutbound → DaemonClient × List RunnerEvent
  | .TASK_SUBMIT taskId input => client.onTaskSubmit detectors outcome taskId input
  | .TASK_CANCEL taskId => client.onTaskCancel taskId
  | .APPROVAL_DECISION taskId approved _ => client.onApprovalDecision taskId approved

/-- An event of the child of a runner. -/
def onChildEvent (serial : ℕ) (event : ChildEvent) (client : DaemonClient) :
    DaemonClient × List RunnerEvent :=
  match client.objects serial with
  | none => (client, [])
  | some runner => client.react serial (runner.onChildEvent detectors event)

/-! ## What a message changes -/

variable {client : DaemonClient} {message sent : Outgoing} {serial : ℕ} {taskId : TaskId}
  {reaction : Reaction} {effects : List RunnerEffect}

/-- What the daemon has emitted and the Hub has not received. -/
def unsent (client : DaemonClient) : List Outgoing := client.outbox ++ client.buffer

/-- What is emitted joins the messages for the Hub, and changes nothing else. -/
@[simp] theorem emit_inbox : (client.emit message).inbox = client.inbox := by
  unfold emit inbox
  cases client.socket <;> rfl

@[simp] theorem emit_objects : (client.emit message).objects = client.objects := by
  unfold emit
  cases client.socket <;> rfl

@[simp] theorem emit_runners : (client.emit message).runners = client.runners := by
  unfold emit
  cases client.socket <;> rfl

/-- Sent or buffered, a message that was emitted is on its way. -/
theorem mem_unsent_emit :
    sent ∈ (client.emit message).unsent ↔ sent ∈ client.unsent ∨ sent = message := by
  unfold emit unsent outbox
  cases client.socket with
  | none => simp
  | some connection => simp [or_assoc, or_comm]

/-- Flushing moves messages from the buffer to the connection, in their order. -/
theorem flushBuffer_unsent : client.flushBuffer.unsent = client.unsent := by
  unfold flushBuffer unsent outbox
  cases hsocket : client.socket with
  | none => simp [hsocket]
  | some connection => simp

@[simp] theorem flushBuffer_inbox : client.flushBuffer.inbox = client.inbox := by
  unfold flushBuffer inbox
  cases hsocket : client.socket with
  | none => simp [hsocket]
  | some connection => rfl

@[simp] theorem flushBuffer_objects : client.flushBuffer.objects = client.objects := by
  unfold flushBuffer
  cases client.socket <;> rfl

@[simp] theorem flushBuffer_runners : client.flushBuffer.runners = client.runners := by
  unfold flushBuffer
  cases client.socket <;> rfl

/-- An effect of a runner is for the Hub, for the child or for the map. -/
@[simp] theorem carryOut_inbox {effect : RunnerEffect} :
    (carryOut serial taskId client effect).inbox = client.inbox := by
  cases effect with
  | emit inbound => exact emit_inbox
  | dropTask => rfl
  | write input => rfl
  | terminate => rfl

@[simp] theorem carryOut_objects {effect : RunnerEffect} :
    (carryOut serial taskId client effect).objects = client.objects := by
  cases effect <;> simp [carryOut, dropTask]

/-- So a method of a runner takes no message from the Hub. -/
theorem carryAll_inbox : (effects.foldl (carryOut serial taskId) client).inbox = client.inbox := by
  induction effects generalizing client with
  | nil => rfl
  | cons effect effects ih => rw [List.foldl_cons, ih, carryOut_inbox]

/-- Effects are not runners: the runner itself is written by `react`. -/
theorem carryAll_objects :
    (effects.foldl (carryOut serial taskId) client).objects = client.objects := by
  induction effects generalizing client with
  | nil => rfl
  | cons effect effects ih => rw [List.foldl_cons, ih, carryOut_objects]

@[simp] theorem react_inbox : (client.react serial reaction).1.inbox = client.inbox :=
  carryAll_inbox

@[simp] theorem react_objects : (client.react serial reaction).1.objects =
    client.objects.modify serial fun _ => reaction.1 :=
  carryAll_objects

/-- A runner leaves the map by its own doing. -/
theorem react_runners {other : TaskId} {held : ℕ}
    (h : (client.react serial reaction).1.runners other = some held) :
    client.runners other = some held := by
  suffices hall : ∀ client : DaemonClient,
      (reaction.2.foldl (carryOut serial reaction.1.taskId) client).runners other = some held →
      client.runners other = some held from
    hall { client with objects := client.objects.modify serial fun _ => reaction.1 } h
  clear h
  induction reaction.2 with
  | nil => exact fun client h => h
  | cons effect effects ih =>
      intro client h
      have hnext := ih _ h
      cases effect with
      | emit inbound => rwa [carryOut, emit_runners] at hnext
      | dropTask =>
          simp only [carryOut, dropTask, Function.update_apply] at hnext
          split at hnext
          · cases hnext
          · exact hnext
      | write input => exact hnext
      | terminate => exact hnext

/-- What a runner emits is tagged with it. -/
theorem mem_unsent_react (h : sent ∈ (client.react serial reaction).1.unsent) :
    sent ∈ client.unsent ∨
      ∃ inbound, RunnerEffect.emit inbound ∈ reaction.2 ∧ sent = ⟨some serial, inbound⟩ := by
  suffices hall : ∀ client : DaemonClient,
      sent ∈ (reaction.2.foldl (carryOut serial reaction.1.taskId) client).unsent →
      sent ∈ client.unsent ∨
        ∃ inbound, RunnerEffect.emit inbound ∈ reaction.2 ∧ sent = ⟨some serial, inbound⟩ from
    hall { client with objects := client.objects.modify serial fun _ => reaction.1 } h
  clear h
  induction reaction.2 with
  | nil => exact fun client h => .inl h
  | cons effect effects ih =>
      intro client h
      rcases ih _ h with hmem | ⟨inbound, hmem, hsent⟩
      · cases effect with
        | emit inbound =>
            rw [carryOut, mem_unsent_emit] at hmem
            exact hmem.imp_right fun hsent => ⟨inbound, List.mem_cons_self, hsent⟩
        | dropTask => exact .inl hmem
        | write input => exact .inl hmem
        | terminate => exact .inl hmem
      · exact .inr ⟨inbound, List.mem_cons_of_mem _ hmem, hsent⟩

/-! ## What a method of a runner changes -/

variable {detectors} {outcome : SpawnOutcome} {input : Json} {method : TaskRunner → Reaction}

/-- A submit is ignored, or starts a new runner. -/
theorem onTaskSubmit_cases (detectors : Detectors) (outcome : SpawnOutcome) (taskId : TaskId)
    (input : Json) (client : DaemonClient) :
    client.onTaskSubmit detectors outcome taskId input = (client, []) ∨
      client.runners taskId = none ∧
      client.onTaskSubmit detectors outcome taskId input =
        (((client.enlist taskId input).react client.objects.next
            ((TaskRunner.create taskId input).start detectors outcome)).1,
          .started client.objects.next taskId ::
            ((client.enlist taskId input).react client.objects.next
              ((TaskRunner.create taskId input).start detectors outcome)).2) := by
  unfold onTaskSubmit
  cases hheld : client.runners taskId with
  | some serial => exact .inl rfl
  | none => exact .inr ⟨rfl, rfl⟩

/-- A method is called on the runner in the map, if there is one. -/
theorem onRunner_cases (taskId : TaskId) (method : TaskRunner → Reaction)
    (client : DaemonClient) :
    client.runnerOf taskId = none ∧ client.onRunner taskId method = (client, []) ∨
      ∃ serial runner, client.runners taskId = some serial ∧
        client.objects serial = some runner ∧
        client.onRunner taskId method = client.react serial (method runner) := by
  unfold onRunner runnerOf
  cases client.runners taskId with
  | none => exact .inl ⟨rfl, rfl⟩
  | some serial =>
      dsimp only [Option.bind_some]
      cases hrow : client.objects serial with
      | none => exact .inl ⟨rfl, rfl⟩
      | some runner => exact .inr ⟨serial, runner, rfl, hrow, rfl⟩

/-- An event of a child calls its runner. -/
theorem onChildEvent_cases (detectors : Detectors) (serial : ℕ) (event : ChildEvent)
    (client : DaemonClient) :
    client.onChildEvent detectors serial event = (client, []) ∨
      ∃ runner, client.objects serial = some runner ∧
        client.onChildEvent detectors serial event =
          client.react serial (runner.onChildEvent detectors event) := by
  unfold onChildEvent
  cases hrow : client.objects serial with
  | none => exact .inl rfl
  | some runner => exact .inr ⟨runner, rfl, rfl⟩

@[simp] theorem enlist_inbox : (client.enlist taskId input).inbox = client.inbox := rfl

/-- A new task has a new runner, under the next number. -/
theorem enlist_new : (client.enlist taskId input).objects client.objects.next =
    some (.create taskId input) := by
  simp [enlist]

/-! ## The map and the runners -/

/-- **The map holds runners of their tasks.** -/
def WellFormed (client : DaemonClient) : Prop :=
  ∀ taskId serial, client.runners taskId = some serial →
    ∃ runner, client.objects serial = some runner ∧ runner.taskId = taskId

/-- A task in the map has a runner. -/
theorem WellFormed.held {serial : ℕ} (hclient : client.WellFormed)
    (hheld : client.runners taskId = some serial) :
    ∃ runner, client.objects serial = some runner ∧ client.runnerOf taskId = some runner := by
  obtain ⟨runner, hrow, -⟩ := hclient taskId serial hheld
  refine ⟨runner, hrow, ?_⟩
  unfold runnerOf
  rw [hheld]
  exact hrow

/-- A method of a runner may remove its task from the map, and only its own. -/
theorem react_wellFormed {runner : TaskRunner} (hclient : client.WellFormed)
    (hrow : client.objects serial = some runner) (htask : reaction.1.taskId = runner.taskId) :
    (client.react serial reaction).1.WellFormed := by
  intro other held hheld
  obtain ⟨before, hbefore, hsame⟩ := hclient other held (react_runners hheld)
  rw [react_objects, Table.modify_apply]
  split
  · next heq =>
    subst heq
    obtain rfl : runner = before := Option.some.inj (hrow.symm.trans hbefore)
    rw [hrow]
    exact ⟨reaction.1, rfl, htask.trans hsame⟩
  · exact ⟨before, hbefore, hsame⟩

/-- The new runner is of the task it is filed under. -/
theorem enlist_wellFormed (hclient : client.WellFormed) :
    (client.enlist taskId input).WellFormed := by
  intro other held hheld
  unfold enlist at hheld ⊢
  dsimp only at hheld ⊢
  rw [Function.update_apply] at hheld
  rw [Table.insert_apply]
  split at hheld
  · next heq =>
    cases hheld
    rw [if_pos rfl]
    exact ⟨_, rfl, heq.symm⟩
  · obtain ⟨runner, hrow, hsame⟩ := hclient other held hheld
    rw [if_neg (Nat.ne_of_lt (Table.lt_next hrow))]
    exact ⟨runner, hrow, hsame⟩

/-- A message for a task is passed to the runner in the map, or dropped. -/
theorem onRunner_wellFormed (hclient : client.WellFormed)
    (hmethod : ∀ runner, (method runner).1.taskId = runner.taskId) :
    (client.onRunner taskId method).1.WellFormed := by
  rcases onRunner_cases taskId method client with ⟨-, hnone⟩ | ⟨serial, runner, -, hrow, hreact⟩
  · rw [hnone]
    exact hclient
  · rw [hreact]
    exact react_wellFormed hclient hrow (hmethod runner)

/-- Every message of the Hub, by its kind. -/
theorem onMessage_wellFormed (hclient : client.WellFormed) (message : DaemonOutbound) :
    (client.onMessage detectors outcome message).1.WellFormed := by
  cases message with
  | TASK_SUBMIT taskId input =>
      change (client.onTaskSubmit detectors outcome taskId input).1.WellFormed
      rcases onTaskSubmit_cases detectors outcome taskId input client with hsame | ⟨-, hnew⟩
      · rw [hsame]
        exact hclient
      · rw [hnew]
        exact react_wellFormed (enlist_wellFormed hclient) enlist_new
          (TaskRunner.start_orderly outcome).taskId
  | TASK_CANCEL taskId =>
      exact onRunner_wellFormed hclient fun _ => TaskRunner.kill_orderly.taskId
  | APPROVAL_DECISION taskId approved reason =>
      exact onRunner_wellFormed hclient fun _ => (TaskRunner.decide_orderly approved).taskId

/-- Every event of a child, in the map or not. -/
theorem onChildEvent_wellFormed (hclient : client.WellFormed) (event : ChildEvent) :
    (client.onChildEvent detectors serial event).1.WellFormed := by
  rcases onChildEvent_cases detectors serial event client with hsame | ⟨runner, hrow, hreact⟩
  · rw [hsame]
    exact hclient
  · rw [hreact]
    exact react_wellFormed hclient hrow (TaskRunner.onChildEvent_orderly event).taskId

end DaemonClient

end CodeCaller
