import CodeCaller.Daemon.Trust
import CodeCaller.Library.Chronicle

/-!
# What a daemon has on record

A daemon says of a task that its child has asked for approval, and how its child has ended.
`Records` holds a step of a daemon to its own record: what it says is an event of the step, and an
event is about a runner that was started before.  That a task is done is said for one reason alone,
a child that has left with the code 0.

* `Honest`: what a method says about its task.  `exited` is what has to be so for it to say that
  the task is completed; only `onClose` ever does.
* `Outgoing.OnRecord`: a message is on record, by an event of the runner that sent it.
* `RunnerEvent.Backed`: an event is about a runner that was started for the task.
* `onMessage_records`, `onChildEvent_records`: the two kinds of steps.

`Fleet.Accounts` appends the events of a step to the trace of the run, so what a message says is on
the record of the run before the message leaves the daemon.
-/

namespace CodeCaller

open Async

namespace TaskRunner

variable {detectors : Detectors} {runner : TaskRunner} {exited : Prop} {reaction : Reaction}

/-- **What a method says about its task**: that it runs, that it has failed, or that its child
has `exited` as it should. -/
structure Honest (exited : Prop) (reaction : Reaction) : Prop where
  running : ∀ payload, .emit (.TASK_STATUS_UPDATE payload) ∈ reaction.2 →
    payload.status = .status .RUNNING
  results : ∀ payload, .emit (.TASK_RESULT payload) ∈ reaction.2 →
    payload.status = .status .FAILED ∨ payload.status = .status .COMPLETED ∧ exited

/-- A method that speaks of no status. -/
theorem Honest.of_mute (hupdates : ∀ payload, .emit (.TASK_STATUS_UPDATE payload) ∉ reaction.2)
    (hresults : ∀ payload, .emit (.TASK_RESULT payload) ∉ reaction.2) : Honest exited reaction where
  running payload hmem := absurd hmem (hupdates payload)
  results payload hmem := absurd hmem (hresults payload)

/-- Who says nothing is honest. -/
theorem Honest.silent (hnone : reaction.2 = []) : Honest exited reaction :=
  .of_mute (fun _ => hnone ▸ List.not_mem_nil) fun _ => hnone ▸ List.not_mem_nil

/-- A failure is no success. -/
theorem finishFailed_honest (reason : JsString) :
    Honest exited (runner.finishFailed detectors reason) := by
  unfold finishFailed
  split
  · exact .silent rfl
  · refine ⟨fun payload hmem => ?_, fun payload hmem => .inl ?_⟩
    · simp [resultOf] at hmem
    · simp only [resultOf, List.mem_cons, RunnerEffect.emit.injEq, DaemonInbound.TASK_RESULT.injEq,
        List.not_mem_nil, reduceCtorEq, or_false] at hmem
      rw [hmem]

/-- A start reports no success. -/
theorem start_honest (outcome : SpawnOutcome) :
    Honest exited (runner.start detectors outcome) := by
  cases outcome with
  | process => exact ⟨by simp [start], by simp [start]⟩
  | noProcess => exact ⟨by simp [start], by simp [start]⟩
  | noStreams => exact .silent rfl
  | threw message =>
      rw [start_threw]
      exact finishFailed_honest _
  | noPlan => exact .silent rfl

/-- Output is reported as it came. -/
theorem onData_honest (chunk : JsString) : Honest exited (runner.onData detectors chunk) := by
  unfold onData
  dsimp only
  split
  · exact .of_mute (by simp) (by simp)
  · split <;> exact .of_mute (by simp) (by simp)

/-- A kill reports nothing. -/
theorem kill_honest : Honest exited runner.kill := by
  unfold kill
  split
  · exact .silent rfl
  · split
    · exact .silent rfl
    · exact .of_mute (by simp) (by simp)

/-- A decision reports nothing either. -/
theorem decide_honest (approved : Bool) : Honest exited (runner.decide approved) := by
  unfold decide resume
  split
  · split
    · split
      · exact .silent rfl
      · split
        · exact .silent rfl
        · exact .of_mute (by simp) (by simp)
    · exact .silent rfl
  · exact kill_honest

/-- A task is done when its child has left with the code 0. -/
theorem onClose_honest (code : Option ℤ) (signal : Option JsString) :
    Honest (code = some 0) (runner.onClose detectors code signal) := by
  unfold onClose
  split
  · exact .silent rfl
  · dsimp only
    split
    · exact .of_mute (by simp) (by simp)
    · refine ⟨fun payload hmem => ?_, fun payload hmem => ?_⟩
      · simp [resultOf] at hmem
      · simp only [resultOf, List.mem_cons, RunnerEffect.emit.injEq,
          DaemonInbound.TASK_RESULT.injEq, List.not_mem_nil, reduceCtorEq, or_false] at hmem
        rw [hmem]
        dsimp only
        split
        · next hcode => exact .inr ⟨rfl, hcode.1⟩
        · exact .inl rfl

/-- **All listeners are honest**: success is the end of the child with the code 0. -/
theorem onChildEvent_honest (event : ChildEvent) :
    Honest (∃ signal, event = .close (some 0) signal) (runner.onChildEvent detectors event) := by
  cases event with
  | data chunk => exact onData_honest chunk
  | error message =>
      rw [onChildEvent_error]
      exact finishFailed_honest _
  | exit code => exact .silent rfl
  | close code signal =>
      have hclose := @onClose_honest detectors
        (runner.withChild fun child => { child with closed := true }) code signal
      refine ⟨hclose.running, fun payload hmem => (hclose.results payload hmem).imp_right ?_⟩
      rintro ⟨hdone, rfl⟩
      exact ⟨hdone, signal, rfl⟩
  | stdinDestroyed => exact .silent rfl

end TaskRunner

/-- **A message is on record**: what it says of a task is an event of the runner that sent it. -/
def Outgoing.OnRecord (happened : RunnerEvent → Prop) (sent : Outgoing) : Prop :=
  match sent.inbound with
  | .APPROVAL_REQUEST payload => ∃ serial taskId, sent.runner = some serial ∧
      payload.taskId = .id taskId ∧ happened (.requested serial taskId payload.reason)
  | .TASK_RESULT payload => ∃ serial taskId, sent.runner = some serial ∧
      payload.taskId = .id taskId ∧ happened (.reported serial taskId payload.status)
  | .TASK_STATUS_UPDATE payload => payload.status = .status .RUNNING
  | .HEARTBEAT | .TASK_LOG _ => True

/-- **An event is backed**: it is about a runner that was `started` for the task, and a task is
done only if the child has `exited` as it should. -/
def RunnerEvent.Backed (started : ℕ → TaskId → Prop) (exited : ℕ → Prop) : RunnerEvent → Prop
  | .started _ _ => True
  | .requested serial taskId _ => started serial taskId
  | .resumed serial taskId => started serial taskId
  | .reported serial taskId status => started serial taskId ∧
      (status = .status .FAILED ∨ status = .status .COMPLETED ∧ exited serial)

/-- A record may be replaced by a longer one. -/
theorem Outgoing.OnRecord.mono {P Q : RunnerEvent → Prop} {sent : Outgoing} (h : sent.OnRecord P)
    (himp : ∀ event, P event → Q event) : sent.OnRecord Q := by
  unfold OnRecord at h ⊢
  split at h
  · obtain ⟨serial, taskId, hrunner, hid, hP⟩ := h
    exact ⟨serial, taskId, hrunner, hid, himp _ hP⟩
  · obtain ⟨serial, taskId, hrunner, hid, hP⟩ := h
    exact ⟨serial, taskId, hrunner, hid, himp _ hP⟩
  · exact h
  · trivial
  · trivial

/-- An event that is backed stays backed when more runners have started. -/
theorem RunnerEvent.Backed.mono {started started' : ℕ → TaskId → Prop} {exited : ℕ → Prop}
    {event : RunnerEvent} (h : event.Backed started exited)
    (himp : ∀ serial taskId, started serial taskId → started' serial taskId) :
    event.Backed started' exited := by
  cases event with
  | started serial taskId => trivial
  | requested serial taskId reason => exact himp _ _ h
  | resumed serial taskId => exact himp _ _ h
  | reported serial taskId status => exact ⟨himp _ _ h.1, h.2⟩

namespace DaemonClient

variable {detectors : Detectors} {client : DaemonClient} {serial : ℕ} {runner : TaskRunner}
  {reaction : Reaction} {exited : ℕ → Prop}

/-- The daemon has a runner of a task. -/
def Holds (client : DaemonClient) (serial : ℕ) (taskId : TaskId) : Prop :=
  ∃ runner, client.objects serial = some runner ∧ runner.taskId = taskId

/-- **A step of a daemon is on record.** -/
structure Records (exited : ℕ → Prop) (client : DaemonClient)
    (step : DaemonClient × List RunnerEvent) : Prop where
  sends : ∀ sent ∈ step.1.unsent, sent ∈ client.unsent ∨ sent.OnRecord (· ∈ step.2)
  backed : Warranted (fun before event => event.Backed (fun serial taskId =>
    client.Holds serial taskId ∨ .started serial taskId ∈ before) exited) step.2
  started : ∀ serial taskId, .started serial taskId ∈ step.2 → step.1.Holds serial taskId
  holds : ∀ serial taskId, step.1.Holds serial taskId →
    client.Holds serial taskId ∨ .started serial taskId ∈ step.2

/-- A step without events that sends nothing about a task. -/
theorem records_quiet {next : DaemonClient}
    (hsends : ∀ sent ∈ next.unsent, sent ∈ client.unsent ∨ sent.inbound = .HEARTBEAT)
    (hobjects : ∀ serial runner, next.objects serial = some runner →
      client.objects serial = some runner) : client.Records exited (next, []) where
  sends sent hmem := (hsends sent hmem).imp_right fun heq => by
    unfold Outgoing.OnRecord
    rw [heq]
    trivial
  backed := warranted_nil
  started _ _ hmem := absurd hmem List.not_mem_nil
  holds serial taskId := by
    rintro ⟨runner, hrow, hsame⟩
    exact .inl ⟨runner, hobjects serial runner hrow, hsame⟩

/-- Only what is unsent and the runners matter. -/
theorem Records.of_same {before : DaemonClient} {step : DaemonClient × List RunnerEvent}
    (hunsent : client.unsent = before.unsent) (hobjects : client.objects = before.objects)
    (h : client.Records exited step) : before.Records exited step := by
  have hholds : client.Holds = before.Holds := by
    unfold Holds
    rw [hobjects]
  refine ⟨fun sent hmem => ?_, hholds ▸ h.backed, h.started, hholds ▸ h.holds⟩
  rw [← hunsent]
  exact h.sends sent hmem

/-- What a runner says is on record. -/
theorem react_sends {done : Prop} (hfaithful : runner.Faithful reaction)
    (hhonest : TaskRunner.Honest done reaction) {sent : Outgoing}
    (hmem : sent ∈ (client.react serial reaction).1.unsent) :
    sent ∈ client.unsent ∨ sent.OnRecord (· ∈ (client.react serial reaction).2) := by
  rcases mem_unsent_react hmem with hold | ⟨inbound, hemit, rfl⟩
  · exact .inl hold
  right
  have hevent : ∀ event, eventOf serial reaction.1.taskId (.emit inbound) = some event →
      event ∈ (client.react serial reaction).2 := fun event heq =>
    List.mem_filterMap.mpr ⟨_, hemit, heq⟩
  have hspeaks := hfaithful.speaks inbound hemit
  cases inbound with
  | HEARTBEAT => trivial
  | TASK_STATUS_UPDATE payload => exact hhonest.running payload hemit
  | TASK_LOG payload => trivial
  | TASK_RESULT payload =>
      refine ⟨serial, runner.taskId, rfl, Option.some.inj hspeaks, ?_⟩
      rw [← hfaithful.taskId]
      exact hevent _ rfl
  | APPROVAL_REQUEST payload =>
      refine ⟨serial, runner.taskId, rfl, Option.some.inj hspeaks, ?_⟩
      rw [← hfaithful.taskId]
      exact hevent _ rfl

/-- What a runner does is about its own task, and no start. -/
theorem react_backed (hfaithful : runner.Faithful reaction)
    (hhonest : TaskRunner.Honest (exited serial) reaction) {event : RunnerEvent}
    (hmem : event ∈ (client.react serial reaction).2) :
    event.Backed (fun serial' taskId => serial' = serial ∧ taskId = runner.taskId) exited ∧
      ∀ serial' taskId, event ≠ .started serial' taskId := by
  obtain ⟨effect, heffect, hevent⟩ := List.mem_filterMap.mp hmem
  rw [hfaithful.taskId] at hevent
  cases effect with
  | write input =>
      cases hevent
      exact ⟨⟨rfl, rfl⟩, nofun⟩
  | dropTask => cases hevent
  | terminate => cases hevent
  | emit inbound =>
      cases inbound with
      | HEARTBEAT => cases hevent
      | TASK_STATUS_UPDATE payload => cases hevent
      | TASK_LOG payload => cases hevent
      | TASK_RESULT payload =>
          cases hevent
          exact ⟨⟨⟨rfl, rfl⟩, hhonest.results payload heffect⟩, nofun⟩
      | APPROVAL_REQUEST payload =>
          cases hevent
          exact ⟨⟨rfl, rfl⟩, nofun⟩

/-- The runners after a method keep their tasks. -/
theorem react_holds (hrow : client.objects serial = some runner)
    (hfaithful : runner.Faithful reaction) (serial' : ℕ) (taskId : TaskId) :
    (client.react serial reaction).1.Holds serial' taskId ↔ client.Holds serial' taskId := by
  unfold Holds
  rw [react_objects, Table.modify_apply]
  split
  · next heq =>
    subst heq
    simp [hrow, hfaithful.taskId]
  · rfl

/-- A method is on record with what it does. -/
theorem react_records (hrow : client.objects serial = some runner)
    (hfaithful : runner.Faithful reaction)
    (hhonest : TaskRunner.Honest (exited serial) reaction) :
    client.Records exited (client.react serial reaction) where
  sends sent hmem := react_sends hfaithful hhonest hmem
  backed before event after heq := by
    have hmem : event ∈ (client.react serial reaction).2 := by
      rw [heq]
      exact List.mem_append_right _ List.mem_cons_self
    refine (react_backed hfaithful hhonest hmem).1.mono fun serial' taskId => ?_
    rintro ⟨rfl, rfl⟩
    exact .inl ⟨runner, hrow, rfl⟩
  started serial' taskId hmem := absurd rfl ((react_backed hfaithful hhonest hmem).2 _ _)
  holds serial' taskId hholds := .inl ((react_holds hrow hfaithful _ _).mp hholds)

/-- What is passed to a runner is recorded as what this runner does. -/
theorem onRunner_records {taskId : TaskId} {method : TaskRunner → Reaction}
    (hfaithful : ∀ runner : TaskRunner, runner.Faithful (method runner))
    (hhonest : ∀ (runner : TaskRunner) (done : Prop), TaskRunner.Honest done (method runner)) :
    client.Records exited (client.onRunner taskId method) := by
  rcases onRunner_cases taskId method client with ⟨-, hnone⟩ | ⟨serial, runner, -, hrow, hreact⟩
  · rw [hnone]
    exact records_quiet (fun _ h => .inl h) fun _ _ h => h
  · rw [hreact]
    exact react_records hrow (hfaithful runner) (hhonest runner _)

/-- A new runner is on record before anything it says. -/
theorem onTaskSubmit_records {outcome : SpawnOutcome} {taskId : TaskId} {input : Json} :
    client.Records exited (client.onTaskSubmit detectors outcome taskId input) := by
  rcases onTaskSubmit_cases detectors outcome taskId input client with hsame | ⟨-, hnew⟩
  · rw [hsame]
    exact records_quiet (fun _ h => .inl h) fun _ _ h => h
  · rw [hnew]
    have hfaithful := @TaskRunner.start_faithful detectors (.create taskId input) outcome
    have hhonest := @TaskRunner.start_honest detectors (.create taskId input)
      (exited client.objects.next) outcome
    have hrow : (client.enlist taskId input).objects client.objects.next =
        some (.create taskId input) := enlist_new
    have hholds := react_holds hrow hfaithful
    have henlisted : ∀ serial about, (client.enlist taskId input).Holds serial about →
        client.Holds serial about ∨ serial = client.objects.next ∧ about = taskId := by
      rintro serial about ⟨runner, hrow, rfl⟩
      unfold enlist at hrow
      dsimp only at hrow
      rw [Table.insert_apply] at hrow
      split at hrow
      · next heq =>
        cases hrow
        exact .inr ⟨heq, rfl⟩
      · exact .inl ⟨runner, hrow, rfl⟩
    refine ⟨fun sent hmem => ?_, fun before event after heq => ?_, fun serial about hmem => ?_,
      fun serial about hheld => ?_⟩
    · refine (react_sends hfaithful hhonest hmem).imp_right fun h => ?_
      exact h.mono fun _ => List.mem_cons_of_mem _
    · cases before with
      | nil =>
          cases (List.cons.inj heq).1
          trivial
      | cons first rest =>
          obtain ⟨rfl, hrest⟩ := List.cons.inj heq
          have hmem : event ∈ ((client.enlist taskId input).react client.objects.next
              ((TaskRunner.create taskId input).start detectors outcome)).2 := by
            rw [hrest]
            exact List.mem_append_right _ List.mem_cons_self
          refine (react_backed hfaithful hhonest hmem).1.mono fun serial about => ?_
          rintro ⟨rfl, rfl⟩
          exact .inr List.mem_cons_self
    · rcases List.mem_cons.mp hmem with hfirst | hrest
      · cases hfirst
        exact (hholds _ _).mpr ⟨_, hrow, rfl⟩
      · exact absurd rfl ((react_backed hfaithful hhonest hrest).2 _ _)
    · refine (henlisted _ _ ((hholds _ _).mp hheld)).imp_right ?_
      rintro ⟨rfl, rfl⟩
      exact List.mem_cons_self

/-- **What a daemon does about a message is on record**, and completes no task. -/
theorem onMessage_records {outcome : SpawnOutcome} {message : DaemonOutbound} :
    client.Records exited (client.onMessage detectors outcome message) := by
  cases message with
  | TASK_SUBMIT taskId input => exact onTaskSubmit_records
  | TASK_CANCEL taskId =>
      exact onRunner_records (fun _ => TaskRunner.kill_faithful) fun _ _ => TaskRunner.kill_honest
  | APPROVAL_DECISION taskId approved reason =>
      exact onRunner_records (fun _ => TaskRunner.decide_faithful approved)
        fun _ _ => TaskRunner.decide_honest approved

/-- **What a daemon does about its children is on record**: a task is completed by a child that
has left with the code 0. -/
theorem onChildEvent_records {event : ChildEvent} :
    client.Records (fun other => other = serial ∧ ∃ signal, event = .close (some 0) signal)
      (client.onChildEvent detectors serial event) := by
  rcases onChildEvent_cases detectors serial event client with hsame | ⟨runner, hrow, hreact⟩
  · rw [hsame]
    exact records_quiet (fun _ h => .inl h) fun _ _ h => h
  · rw [hreact]
    have hhonest := @TaskRunner.onChildEvent_honest detectors runner event
    refine react_records hrow (TaskRunner.onChildEvent_faithful event)
      ⟨hhonest.running, fun payload hmem => (hhonest.results payload hmem).imp_right ?_⟩
    exact And.imp_right fun hexited => ⟨rfl, hexited⟩

end DaemonClient

end CodeCaller
