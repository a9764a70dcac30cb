import CodeCaller.Daemon.Channel

/-!
# How runners end

A daemon by itself: the messages of the Hub and the events of its children, in any order.  The exit
of a runner is handled on two paths, by `'close'` and by `'error'`, and the map of the client
forgets a task by its id; what keeps the two in step is that a runner is in the map exactly as long
as its exit is open.

### The pieces

* `Calls`: a step leaves the runners alone, starts one, or calls a method of one.  All invariants
  of this module go by these three cases.
* `KillSafe`: the condition on a step under which it is silent for killed runners (`Silences`).
* `silences_step`: one step is silent exactly under its condition, and `kill_final`: a run is
  silent after a kill exactly if each of its steps is safe.
* `one_runner_one_result`: a task has one runner in the map, and a runner reports one result at
  most, after which it is gone from the map.

### Two flags

`killedByHub` silences `onClose`, and is not looked at by `finishFailed`, nor by `decide`.  So an
`'error'` of the child after a kill is reported, and an approval that arrives between the kill and
the end of the child is written to it.
-/

namespace CodeCaller

open Async

/-- **What happens to a daemon.** -/
inductive DaemonAction where
  | message (message : DaemonOutbound) (outcome : SpawnOutcome)
  | child (runner : ℕ) (event : ChildEvent)
  | channel (action : ChannelAction)

namespace DaemonClient

variable (detectors : Detectors)

/-- One step of a daemon, and what its runners did in it. -/
def daemonStep (client : DaemonClient) : DaemonAction → DaemonClient × List RunnerEvent
  | .message message outcome => client.onMessage detectors outcome message
  | .child runner event => client.onChildEvent detectors runner event
  | .channel action => (client.channelStep action, [])

/-- **A daemon that has just started**, by itself. -/
def daemonMachine : Machine DaemonClient DaemonAction where
  start client := ∃ apiKey, client = initial apiKey
  enabled client action :=
    match action with
    | .message _ _ => True
    | .child runner event => ((client.objects runner).bind (·.child)).any (event.possible ·) = true
    | .channel action => channelMachine.enabled client action
  step client action := (client.daemonStep detectors action).1

/-- What the runners did in a visit. -/
abbrev eventsAt (visit : DaemonClient × DaemonAction) : List RunnerEvent :=
  (visit.1.daemonStep detectors visit.2).2

variable {detectors} {client : DaemonClient} {action : DaemonAction} {apiKey : JsString}
  {actions : List DaemonAction}

/-! ## What a step is -/

/-- **An action kills a runner**: a cancellation or a rejection for the task whose
runner it is. -/
def Kills (client : DaemonClient) (serial : ℕ) : DaemonAction → Prop
  | .message (.TASK_CANCEL taskId) _ | .message (.APPROVAL_DECISION taskId false _) _ =>
    client.runners taskId = some serial
  | _ => False

/-- **A step of a daemon** leaves its runners alone, starts a new one, or calls a
method of one: of one in the map for a message, of any for an event of its
child. -/
inductive Calls (detectors : Detectors) (client : DaemonClient) :
    DaemonAction → DaemonClient × List RunnerEvent → Prop where
  | idle {action : DaemonAction} {client' : DaemonClient}
      (hrunners : client'.runners = client.runners) (hobjects : client'.objects = client.objects)
      (hkills : client.WellFormed → ∀ serial, ¬client.Kills serial action) :
      Calls detectors client action (client', [])
  | starts {taskId : TaskId} {input : Json} {outcome : SpawnOutcome}
      (hfree : client.runners taskId = none) :
      Calls detectors client (.message (.TASK_SUBMIT taskId input) outcome)
        (((client.enlist taskId input).react client.objects.next
            ((TaskRunner.create taskId input).start detectors outcome)).1,
          .started client.objects.next taskId ::
            ((client.enlist taskId input).react client.objects.next
              ((TaskRunner.create taskId input).start detectors outcome)).2)
  | kills {message : DaemonOutbound} {outcome : SpawnOutcome} {serial : ℕ} {runner : TaskRunner}
      (hmessage : message = .TASK_CANCEL message.taskId ∨
        ∃ reason, message = .APPROVAL_DECISION message.taskId false reason)
      (hheld : client.runners message.taskId = some serial)
      (hrow : client.objects serial = some runner) :
      Calls detectors client (.message message outcome) (client.react serial runner.kill)
  | approves {taskId : TaskId} {reason : Option JsString} {outcome : SpawnOutcome} {serial : ℕ}
      {runner : TaskRunner} (hheld : client.runners taskId = some serial)
      (hrow : client.objects serial = some runner) :
      Calls detectors client (.message (.APPROVAL_DECISION taskId true reason) outcome)
        (client.react serial (runner.decide true))
  | child {serial : ℕ} {event : ChildEvent} {runner : TaskRunner}
      (hrow : client.objects serial = some runner) :
      Calls detectors client (.child serial event)
        (client.react serial (runner.onChildEvent detectors event))

/-- The channel leaves the runners alone. -/
theorem channelStep_runners (client : DaemonClient) (action : ChannelAction) :
    (client.channelStep action).runners = client.runners ∧
      (client.channelStep action).objects = client.objects := by
  cases action with
  | emit message => exact ⟨emit_runners, emit_objects⟩
  | connect socketId => exact ⟨flushBuffer_runners, flushBuffer_objects⟩
  | disconnect => exact ⟨rfl, rfl⟩

/-- **Every step is one of the three.** -/
theorem daemonStep_calls (detectors : Detectors) (client : DaemonClient) (action : DaemonAction) :
    Calls detectors client action (client.daemonStep detectors action) := by
  cases action with
  | channel action =>
      obtain ⟨hrunners, hobjects⟩ := channelStep_runners client action
      exact .idle hrunners hobjects fun _ _ h => h
  | child serial event =>
      change Calls detectors client _ (client.onChildEvent detectors serial event)
      rcases onChildEvent_cases detectors serial event client with hsame | ⟨runner, hrow, hreact⟩
      · rw [hsame]
        exact .idle rfl rfl fun _ _ h => h
      · rw [hreact]
        exact .child hrow
  | message message outcome =>
      cases message with
      | TASK_SUBMIT taskId input =>
          change Calls detectors client _ (client.onTaskSubmit detectors outcome taskId input)
          rcases onTaskSubmit_cases detectors outcome taskId input client with
            hsame | ⟨hfree, hnew⟩
          · rw [hsame]
            exact .idle rfl rfl fun _ _ h => h
          · rw [hnew]
            exact .starts hfree
      | TASK_CANCEL taskId =>
          change Calls detectors client _ (client.onRunner taskId TaskRunner.kill)
          rcases onRunner_cases taskId TaskRunner.kill client with
            ⟨hnone, hsame⟩ | ⟨serial, runner, hheld, hrow, hreact⟩
          · rw [hsame]
            refine .idle rfl rfl fun hclient serial hheld => ?_
            obtain ⟨runner, -, hrunner⟩ := hclient.held hheld
            rw [hnone] at hrunner
            cases hrunner
          · rw [hreact]
            exact .kills (.inl rfl) hheld hrow
      | APPROVAL_DECISION taskId approved reason =>
          change Calls detectors client _ (client.onRunner taskId (TaskRunner.decide approved))
          rcases onRunner_cases taskId (TaskRunner.decide approved) client with
            ⟨hnone, hsame⟩ | ⟨serial, runner, hheld, hrow, hreact⟩
          · rw [hsame]
            refine .idle rfl rfl fun hclient serial hkills => ?_
            cases approved with
            | true => exact hkills
            | false =>
                obtain ⟨runner, -, hrunner⟩ := hclient.held hkills
                rw [hnone] at hrunner
                cases hrunner
          · rw [hreact]
            cases approved with
            | true => exact .approves hheld hrow
            | false => exact .kills (.inr ⟨reason, rfl⟩) hheld hrow

/-! ## A kill by the Hub -/

/-- Whether a runner was killed by the Hub. -/
def Killed (client : DaemonClient) (serial : ℕ) : Prop :=
  ∃ runner, client.objects serial = some runner ∧ runner.killedByHub = true

/-- A runner reports a result, or answers its child: what a killed one must not do
any more. -/
def Speaks (serial : ℕ) : RunnerEvent → Prop
  | .reported runner _ _ | .resumed runner _ => runner = serial
  | .started _ _ | .requested _ _ _ => False

/-- **The condition on a step**: no `'error'` reaches a killed runner whose exit is
open, and no approval reaches one that would still answer. -/
def KillSafe (client : DaemonClient) : DaemonAction → Prop
  | .child serial (.error _) => ∀ runner, client.objects serial = some runner →
      runner.killedByHub = true → runner.exitHandled = true
  | .message (.APPROVAL_DECISION taskId true _) _ => ∀ runner,
      client.runnerOf taskId = some runner → runner.killedByHub = true → runner.answers = false
  | _ => True

/-- A runner that the Hub has killed bears the mark. -/
theorem killed_of_row {serial : ℕ} {runner : TaskRunner}
    (hrow : client.objects serial = some runner)
    (hkilled : client.Killed serial) : runner.killedByHub = true := by
  obtain ⟨other, hother, hkilled⟩ := hkilled
  obtain rfl : runner = other := Option.some.inj (hrow.symm.trans hother)
  exact hkilled

/-- A method writes its own runner, so the marks of the others stay. -/
theorem killed_react {serial other : ℕ} {runner : TaskRunner} {reaction : Reaction}
    (hrow : client.objects serial = some runner) :
    (client.react serial reaction).1.Killed other ↔
      if other = serial then reaction.1.killedByHub = true else client.Killed other := by
  unfold Killed
  rw [react_objects]
  simp only [Table.modify_apply]
  split
  · simp [hrow]
  · rfl

/-- A runner is killed by a kill only. -/
theorem killed_step {serial : ℕ} (hclient : client.WellFormed) :
    (client.daemonStep detectors action).1.Killed serial ↔
      client.Killed serial ∨ client.Kills serial action := by
  have hcalls := daemonStep_calls detectors client action
  generalize client.daemonStep detectors action = next at hcalls
  cases hcalls with
  | idle hrunners hobjects hkills =>
      unfold Killed
      rw [hobjects]
      exact ⟨.inl, fun h => h.resolve_right (hkills hclient serial)⟩
  | @starts taskId input outcome hfree =>
      rw [killed_react enlist_new, TaskRunner.start_killed]
      -- the new runner is at a number no runner had, so it was not killed before
      have hfresh : client.objects client.objects.next = none := client.objects.fresh _ le_rfl
      split
      · next heq =>
        subst heq
        refine ⟨nofun, fun h => ?_⟩
        obtain ⟨runner, hrow, -⟩ := h.resolve_right id
        rw [hfresh] at hrow
        cases hrow
      · next hne =>
        unfold Killed enlist
        simp only [Table.insert_apply, if_neg hne]
        exact ⟨.inl, fun h => h.resolve_right id⟩
  | @kills message outcome held runner hmessage hheld hrow =>
      rw [killed_react hrow]
      -- both messages kill the runner the task has, and no other
      have hkills : ∀ other, client.Kills other (.message message outcome) ↔ other = held := by
        intro other
        have hiff : client.runners message.taskId = some other ↔ other = held := by
          rw [hheld, Option.some.injEq]
          exact eq_comm
        rcases hmessage with hcancel | ⟨reason, hreject⟩
        · rw [hcancel]
          exact hiff
        · rw [hreject]
          exact hiff
      rw [hkills]
      split
      · next heq => exact ⟨fun _ => .inr heq, fun _ => TaskRunner.kill_killed⟩
      · next hne => exact ⟨.inl, fun h => h.resolve_right hne⟩
  | @approves taskId reason outcome held runner hheld hrow =>
      rw [killed_react hrow, TaskRunner.approve_killed]
      split
      · next heq =>
        subst heq
        exact ⟨fun h => .inl ⟨runner, hrow, h⟩, fun h => killed_of_row hrow (h.resolve_right id)⟩
      · exact ⟨.inl, fun h => h.resolve_right id⟩
  | @child held event runner hrow =>
      rw [killed_react hrow, TaskRunner.onChildEvent_killed]
      split
      · next heq =>
        subst heq
        exact ⟨fun h => .inl ⟨runner, hrow, h⟩, fun h => killed_of_row hrow (h.resolve_right id)⟩
      · exact ⟨.inl, fun h => h.resolve_right id⟩

/-- A step speaks for the runner that reacts in it. -/
theorem speaks_react {serial other : ℕ} {reaction : Reaction} :
    (∃ event ∈ (client.react serial reaction).2, Speaks other event) ↔
      other = serial ∧ TaskRunner.Speaks reaction := by
  have hevents : (client.react serial reaction).2 =
      reaction.2.filterMap (eventOf serial reaction.1.taskId) := rfl
  rw [hevents]
  simp only [List.mem_filterMap]
  constructor
  · rintro ⟨event, ⟨effect, hmem, hevent⟩, hspeaks⟩
    unfold eventOf at hevent
    split at hevent
    · cases hevent
      exact hspeaks.elim
    · next payload =>
      cases hevent
      exact ⟨hspeaks.symm, .inl ⟨payload, hmem⟩⟩
    · next input =>
      cases hevent
      exact ⟨hspeaks.symm, .inr ⟨input, hmem⟩⟩
    · cases hevent
    · cases hevent
    · cases hevent
  · rintro ⟨rfl, ⟨payload, hmem⟩ | ⟨input, hmem⟩⟩
    · exact ⟨_, ⟨_, hmem, rfl⟩, rfl⟩
    · exact ⟨_, ⟨_, hmem, rfl⟩, rfl⟩

/-- **A step is silent for the killed**: no killed runner reports or answers in it. -/
def Silences (client : DaemonClient) (events : List RunnerEvent) : Prop :=
  ∀ serial, client.Killed serial → ∀ event ∈ events, ¬Speaks serial event

/-- What a reaction reports is reported of its runner. -/
theorem silences_react {next : DaemonClient} {serial : ℕ} {reaction : Reaction} :
    client.Silences (next.react serial reaction).2 ↔
      (client.Killed serial → ¬TaskRunner.Speaks reaction) := by
  constructor
  · intro h hkilled hspeaks
    obtain ⟨event, hmem, hevent⟩ := speaks_react.mpr ⟨rfl, hspeaks⟩
    exact h serial hkilled event hmem hevent
  · intro h other hkilled event hmem hevent
    obtain ⟨rfl, hspeaks⟩ := speaks_react.mp ⟨event, hmem, hevent⟩
    exact h hkilled hspeaks

/-- A step without events is silent. -/
theorem silences_nil : client.Silences [] := fun _ _ _ hmem => absurd hmem List.not_mem_nil

/-- The condition for an event of a child, without the other cases: an 'error' of a killed child
comes after the close. -/
theorem killSafe_child_iff {serial : ℕ} {event : ChildEvent} :
    client.KillSafe (.child serial event) ↔
      ((∃ message, event = .error message) → ∀ runner, client.objects serial = some runner →
        runner.killedByHub = true → runner.exitHandled = true) := by
  cases event with
  | error message => exact ⟨fun hsafe _ => hsafe, fun hsafe => hsafe ⟨message, rfl⟩⟩
  | _ =>
      refine iff_of_true trivial ?_
      rintro ⟨message, heq⟩
      cases heq

/-- An event of a child. -/
theorem silences_childEvent {serial : ℕ} {event : ChildEvent} :
    client.Silences (client.onChildEvent detectors serial event).2 ↔
      client.KillSafe (.child serial event) := by
  rw [killSafe_child_iff]
  unfold onChildEvent
  cases hrow : client.objects serial with
  | none => exact iff_of_true silences_nil fun _ _ => nofun
  | some runner =>
      dsimp only
      rw [silences_react]
      constructor
      · intro h hmessage other hother hkilled
        obtain rfl : runner = other := Option.some.inj hother
        by_contra hopen
        rw [Bool.not_eq_true] at hopen
        exact h ⟨runner, hrow, hkilled⟩ ((TaskRunner.killed_speaks hkilled _).mpr ⟨hmessage, hopen⟩)
      · intro hsafe hkilled hspeaks
        have hkilled := killed_of_row hrow hkilled
        obtain ⟨hmessage, hopen⟩ := (TaskRunner.killed_speaks hkilled event).mp hspeaks
        have hhandled := hsafe hmessage runner rfl hkilled
        rw [hopen] at hhandled
        cases hhandled

/-- A kill says nothing itself. -/
theorem silences_kill (taskId : TaskId) :
    client.Silences (client.onRunner taskId TaskRunner.kill).2 := by
  rcases onRunner_cases taskId TaskRunner.kill client with
    ⟨-, hsame⟩ | ⟨serial, runner, -, -, hreact⟩
  · rw [hsame]
    exact silences_nil
  · rw [hreact, silences_react]
    exact fun _ => TaskRunner.kill_stays.silent TaskRunner.kill_write

/-- A new runner is not a killed one. -/
theorem silences_taskSubmit {outcome : SpawnOutcome} {taskId : TaskId} {input : Json} :
    client.Silences (client.onTaskSubmit detectors outcome taskId input).2 := by
  rcases onTaskSubmit_cases detectors outcome taskId input client with hsame | ⟨-, hnew⟩
  · rw [hsame]
    exact silences_nil
  · rw [hnew]
    rintro other ⟨runner, hrow, -⟩ event hmem hspeaks
    rcases List.mem_cons.mp hmem with rfl | hmem
    · exact hspeaks
    · -- the new runner has a number that no runner had before
      obtain ⟨rfl, -⟩ := speaks_react.mp ⟨event, hmem, hspeaks⟩
      rw [client.objects.fresh _ le_rfl] at hrow
      cases hrow

/-- An approval. -/
theorem silences_approve {taskId : TaskId} :
    client.Silences (client.onRunner taskId (TaskRunner.decide true)).2 ↔
      ∀ runner, client.runnerOf taskId = some runner → runner.killedByHub = true →
        runner.answers = false := by
  rcases onRunner_cases taskId (TaskRunner.decide true) client with
    ⟨hnone, hsame⟩ | ⟨serial, runner, hheld, hrow, hreact⟩
  · rw [hsame, hnone]
    exact iff_of_true silences_nil fun _ => nofun
  · have hrunner : client.runnerOf taskId = some runner := by
      unfold runnerOf
      rw [hheld]
      exact hrow
    rw [hreact, silences_react, TaskRunner.approve_speaks, hrunner, Bool.not_eq_true]
    constructor
    · intro h other hother hkilled
      obtain rfl : runner = other := Option.some.inj hother
      exact h ⟨runner, hrow, hkilled⟩
    · exact fun h hkilled => h runner rfl (killed_of_row hrow hkilled)

/-- **One step is silent for the killed exactly under its condition.** -/
theorem silences_step :
    client.Silences (client.daemonStep detectors action).2 ↔ client.KillSafe action := by
  cases action with
  | channel action => exact iff_of_true silences_nil trivial
  | child serial event => exact silences_childEvent
  | message message outcome =>
      cases message with
      | TASK_SUBMIT taskId input => exact iff_of_true silences_taskSubmit trivial
      | TASK_CANCEL taskId => exact iff_of_true (silences_kill taskId) trivial
      | APPROVAL_DECISION taskId approved reason =>
          cases approved with
          | false => exact iff_of_true (silences_kill taskId) trivial
          | true => exact silences_approve

/-- Connections and heartbeats leave the map alone. -/
theorem channelStep_wellFormed (hclient : client.WellFormed) (action : ChannelAction) :
    (client.channelStep action).WellFormed := by
  obtain ⟨hrunners, hobjects⟩ := channelStep_runners client action
  unfold WellFormed
  rw [hrunners, hobjects]
  exact hclient

/-- Every step of a daemon, by its kind. -/
theorem daemonStep_wellFormed (hclient : client.WellFormed) :
    (client.daemonStep detectors action).1.WellFormed := by
  cases action with
  | message message outcome => exact onMessage_wellFormed hclient message
  | child serial event => exact onChildEvent_wellFormed hclient event
  | channel action => exact channelStep_wellFormed hclient action

/-- The map is in order in all that a daemon can reach. -/
theorem exec_wellFormed (hclient : client.WellFormed) (actions : List DaemonAction) :
    ((daemonMachine detectors).exec client actions).WellFormed := by
  induction actions generalizing client with
  | nil => exact hclient
  | cons action actions ih => exact ih (daemonStep_wellFormed hclient)

/-- At the beginning the map is empty. -/
theorem initial_wellFormed (apiKey : JsString) : (initial apiKey).WellFormed :=
  fun _ _ h => nomatch h

/-- **A runner is killed exactly when it was**: some earlier action killed it. -/
theorem killed_exec {serial : ℕ} :
    ((daemonMachine detectors).exec (initial apiKey) actions).Killed serial ↔
      ∃ front kill back, actions = front ++ kill :: back ∧
        ((daemonMachine detectors).exec (initial apiKey) front).Kills serial kill := by
  induction actions using List.reverseRecOn with
  | nil =>
      constructor
      · rintro ⟨runner, hrow, -⟩
        cases hrow
      · rintro ⟨front, kill, back, heq, -⟩
        simp at heq
  | append_singleton actions action ih =>
      have hstep : (daemonMachine detectors).exec (initial apiKey) (actions ++ [action]) =
          (((daemonMachine detectors).exec (initial apiKey) actions).daemonStep detectors
            action).1 := by
        rw [Machine.exec_append]
        rfl
      rw [hstep, killed_step (exec_wellFormed (initial_wellFormed apiKey) actions), ih]
      constructor
      · rintro (⟨front, kill, back, rfl, hkills⟩ | hkills)
        · exact ⟨front, kill, back ++ [action], by simp, hkills⟩
        · exact ⟨actions, action, [], rfl, hkills⟩
      · rintro ⟨front, kill, back, heq, hkills⟩
        rcases List.eq_nil_or_concat back with rfl | ⟨back, last, rfl⟩
        · obtain ⟨rfl, hlast⟩ := List.append_inj' heq rfl
          cases hlast
          exact .inr hkills
        · refine .inl ⟨front, kill, back, ?_, hkills⟩
          rw [List.concat_eq_append, ← List.cons_append, ← List.append_assoc] at heq
          exact (List.append_inj' heq rfl).1

/-- **A kill by the Hub is final, exactly under the condition**: after an action that
killed a runner, no step has it report a result or answer its child, if and only
if no step lets an `'error'` reach a killed runner whose exit is open or an
approval reach one that would still answer. -/
theorem kill_final :
    (∀ front kill back serial, actions = front ++ kill :: back →
      ((daemonMachine detectors).exec (initial apiKey) front).Kills serial kill →
      ∀ visit ∈ (daemonMachine detectors).visits
          ((daemonMachine detectors).exec (initial apiKey) (front ++ [kill])) back,
        ∀ event ∈ eventsAt detectors visit, ¬Speaks serial event) ↔
    ∀ visit ∈ (daemonMachine detectors).visits (initial apiKey) actions,
      visit.1.KillSafe visit.2 := by
  constructor
  · intro hfinal visit hvisit
    rw [← @silences_step detectors]
    obtain ⟨before, after, rfl, hstate⟩ := ((daemonMachine detectors).mem_visits_iff).mp hvisit
    intro serial hkilled event hmem
    rw [hstate, killed_exec] at hkilled
    obtain ⟨front, kill, back, rfl, hkills⟩ := hkilled
    refine hfinal front kill (back ++ visit.2 :: after) serial (by simp) hkills visit ?_ event hmem
    refine ((daemonMachine detectors).mem_visits_iff).mpr ⟨back, after, rfl, ?_⟩
    rw [hstate, ← Machine.exec_append]
    simp
  · intro hsafe front kill back serial heq hkills visit hvisit event hmem
    obtain ⟨before, after, rfl, hstate⟩ := ((daemonMachine detectors).mem_visits_iff).mp hvisit
    have hmember : visit ∈ (daemonMachine detectors).visits (initial apiKey) actions := by
      refine ((daemonMachine detectors).mem_visits_iff).mpr
        ⟨front ++ kill :: before, after, by rw [heq]; simp, ?_⟩
      rw [hstate, ← Machine.exec_append]
      simp
    refine (@silences_step detectors _ _).mpr (hsafe visit hmember) serial ?_ event hmem
    rw [hstate, ← Machine.exec_append, killed_exec]
    exact ⟨front, kill, before, by simp, hkills⟩

/-- A runner is cancelled, and an `'error'` of its child makes it report a result. -/
theorem kill_final_error :
    let M := daemonMachine ⟨fun _ => none, fun _ _ _ => none⟩
    let submit : DaemonAction := .message (.TASK_SUBMIT 0 sampleInput) .process
    let cancel : DaemonAction := .message (.TASK_CANCEL 0) .noPlan
    let error : DaemonAction := .child 0 (.error [])
    M.Runs (initial []) [submit, cancel, error] ∧
      (M.exec (initial []) [submit]).Kills 0 cancel ∧
      ∃ visit ∈ M.visits (M.exec (initial []) [submit, cancel]) [error],
        ∃ event ∈ eventsAt ⟨fun _ => none, fun _ _ _ => none⟩ visit, Speaks 0 event := by
  intro M submit cancel error
  refine ⟨?_, rfl, _, List.mem_cons_self, _, List.mem_cons_self, rfl⟩
  simp only [Machine.runs_cons, Machine.runs_nil, and_true]
  exact ⟨trivial, trivial, rfl⟩

/-! ## One runner for a task, one result for a runner -/

/-- **The map accounts for the open exits**: it holds a runner exactly as long as the
runner has not handled its exit. -/
def Accounted (client : DaemonClient) : Prop :=
  ∀ taskId serial, client.runners taskId = some serial ↔ ∃ runner,
    client.objects serial = some runner ∧ runner.taskId = taskId ∧ runner.exitHandled = false

/-- A runner has handled its exit. -/
def Ended (client : DaemonClient) (serial : ℕ) : Prop :=
  ∃ runner, client.objects serial = some runner ∧ runner.exitHandled = true

/-- Whether an event is the result of a runner. -/
def reportOf (serial : ℕ) : RunnerEvent → Bool
  | .reported runner _ _ => runner = serial
  | .started _ _ | .requested _ _ _ | .resumed _ _ => false

/-- The results of a runner in a visit. -/
def reportsAt (detectors : Detectors) (serial : ℕ) (visit : DaemonClient × DaemonAction) : ℕ :=
  (eventsAt detectors visit).countP (reportOf serial)

variable {serial other : ℕ} {runner : TaskRunner} {reaction : Reaction} {taskId : TaskId}
  {input : Json}

/-- A runner that does not leave the map changes nothing there. -/
theorem react_stays (hdrop : .dropTask ∉ reaction.2) :
    (client.react serial reaction).1.runners = client.runners := by
  suffices hall : ∀ client : DaemonClient,
      (reaction.2.foldl (carryOut serial reaction.1.taskId) client).runners = client.runners from
    hall { client with objects := client.objects.modify serial fun _ => reaction.1 }
  revert hdrop
  induction reaction.2 with
  | nil => exact fun _ _ => rfl
  | cons effect effects ih =>
      intro hdrop client
      rw [List.mem_cons, not_or] at hdrop
      rw [List.foldl_cons, ih hdrop.2]
      cases effect with
      | emit inbound => exact emit_runners
      | dropTask => exact absurd rfl hdrop.1
      | write input => rfl
      | terminate => rfl

/-- A runner that handles its exit leaves the map, whoever is in its place. -/
theorem react_leaves (hexits : runner.Exits reaction) :
    (client.react serial reaction).1.runners =
      Function.update client.runners reaction.1.taskId none := by
  unfold react
  rcases hexits.effects with heffects | ⟨payload, heffects⟩
  · rw [heffects]
    rfl
  · rw [heffects]
    simp [carryOut, dropTask]

/-- A method either leaves the exit alone, and the runner stays in the map, or handles it and the
runner leaves. -/
theorem accounted_react (hclient : client.Accounted) (hrow : client.objects serial = some runner)
    (htask : reaction.1.taskId = runner.taskId)
    (hexit : runner.Exits reaction ∨ runner.Stays reaction) :
    (client.react serial reaction).1.Accounted := by
  intro taskId held
  rw [react_objects, Table.modify_apply]
  rcases hexit with hexits | hstays
  · -- the runner that leaves is the one the map held
    have hheld : client.runners runner.taskId = some serial :=
      (hclient _ _).mpr ⟨runner, hrow, rfl, hexits.before⟩
    rw [react_leaves hexits, Function.update_apply, htask]
    split
    · next heq =>
      subst heq
      refine ⟨nofun, ?_⟩
      rintro ⟨other, hother, hsame, hopen⟩
      split at hother
      · rw [hrow] at hother
        cases hother
        rw [hexits.after] at hopen
        cases hopen
      · next hne =>
        have halso := (hclient _ held).mpr ⟨other, hother, hsame, hopen⟩
        rw [hheld] at halso
        exact absurd (Option.some.inj halso).symm hne
    · next hne =>
      rw [hclient]
      split
      · next heq =>
        subst heq
        rw [hrow]
        simp only [Option.map_some, Option.some.injEq, exists_eq_left']
        exact ⟨fun h => absurd h.1.symm hne, fun h => absurd (h.1.symm.trans htask) hne⟩
      · rfl
  · rw [react_stays hstays.dropTask, hclient]
    split
    · next heq =>
      subst heq
      rw [hrow]
      simp only [Option.map_some, Option.some.injEq, exists_eq_left', htask, hstays.handled]
    · rfl

/-- A task gets a runner only if it has none, so no two in the map have one task. -/
theorem accounted_enlist (hclient : client.Accounted) (hfree : client.runners taskId = none) :
    (client.enlist taskId input).Accounted := by
  intro other held
  unfold enlist
  dsimp only
  rw [Function.update_apply, Table.insert_apply]
  have hnext : ∀ taskId, client.runners taskId ≠ some client.objects.next := by
    intro taskId hheld
    obtain ⟨runner, hrow, -⟩ := (hclient _ _).mp hheld
    rw [client.objects.fresh _ le_rfl] at hrow
    cases hrow
  by_cases hnew : held = client.objects.next
  · subst hnew
    rw [if_pos rfl]
    constructor
    · intro hheld
      split at hheld
      · next heq => exact ⟨_, rfl, heq.symm, rfl⟩
      · exact absurd hheld (hnext other)
    · simp only [Option.some.injEq, exists_eq_left']
      rintro ⟨rfl, -⟩
      exact if_pos rfl
  · rw [if_neg hnew]
    split
    · next heq =>
      subst heq
      refine ⟨fun hheld => absurd (Option.some.inj hheld).symm hnew, fun hopen => ?_⟩
      rw [← hclient, hfree] at hopen
      cases hopen
    · exact hclient other held

/-- **Every step keeps the account.** -/
theorem accounted_step (hclient : client.Accounted) :
    (client.daemonStep detectors action).1.Accounted := by
  have hcalls := daemonStep_calls detectors client action
  generalize client.daemonStep detectors action = next at hcalls
  cases hcalls with
  | idle hrunners hobjects hkills =>
      unfold Accounted
      rw [hrunners, hobjects]
      exact hclient
  | starts hfree =>
      exact accounted_react (accounted_enlist hclient hfree) enlist_new
        (TaskRunner.start_orderly _).taskId (TaskRunner.start_exit _)
  | kills hmessage hheld hrow =>
      exact accounted_react hclient hrow TaskRunner.kill_orderly.taskId (.inr TaskRunner.kill_stays)
  | approves hheld hrow =>
      exact accounted_react hclient hrow (TaskRunner.decide_orderly true).taskId
        (.inr (TaskRunner.decide_stays true))
  | child hrow =>
      exact accounted_react hclient hrow (TaskRunner.onChildEvent_orderly _).taskId
        (TaskRunner.onChildEvent_exit _)

/-- The accounts hold in all that a daemon can reach. -/
theorem accounted_exec (apiKey : JsString) (actions : List DaemonAction) :
    ((daemonMachine detectors).exec (initial apiKey) actions).Accounted := by
  induction actions using List.reverseRecOn with
  | nil =>
      intro taskId serial
      constructor
      · intro hheld
        cases hheld
      · rintro ⟨runner, hrow, -⟩
        cases hrow
  | append_singleton actions action ih =>
      rw [Machine.exec_append]
      exact accounted_step ih

/-- **What a step reports of a runner**: one result at most, when it handles its exit,
which stays handled. -/
structure Reports (client : DaemonClient) (serial : ℕ) (next : DaemonClient × List RunnerEvent) :
    Prop where
  once : next.2.countP (reportOf serial) ≤ 1
  ends : next.2.countP (reportOf serial) ≠ 0 → ¬client.Ended serial ∧ next.1.Ended serial
  keeps : client.Ended serial → next.1.Ended serial

/-- The results in the events of a reaction are those among its effects. -/
theorem react_reports : (client.react serial reaction).2.countP (reportOf other) =
    if other = serial then reaction.2.countP fun
      | .emit (.TASK_RESULT _) => true
      | _ => false
    else 0 := by
  change (reaction.2.filterMap (eventOf serial reaction.1.taskId)).countP _ = _
  rw [List.countP_filterMap]
  split
  · next heq =>
    subst heq
    refine List.countP_congr fun effect _ => ?_
    unfold eventOf
    split <;> simp_all [reportOf]
  · next hne =>
    refine List.countP_eq_zero.mpr fun effect _ => ?_
    unfold eventOf
    split <;> simp [reportOf, Ne.symm hne]

/-- A reaction reports at most one result, and only by handling the exit. -/
theorem reports_react (hrow : client.objects serial = some runner)
    (hexit : runner.Exits reaction ∨ runner.Stays reaction) :
    client.Reports other (client.react serial reaction) := by
  -- only the runner that reacts is marked by what it does
  have hended : (client.react serial reaction).1.Ended other ↔
      if other = serial then reaction.1.exitHandled = true else client.Ended other := by
    unfold Ended
    rw [react_objects]
    simp only [Table.modify_apply]
    split
    · simp [hrow]
    · rfl
  have hbefore : client.Ended serial ↔ runner.exitHandled = true := by
    unfold Ended
    simp [hrow]
  rcases hexit with hexits | hstays
  · -- at an exit the runner reports one result at most
    have hone : reaction.2.countP (fun
        | .emit (.TASK_RESULT _) => true
        | _ => false) ≤ 1 := by
      rcases hexits.effects with heffects | ⟨payload, heffects⟩ <;> simp [heffects]
    refine ⟨?_, ?_, ?_⟩
    · rw [react_reports]
      split
      · exact hone
      · exact Nat.zero_le 1
    · rw [react_reports, hended]
      split
      · next heq =>
        subst heq
        exact fun _ => ⟨fun h => absurd (hbefore.mp h) (by simp [hexits.before]), hexits.after⟩
      · exact fun h => absurd rfl h
    · rw [hended]
      split
      · exact fun _ => hexits.after
      · exact id
  · -- otherwise it reports none
    have hzero : (client.react serial reaction).2.countP (reportOf other) = 0 := by
      rw [react_reports]
      split
      · refine List.countP_eq_zero.mpr fun effect hmem => ?_
        split
        · next payload => exact absurd hmem (hstays.results payload)
        · exact Bool.false_ne_true
      · rfl
    refine ⟨hzero.le.trans (Nat.zero_le 1), fun h => absurd hzero h, ?_⟩
    rw [hended]
    split
    · next heq =>
      subst heq
      rw [hbefore, hstays.handled]
      exact id
    · exact id

/-- Every step of a daemon, by its kind. -/
theorem reports_step (serial : ℕ) :
    client.Reports serial (client.daemonStep detectors action) := by
  have hcalls := daemonStep_calls detectors client action
  generalize client.daemonStep detectors action = next at hcalls
  cases hcalls with
  | idle hrunners hobjects hkills =>
      refine ⟨Nat.zero_le 1, fun h => absurd rfl h, fun hended => ?_⟩
      unfold Ended
      rw [hobjects]
      exact hended
  | @starts taskId input outcome hfree =>
      have hended : (client.enlist taskId input).Ended serial ↔ client.Ended serial := by
        unfold Ended enlist
        simp only [Table.insert_apply]
        split
        · next heq =>
          subst heq
          rw [client.objects.fresh _ le_rfl]
          simp [TaskRunner.create]
        · rfl
      have hnew : (client.enlist taskId input).Reports serial _ :=
        reports_react enlist_new (@TaskRunner.start_exit detectors _ outcome)
      exact ⟨hnew.once, fun hsome => ⟨fun h => (hnew.ends hsome).1 (hended.mpr h),
        (hnew.ends hsome).2⟩, fun h => hnew.keeps (hended.mpr h)⟩
  | kills hmessage hheld hrow => exact reports_react hrow (.inr TaskRunner.kill_stays)
  | approves hheld hrow => exact reports_react hrow (.inr (TaskRunner.decide_stays true))
  | child hrow => exact reports_react hrow (TaskRunner.onChildEvent_exit _)

/-- A runner that reacts takes out of the map itself only. -/
theorem held_react (hclient : client.Accounted) (hrow : client.objects serial = some runner)
    (htask : reaction.1.taskId = runner.taskId)
    (hexit : runner.Exits reaction ∨ runner.Stays reaction)
    (hheld : client.runners taskId = some other) :
    (client.react serial reaction).1.runners taskId = some other ∨
      other = serial ∧ reaction.1.exitHandled = true := by
  rcases hexit with hexits | hstays
  · rw [react_leaves hexits, Function.update_apply, htask]
    split
    · next heq =>
      have hself : client.runners taskId = some serial :=
        (hclient _ _).mpr ⟨runner, hrow, heq.symm, hexits.before⟩
      rw [hheld] at hself
      exact .inr ⟨Option.some.inj hself, hexits.after⟩
    · exact .inl hheld
  · rw [react_stays hstays.dropTask]
    exact .inl hheld

/-- **A runner leaves the map in an event of its own child**, by handling its exit. -/
theorem held_step (hclient : client.Accounted) (hheld : client.runners taskId = some serial) :
    (client.daemonStep detectors action).1.runners taskId = some serial ∨
      (∃ event, action = .child serial event) ∧
        (client.daemonStep detectors action).1.Ended serial := by
  have hcalls := daemonStep_calls detectors client action
  generalize client.daemonStep detectors action = next at hcalls
  cases hcalls with
  | idle hrunners hobjects hkills => exact .inl (hrunners ▸ hheld)
  | @starts new input outcome hfree =>
      have hne : taskId ≠ new := by
        rintro rfl
        rw [hfree] at hheld
        cases hheld
      have henlisted : (client.enlist new input).runners taskId = some serial :=
        (Function.update_of_ne hne _ _).trans hheld
      refine (held_react (accounted_enlist hclient hfree) enlist_new
        (TaskRunner.start_orderly outcome).taskId (TaskRunner.start_exit _)
        henlisted).imp_right ?_
      rintro ⟨rfl, -⟩
      obtain ⟨runner, hrow, -⟩ := (hclient _ _).mp hheld
      rw [client.objects.fresh _ le_rfl] at hrow
      cases hrow
  | kills hmessage hself hrow =>
      rw [react_stays TaskRunner.kill_stays.dropTask]
      exact .inl hheld
  | approves hself hrow =>
      rw [react_stays (TaskRunner.decide_stays true).dropTask]
      exact .inl hheld
  | @child held event runner hrow =>
      refine (held_react hclient hrow (TaskRunner.onChildEvent_orderly _).taskId
        (TaskRunner.onChildEvent_exit _) hheld).imp_right ?_
      rintro ⟨rfl, hended⟩
      refine ⟨⟨event, rfl⟩, _, ?_, hended⟩
      rw [react_objects, Table.modify_apply, if_pos rfl, hrow]
      rfl

/-- **One runner for a task, one result for a runner.**  After any actions: the map
holds for a task exactly the runner of it that has not handled its exit, so there
is one at most; a submit for a task in the map changes nothing and starts
nothing; a runner leaves the map in an event of its own child, by handling its
exit.  And along the actions every runner reports one result at most. -/
theorem one_runner_one_result (detectors : Detectors) (apiKey : JsString)
    (actions : List DaemonAction) :
    let client := (daemonMachine detectors).exec (initial apiKey) actions
    (∀ taskId serial, client.runners taskId = some serial ↔ ∃ runner,
      client.objects serial = some runner ∧ runner.taskId = taskId ∧
        runner.exitHandled = false) ∧
    (∀ taskId, (client.runners taskId).isSome → ∀ input outcome,
      client.daemonStep detectors (.message (.TASK_SUBMIT taskId input) outcome) = (client, [])) ∧
    (∀ taskId serial action, client.runners taskId = some serial →
      (client.daemonStep detectors action).1.runners taskId = some serial ∨
        (∃ event, action = .child serial event) ∧
          (client.daemonStep detectors action).1.Ended serial) ∧
    ∀ serial, (((daemonMachine detectors).visits (initial apiKey) actions).map
      (reportsAt detectors serial)).sum ≤ 1 := by
  intro client
  have haccounted : client.Accounted := accounted_exec apiKey actions
  refine ⟨haccounted, fun taskId hheld input outcome => if_pos hheld,
    fun taskId serial action hheld => held_step haccounted hheld, fun serial => ?_⟩
  · refine Machine.sum_visits_le_one (Q := fun client => ¬client.Ended serial) ?_ ?_ ?_
    · exact fun visit _ => (reports_step serial).once
    · exact fun visit _ hsome =>
        ⟨((reports_step serial).ends hsome).1, not_not.mpr ((reports_step serial).ends hsome).2⟩
    · exact fun visit _ => mt (reports_step serial).keeps

end DaemonClient

end CodeCaller
