import CodeCaller.Daemon.Client
import CodeCaller.Daemon.SpawnPlan

/-!
# Starting a task

`onTaskSubmit` enters a runner in the map before it builds the plan, and only `spawn` itself is
inside of the `try`.  `submit_settles_iff` says when every way a start can go leaves a child or a
reported failure.

What lies outside of the `try` is the plan, which throws for a prompt without a text and for a
template without a token, and `child.stdin.end()`, which throws for a child without streams.  Each
leaves an entry in the map without a child: the submit has thrown, nothing was reported, and a
second submit for the task is ignored, because it has a runner.

`startOutcome` puts the three together for a configuration, an input and what the operating system
does; `Startable` is the condition on them, and does not mention the client.
-/

namespace CodeCaller

open Async

/-- How `start` goes for a configuration, an input and what `spawn` does. -/
def startOutcome (config : RunnerConfig) (spawn : SpawnPlan → SpawnOutcome) (input : Json) :
    SpawnOutcome :=
  match buildSpawnPlan config input with
  | .error _ => .noPlan
  | .ok plan => spawn plan

/-- Whether `start` throws: outside of its `try` are the plan and `child.stdin.end()`. -/
def SpawnOutcome.escapes : SpawnOutcome → Bool
  | noPlan | noStreams => true
  | process | noProcess | threw _ => false

namespace DaemonClient

/-- A runner of the map that has a child. -/
def HasChild (client : DaemonClient) (taskId : TaskId) : Prop :=
  ∃ serial runner child, client.runners taskId = some serial ∧
    client.objects serial = some runner ∧ runner.child = some child

/-- A task without a runner, one more message than before, which reports the failure. -/
def Failed (before after : DaemonClient) (taskId : TaskId) : Prop :=
  after.runners taskId = none ∧
    ∃ (message : Outgoing) (failure : Option DaemonTaskFailurePayload) (reason : JsString),
      message.inbound =
        TaskRunner.resultOf taskId .FAILED failure [(js "error", .string reason)] ∧
      after.unsent.Perm (message :: before.unsent)

/-- **What is promised of a submit**: it returns, and there is a child or a failure. -/
structure Settles (detectors : Detectors) (outcome : SpawnOutcome) (taskId : TaskId)
    (input : Json) (client : DaemonClient) : Prop where
  returns : (client.runners taskId).isSome ∨ outcome.escapes = false
  settled : (client.onTaskSubmit detectors outcome taskId input).1.HasChild taskId ∨
    Failed client (client.onTaskSubmit detectors outcome taskId input).1 taskId

end DaemonClient

/-- The template has a token if it has a unit that is no space. -/
def HasToken (template : JsString) : Prop := ∃ ch ∈ template, isSpace ch = false

instance (template : JsString) : Decidable (HasToken template) :=
  inferInstanceAs (Decidable (∃ ch ∈ template, isSpace ch = false))

/-- **The condition**: the prompt is a text, direct mode has something to run, and the
process gets its streams. -/
def Startable (config : RunnerConfig) (spawn : SpawnPlan → SpawnOutcome) (input : Json) : Prop :=
  (promptText input).isOk = true ∧ (config.useShell = true ∨ HasToken config.commandTemplate) ∧
    ∀ plan, buildSpawnPlan config input = .ok plan → spawn plan ≠ .noStreams

/-! ## Plans -/

/-- A token that was begun is one of the tokens in the end. -/
theorem tokenizeFrom_ne_nil {current : JsString} (hcurrent : current ≠ []) :
    ∀ {rest : JsString} {inQuotes escaped : Bool},
      tokenizeFrom current inQuotes escaped rest ≠ [] := by
  intro rest
  induction rest generalizing current with
  | nil =>
      intro inQuotes escaped
      rw [tokenizeFrom, if_neg hcurrent]
      exact List.cons_ne_nil _ _
  | cons ch rest ih =>
      intro inQuotes escaped
      have hmore : current ++ [ch] ≠ [] := List.append_ne_nil_of_left_ne_nil hcurrent _
      rw [tokenizeFrom]
      split_ifs
      all_goals first | exact ih hmore | exact List.cons_ne_nil _ _

/-- **A template has no token exactly if it is blank.** -/
theorem tokenize_eq_nil_iff {template : JsString} :
    tokenize template = [] ↔ ¬HasToken template := by
  unfold tokenize HasToken
  induction template with
  | nil => simp [tokenizeFrom]
  | cons ch rest ih =>
      rw [tokenizeFrom, if_neg (by decide)]
      by_cases hspace : isSpace ch = true
      · have hplain : ch ≠ 92 ∧ ch ≠ 34 := by
          constructor <;> rintro rfl <;> exact absurd hspace (by decide)
        rw [if_neg hplain.1, if_neg hplain.2, if_pos (by simpa using hspace), if_pos rfl, ih]
        simp [hspace]
      · have hgo : tokenizeFrom ([] ++ [ch]) false true rest ≠ [] ∧
            tokenizeFrom ([] ++ [ch]) true false rest ≠ [] ∧
            tokenizeFrom ([] ++ [ch]) false false rest ≠ [] :=
          ⟨tokenizeFrom_ne_nil (by simp), tokenizeFrom_ne_nil (by simp),
            tokenizeFrom_ne_nil (by simp)⟩
        have hnot : ¬(isSpace ch && !false) = true := by simpa using hspace
        rw [if_neg hnot]
        refine iff_of_false ?_ fun hnone => hnone ⟨ch, List.mem_cons_self, by simpa using hspace⟩
        split_ifs
        · exact hgo.1
        · exact hgo.2.1
        · exact hgo.2.2

/-- **When there is a plan.** -/
theorem buildSpawnPlan_ok_iff {config : RunnerConfig} {input : Json} :
    (∃ plan, buildSpawnPlan config input = .ok plan) ↔
      (promptText input).isOk = true ∧
        (config.useShell = true ∨ HasToken config.commandTemplate) := by
  unfold buildSpawnPlan placeholders
  cases hprompt : promptText input with
  | error message => simp [Except.isOk, Except.toBool, bind, Except.bind]
  | ok prompt =>
      have htokens := @tokenize_eq_nil_iff config.commandTemplate
      cases hshell : config.useShell with
      | true => simp [Except.isOk, Except.toBool, bind, Except.bind, pure, Except.pure]
      | false =>
          cases hlist : tokenize config.commandTemplate with
          | nil =>
              simp [Except.isOk, Except.toBool, bind, Except.bind, pure, Except.pure,
                htokens.mp hlist, throw, throwThe, MonadExceptOf.throw]
          | cons command args =>
              have htoken : HasToken config.commandTemplate := by
                by_contra hnone
                rw [htokens.mpr hnone] at hlist
                cases hlist
              simp [Except.isOk, Except.toBool, bind, Except.bind, pure, Except.pure, htoken]

/-- What `startOutcome` escapes by. -/
theorem startOutcome_escapes {config : RunnerConfig} {spawn : SpawnPlan → SpawnOutcome}
    (hspawn : ∀ plan, spawn plan ≠ .noPlan) {input : Json} :
    (startOutcome config spawn input).escapes = false ↔ Startable config spawn input := by
  unfold startOutcome Startable
  rw [← and_assoc, ← buildSpawnPlan_ok_iff]
  cases hplan : buildSpawnPlan config input with
  | error message => simp [SpawnOutcome.escapes]
  | ok plan =>
      have hnot := hspawn plan
      cases hspawned : spawn plan with
      | noPlan => exact absurd hspawned hnot
      | noStreams => simp [SpawnOutcome.escapes, hspawned]
      | process => simp [SpawnOutcome.escapes, hspawned]
      | noProcess => simp [SpawnOutcome.escapes, hspawned]
      | threw message => simp [SpawnOutcome.escapes, hspawned]

namespace DaemonClient

section Submit

variable {detectors : Detectors} {outcome : SpawnOutcome} {taskId : TaskId} {input : Json}
  {client : DaemonClient}

/-- A message is handed to the socket or buffered. -/
theorem emit_unsent_perm (message : Outgoing) :
    (client.emit message).unsent.Perm (message :: client.unsent) := by
  unfold emit unsent outbox
  cases client.socket with
  | none =>
      rw [← List.append_assoc]
      exact List.perm_append_singleton _ _
  | some connection =>
      simp only [Option.map_some, Option.getD_some, List.append_assoc, List.singleton_append]
      exact List.perm_middle

/-- A new runner that has a child and says so is in the map. -/
theorem react_hasChild {runner : TaskRunner} {child : Child} (hchild : runner.child = some child)
    (inbound : DaemonInbound) :
    ((client.enlist taskId input).react client.objects.next (runner, [.emit inbound])).1.HasChild
      taskId := by
  refine ⟨client.objects.next, runner, child, ?_, ?_, hchild⟩
  · unfold react
    simp only [List.foldl_cons, List.foldl_nil, carryOut, emit_runners]
    exact Function.update_self ..
  · rw [react_objects, Table.modify_apply, if_pos rfl, enlist_new]
    rfl

/-- A new runner that cannot start reports it and is gone. -/
theorem finishFailed_failed (reason : JsString) :
    Failed client ((client.enlist taskId input).react client.objects.next
      ((TaskRunner.create taskId input).finishFailed detectors reason)).1 taskId := by
  refine ⟨Function.update_self .., ⟨some client.objects.next, _⟩,
    detectors.detectStructuredFailure none none reason, reason, rfl, ?_⟩
  exact emit_unsent_perm _

/-- **A start that returns has settled.** -/
theorem settles_of_returns (hplan : outcome.escapes = false)
    (hfree : client.runners taskId = none) :
    (client.onTaskSubmit detectors outcome taskId input).1.HasChild taskId ∨
      Failed client (client.onTaskSubmit detectors outcome taskId input).1 taskId := by
  have hnot : ¬(client.runners taskId).isSome = true := by
    rw [hfree]
    exact Bool.false_ne_true
  unfold onTaskSubmit
  rw [if_neg hnot]
  cases outcome with
  | process => exact .inl (react_hasChild rfl _)
  | noProcess => exact .inl (react_hasChild rfl _)
  | threw message => exact .inr (finishFailed_failed _)
  | noStreams => cases hplan
  | noPlan => cases hplan

end Submit

end DaemonClient

/-- **A submit settles exactly if its task has a runner with a child, or has none and can be
started.** -/
theorem submit_settles_iff (detectors : Detectors) (config : RunnerConfig)
    (spawn : SpawnPlan → SpawnOutcome) (hspawn : ∀ plan, spawn plan ≠ .noPlan) (taskId : TaskId)
    (input : Json) (client : DaemonClient) :
    client.Settles detectors (startOutcome config spawn input) taskId input ↔
      client.HasChild taskId ∨ client.runners taskId = none ∧ Startable config spawn input := by
  rw [← startOutcome_escapes hspawn]
  cases hheld : client.runners taskId with
  | none =>
      have hnone : ¬client.HasChild taskId := by
        rintro ⟨serial, runner, child, hsome, -⟩
        rw [hheld] at hsome
        cases hsome
      constructor
      · intro h
        refine .inr ⟨rfl, h.returns.resolve_left ?_⟩
        rw [hheld]
        exact Bool.false_ne_true
      · intro h
        have hplan := (h.resolve_left hnone).2
        exact ⟨.inr hplan, DaemonClient.settles_of_returns hplan hheld⟩
  | some serial =>
      have hsome : (client.runners taskId).isSome := Option.isSome_of_eq_some hheld
      have hsame : client.onTaskSubmit detectors (startOutcome config spawn input) taskId input =
          (client, []) := if_pos hsome
      constructor
      · intro h
        refine .inl (h.settled.elim (fun hchild => ?_) fun hfailed => ?_)
        · rwa [hsame] at hchild
        · rw [hsame] at hfailed
          have hgone := hheld.symm.trans hfailed.1
          cases hgone
      · rintro (hchild | ⟨hfree, -⟩)
        · refine ⟨.inl hsome, .inl ?_⟩
          rw [hsame]
          exact hchild
        · cases hfree

/-! ## Starts of a daemon -/

/-- Detectors that see nothing. -/
def quietDetectors : Detectors := ⟨fun _ => none, fun _ _ _ => none⟩

/-- The configuration of an environment with a template, in direct mode. -/
def configOf (template : JsString) : RunnerConfig :=
  .ofEnv (fun name => if name = js "CODEX_COMMAND_TEMPLATE" then some template else none) (js "/")

/-- An operating system that starts every process. -/
def spawnsAll (_ : SpawnPlan) : SpawnOutcome := .process

/-- The default template with a prompt. -/
theorem submit_settles_prompt :
    (DaemonClient.initial (js "a")).Settles quietDetectors
      (startOutcome (configOf DEFAULT_COMMAND_TEMPLATE) spawnsAll
        (.object [(js "prompt", .string (js "fix it"))])) 0
      (.object [(js "prompt", .string (js "fix it"))]) := by
  have hspawn : ∀ plan, spawnsAll plan ≠ .noPlan := fun plan => nofun
  refine (submit_settles_iff quietDetectors (configOf DEFAULT_COMMAND_TEMPLATE) spawnsAll hspawn 0
    _ _).mpr (.inr ⟨rfl, rfl, .inr ?_, fun plan _ => nofun⟩)
  decide

/-- A template of one space is accepted, and leaves an entry without a child: the submit
throws, reports nothing, and a second one is ignored. -/
theorem submit_blank_template :
    let outcome := startOutcome (configOf (js " ")) spawnsAll sampleInput
    let client := (DaemonClient.initial (js "a")).onTaskSubmit quietDetectors outcome 0 sampleInput
    ¬(DaemonClient.initial (js "a")).Settles quietDetectors outcome 0 sampleInput ∧
      outcome = .noPlan ∧ (client.1.runnerOf 0).map (·.child) = some none ∧
      client.1.unsent.length = 0 ∧
      ∀ spawned input, client.1.onTaskSubmit quietDetectors spawned 0 input = (client.1, []) := by
  have houtcome : startOutcome (configOf (js " ")) spawnsAll sampleInput = .noPlan := by
    have htokens : tokenize (configOf (js " ")).commandTemplate = [] := by decide
    have hshell : (configOf (js " ")).useShell = false := by decide
    unfold startOutcome buildSpawnPlan
    rw [htokens, hshell]
    rfl
  dsimp only
  rw [houtcome]
  refine ⟨fun h => ?_, rfl, rfl, rfl, fun spawned input => rfl⟩
  exact absurd h.returns (by decide)

end CodeCaller
