import CodeCaller.Hub.Nodes

/-!
# Who writes the logs of a task

Four calls append to the logs of a task, and all of them in the same way: the row is read, and
later the logs are set to what was read and a text.  `LogMove` is that protocol; each of the calls
follows it, a log message with its chunk and the Hub's own writes with one line of the Hub.

The rest of the pool is relied on for little: tasks, their servers and attempts are not deleted.

### The pieces

* `Silent`: a node that leaves the logs of the task alone.  Most nodes of most calls are, and
  `silent_follows` passes over them.
* `LogPhase`: what a call has done with the logs: it has not read them yet, holds them as it read
  them, or has written.
* `taskLog_follows`, `capacityFailure_follows`, `processDispatch_follows`, `watchdog_follows`: the
  four writers.

A scan is the one that reads the logs of all tasks at once and writes them one after the other; in
its loop the row of the task comes once, since the rows were read by key.
-/

namespace CodeCaller

open Async

/-- The logs of a task. -/
def Hub.logsOf (h : Hub) (taskId : TaskId) : Option JsString := (h.tasks taskId).map (·.logs)

/-- The task stays with a server, and attempts stay. -/
structure Steady (taskId : TaskId) (h h' : Hub) : Prop where
  home : (h.taskWithServer taskId).isSome = true → (h'.taskWithServer taskId).isSome = true
  attempts : ∀ id, (h.attempts id).isSome = true → (h'.attempts id).isSome = true

/-- Nothing is lost. -/
theorem Steady.refl (taskId : TaskId) (h : Hub) : Steady taskId h h := ⟨fun h => h, fun _ h => h⟩

/-- What is stored after all is what was stored all along. -/
theorem Steady.trans {taskId : TaskId} {h₁ h₂ h₃ : Hub} (h₁₂ : Steady taskId h₁ h₂)
    (h₂₃ : Steady taskId h₂ h₃) : Steady taskId h₁ h₃ :=
  ⟨fun h => h₂₃.home (h₁₂.home h), fun id h => h₂₃.attempts id (h₁₂.attempts id h)⟩

/-- The logs of the task stay as well. -/
structure Silent (taskId : TaskId) (h h' : Hub) : Prop extends Steady taskId h h' where
  logs : h'.logsOf taskId = h.logsOf taskId

/-- Doing nothing is silent. -/
theorem Silent.refl (taskId : TaskId) (h : Hub) : Silent taskId h h := ⟨Steady.refl taskId h, rfl⟩

/-- Two silent steps are one. -/
theorem Silent.trans {taskId : TaskId} {h₁ h₂ h₃ : Hub} (h₁₂ : Silent taskId h₁ h₂)
    (h₂₃ : Silent taskId h₂ h₃) : Silent taskId h₁ h₃ :=
  ⟨h₁₂.toSteady.trans h₂₃.toSteady, h₂₃.logs.trans h₁₂.logs⟩

/-! ## The protocol -/

/-- What a call has done with the logs: `before n` when it has run `n` nodes and
has not read them. -/
inductive LogPhase where
  | before (n : ℕ)
  | holding (logs : Option JsString)
  | wrote
deriving DecidableEq

/-- **The steps of a call that reads the logs at its node `k`** and may once set
them to what it read and a text of `T`. -/
inductive LogMove (k : ℕ) (T : JsString → Prop) (taskId : TaskId) :
    LogPhase → (Hub → Hub) → Hub → LogPhase → Prop where
  | wait {n : ℕ} {update : Hub → Hub} {h : Hub} (hn : n ≠ k)
      (hsilent : ∀ s, Silent taskId s (update s)) :
      LogMove k T taskId (.before n) update h (.before (n + 1))
  | read {update : Hub → Hub} {h : Hub} (hsilent : ∀ s, Silent taskId s (update s)) :
      LogMove k T taskId (.before k) update h (.holding (h.logsOf taskId))
  | keep {logs : Option JsString} {update : Hub → Hub} {h : Hub}
      (hsilent : ∀ s, Silent taskId s (update s)) :
      LogMove k T taskId (.holding logs) update h (.holding logs)
  | write {logs text : JsString} {update : Hub → Hub} {h : Hub} (htext : T text)
      (hsteady : ∀ s, Steady taskId s (update s))
      (hlogs : ∀ s, (s.tasks taskId).isSome = true →
        (update s).logsOf taskId = some (logs ++ text)) :
      LogMove k T taskId (.holding (some logs)) update h .wrote
  | done {update : Hub → Hub} {h : Hub} (hsilent : ∀ s, Silent taskId s (update s)) :
      LogMove k T taskId .wrote update h .wrote

section Moves

variable {env : Env} {h : Hub} {taskId : TaskId} {k : ℕ} {T : JsString → Prop} {a : LogPhase}
  {α : Type} {update : Hub → Hub}

/-- Whatever a call does to the logs, the task stays where it is. -/
theorem LogMove.steady {a' : LogPhase} (hmove : LogMove k T taskId a update h a') :
    Steady taskId h (update h) := by
  cases hmove with
  | wait _ hsilent => exact (hsilent h).toSteady
  | read hsilent => exact (hsilent h).toSteady
  | keep hsilent => exact (hsilent h).toSteady
  | write _ hsteady => exact hsteady h
  | done hsilent => exact (hsilent h).toSteady

/-- A program that leaves the logs alone stays in its phase. -/
theorem silent_follows {p : HubM α} {post : LogPhase → Hub → Except HubError α → Prop}
    (hp : p.Guarantees (Silent taskId)) (ha : ∀ n, a ≠ .before n)
    (hpost : ∀ s outcome, Steady taskId h s → post a s outcome) :
    p.Follows (Steady taskId) (LogMove k T taskId) post a h := by
  refine hp.follows (@Steady.trans taskId)
    (fun update hsilent s => ⟨?_, (hsilent s).toSteady⟩) hpost
  cases a with
  | before n => exact absurd rfl (ha n)
  | holding logs => exact .keep hsilent
  | wrote => exact .done hsilent

/-! ## Silent nodes -/

/-- Who leaves the rows alone is silent. -/
theorem Silent.of_quiet (h h' : Hub) (hquiet : Quiet h h') : Silent taskId h h' := by
  have htasks : h'.tasks = h.tasks := congrArg Rows.tasks hquiet
  have hservers : h'.servers = h.servers := congrArg Rows.servers hquiet
  have hattempts : h'.attempts = h.attempts := congrArg Rows.attempts hquiet
  constructor
  · constructor
    · unfold Hub.taskWithServer
      rw [htasks, hservers]
      exact fun h => h
    · rw [hattempts]
      exact fun _ h => h
  · unfold Hub.logsOf
    rw [htasks]

/-- Attempts have no text, -/
theorem Silent.attempt (h : Hub) (id : TaskAttemptId) (f : TaskAttempt → TaskAttempt) :
    Silent taskId h { h with attempts := h.attempts.modify id f } where
  home h := h
  attempts other hother := by
    rw [Table.isSome_modify]
    exact hother
  logs := rfl

/-- new ones neither. -/
theorem Silent.attemptInserted (h : Hub) (attempt : TaskAttempt) (reads : ℕ) :
    Silent taskId h { h with attempts := h.attempts.insert attempt, reads } where
  home h := h
  attempts id hid := by
    change (h.attempts.insert attempt id).isSome = true
    rw [Table.insert_apply]
    split
    · rfl
    · exact hid
  logs := rfl

/-- An update of a task that is moved to a server that is there, if at all. -/
theorem Steady.task {other : TaskId} {task : Task} {f : Task → Task} {reads : ℕ}
    (hrow : h.tasks other = some task)
    (hserver : (f task).serverId = task.serverId ∨ h.servers (f task).serverId ≠ none) :
    Steady taskId h { h with tasks := h.tasks.modify other f, reads } where
  home hhome := by
    unfold Hub.taskWithServer at hhome ⊢
    dsimp only
    rw [Table.modify_apply]
    by_cases heq : taskId = other
    · subst heq
      rw [hrow, Option.bind_some, Option.isSome_map] at hhome
      rw [if_pos rfl, hrow, Option.map_some, Option.bind_some, Option.isSome_map]
      rcases hserver with hsame | hstored
      · rw [hsame]
        exact hhome
      · exact Option.isSome_iff_ne_none.mpr hstored
    · rw [if_neg heq]
      exact hhome
  attempts _ h := h

/-- An update of a task is silent if it is of another one, or keeps the text. -/
theorem Silent.task {other : TaskId} {task : Task} {f : Task → Task} {reads : ℕ}
    (hrow : h.tasks other = some task)
    (hserver : (f task).serverId = task.serverId ∨ h.servers (f task).serverId ≠ none)
    (hlogs : other ≠ taskId ∨ (f task).logs = task.logs) :
    Silent taskId h { h with tasks := h.tasks.modify other f, reads } where
  toSteady := .task hrow hserver
  logs := by
    unfold Hub.logsOf
    dsimp only
    rw [Table.modify_apply]
    split
    · next heq =>
      subst heq
      rw [hrow, Option.map_some, Option.map_some]
      exact congrArg some (hlogs.resolve_left fun hne => hne rfl)
    · rfl

/-- An update that keeps the logs, or of another task. -/
theorem taskUpdate_silent {other : TaskId} {f : Task → Task}
    (hlogs : other ≠ taskId ∨ ∀ row, (f row).logs = row.logs) :
    (Prisma.taskUpdate env other f).Guarantees (Silent taskId) :=
  taskUpdate_guarantees Silent.of_quiet fun _ task _ _ hrow hserver =>
    .task hrow hserver (hlogs.imp_right fun h => h task)

/-- So the first half of a handler is silent, -/
theorem touchRunningAttempt_silent {ref : TaskRef} :
    (TasksService.touchRunningAttempt env ref).Guarantees (Silent taskId) :=
  touchRunningAttempt_guarantees Silent.of_quiet Silent.attempt

/-- that of a result too, -/
theorem finishRunningAttempt_silent {ref : TaskRef} {status : TaskAttemptStatus}
    {reason : Option JsString} :
    (TasksService.finishRunningAttempt env ref status reason).Guarantees (Silent taskId) :=
  finishRunningAttempt_guarantees Silent.of_quiet Silent.attempt

/-- A job is no log. -/
theorem enqueueDispatch_silent {other : TaskId} :
    (enqueueDispatch other).Guarantees (Silent taskId) :=
  enqueueDispatch_guarantees fun _ => ⟨⟨fun h => h, fun _ h => h⟩, rfl⟩

/-- and so is the status, which is written without the text. -/
theorem updateStatus_silent {ref : TaskRef} {status : StatusRef} {result : Option Json} :
    (TasksService.updateStatus env ref status result).Guarantees (Silent taskId) := by
  refine updateStatus_guarantees Silent.of_quiet fun h other f reads _ hf => ?_
  cases hrow : h.tasks other with
  | none =>
      rw [Table.modify_of_none hrow]
      exact Silent.of_quiet _ _ rfl
  | some task => exact .task hrow (.inl (hf task).1) (.inr (hf task).2.1)

/-- A pass over the candidates moves the task, and says nothing about it. -/
theorem dispatchLoop_silent {other : TaskId} {input : Json}
    {candidates : List WorkerDispatchCandidate} {failures : List JsString} :
    (TasksProcessor.dispatchLoop env other input candidates failures).Guarantees
      (Silent taskId) := by
  refine dispatchLoop_guarantees Silent.of_quiet (fun h attempt reads _ => .attemptInserted h _ _)
    Silent.attempt (fun h serverId reads date hstored hserver => ?_)
    fun h _ => ⟨⟨fun h => h, fun _ h => h⟩, rfl⟩
  obtain ⟨task, hrow⟩ := Option.isSome_iff_exists.mp hstored
  exact .task hrow (hserver.imp_left fun h => (h task hrow).symm) (.inr rfl)

/-- A task with a server is stored. -/
theorem stored_of_home (hhome : (h.taskWithServer taskId).isSome = true) :
    ∃ task, h.tasks taskId = some task := by
  obtain ⟨⟨task, server⟩, hfound⟩ := Option.isSome_iff_exists.mp hhome
  exact ⟨task, (taskWithServer_some hfound).1⟩

/-! ## The calls -/

/-- The update that sets the logs to what was read and a text. -/
theorem taskUpdate_follows {logs text full : JsString} {f : Task → Task}
    {post : LogPhase → Hub → Except HubError Task → Prop} (hfull : full = logs ++ text)
    (htext : T text) (hf : ∀ row, (f row).logs = full ∧ (f row).serverId = row.serverId)
    (hhome : (h.taskWithServer taskId).isSome = true)
    (hpost : ∀ s row, Steady taskId h s → post .wrote s (.ok row)) :
    (Prisma.taskUpdate env taskId f).Follows (Steady taskId) (LogMove k T taskId) post
      (.holding (some logs)) h := by
  have hsteady : ∀ s, Steady taskId s ((Prisma.taskUpdate env taskId f).run s).2 := by
    intro s
    cases hrow : s.tasks taskId with
    | none =>
        rw [taskUpdate_run_none hrow]
        exact Steady.refl taskId s
    | some task =>
        rw [taskUpdate_run hrow (hf task).2]
        exact .task hrow (.inl (hf task).2)
  refine Proc.follows_atomically_run fun s hs => ?_
  obtain ⟨task, hrow⟩ := stored_of_home (hs.home hhome)
  refine ⟨.wrote, _, _, taskUpdate_run hrow (hf task).2, .write htext hsteady ?_, ?_⟩
  · intro s hstored
    obtain ⟨task, hrow⟩ := Option.isSome_iff_exists.mp hstored
    change ((Prisma.taskUpdate env taskId f).run s).2.logsOf taskId = _
    rw [taskUpdate_run hrow (hf task).2]
    unfold Hub.logsOf
    dsimp only
    rw [Table.modify_apply, if_pos rfl, hrow, Option.map_some, Option.map_some]
    exact congrArg some ((hf task).1.trans hfull)
  · intro t ht
    have hrun := hsteady s
    rw [taskUpdate_run hrow (hf task).2] at hrun
    exact hpost t _ (hs.trans (hrun.trans ht))

/-- `touchRunningAttempt` does not throw: the attempt it found stays. -/
theorem touchRunningAttempt_follows {logs : Option JsString} {other : TaskId}
    {post : LogPhase → Hub → Except HubError Unit → Prop}
    (hpost : ∀ s, Steady taskId h s → post (.holding logs) s (.ok ())) :
    (TasksService.touchRunningAttempt env (.id other)).Follows (Steady taskId)
      (LogMove k T taskId) post (.holding logs) h := by
  refine .bind (Steady.refl taskId) (Proc.follows_read fun s₁ h₁ =>
    ⟨_, .keep (Silent.refl taskId), fun s₂ h₂ => ?_⟩)
  cases hfound : latestActive env s₁.attempts (fun other' => other' == other) with
  | none => exact Proc.follows_pure fun s₃ h₃ => hpost s₃ (h₁.trans (h₂.trans h₃))
  | some found =>
      obtain ⟨id, attempt⟩ := found
      refine .bind (Steady.refl taskId) (Proc.follows_take fun s₃ h₃ =>
        ⟨_, .keep fun s => Silent.of_quiet _ _ rfl, fun s₄ h₄ => ?_⟩)
      have hquiet₃ : Steady taskId s₃ { s₃ with reads := s₃.reads + 1 } :=
        (Silent.of_quiet s₃ { s₃ with reads := s₃.reads + 1 } rfl).toSteady
      refine Proc.follows_atomically_run fun s₅ h₅ => ?_
      have hstored : (s₁.attempts id).isSome = true := by
        rw [(latestActive_some hfound).1]
        rfl
      have h₁₅ : Steady taskId s₁ s₅ := h₂.trans (h₃.trans (hquiet₃.trans (h₄.trans h₅)))
      obtain ⟨row, hrow⟩ := Option.isSome_iff_exists.mp (h₁₅.attempts id hstored)
      refine ⟨_, _, _, attemptUpdate_run hrow, .keep fun s => ?_, fun s₆ h₆ => ?_⟩
      · exact (attemptUpdate_guarantees Silent.of_quiet fun h => Silent.attempt h id _).run
          (Silent.refl taskId) (@Silent.trans taskId) s
      · exact hpost s₆ (h₁.trans (h₁₅.trans ((Silent.attempt s₅ id _).toSteady.trans h₆)))

/-- **A log message** writes its chunk. -/
theorem taskLog_follows {socketId : ℕ} {payload : DaemonTaskLogPayload}
    (hid : payload.taskId = .id taskId) (hhome : (h.taskWithServer taskId).isSome = true) :
    (perform env (.message socketId (.TASK_LOG payload))).Follows (Steady taskId)
      (LogMove 0 (· = payload.chunk) taskId) (fun a _ _ => a = .wrote) (.before 0) h := by
  have hrefl := Steady.refl taskId
  refine .bind hrefl (p := TasksService.handleDaemonTaskLog env payload) ?_
  unfold TasksService.handleDaemonTaskLog
  rw [hid]
  refine .bind hrefl (Proc.follows_pure fun s₀ h₀ => ?_)
  refine .bind hrefl (Proc.follows_read fun s₁ h₁ => ⟨_, .read (Silent.refl taskId),
    fun s₂ h₂ => ?_⟩)
  have hhome₁ := (h₀.trans h₁).home hhome
  obtain ⟨⟨task, server⟩, hfound⟩ := Option.isSome_iff_exists.mp hhome₁
  have hlogs : s₁.logsOf taskId = some task.logs := by
    unfold Hub.logsOf
    rw [(taskWithServer_some hfound).1]
    rfl
  rw [hfound, hlogs]
  refine .bind hrefl (touchRunningAttempt_follows fun s₃ h₃ => ?_)
  refine .bind hrefl (taskUpdate_follows rfl rfl (fun row => ⟨rfl, rfl⟩)
    ((h₂.trans h₃).home hhome₁) fun s₄ row _ => ?_)
  refine Proc.follows_modify fun s₅ _ => ⟨.wrote, .done fun s => Silent.of_quiet _ _ rfl,
    fun s₆ _ => Proc.follows_pure fun s₇ _ => rfl⟩

/-- **A line of the Hub** in the logs of a task. -/
def HubLine (text : JsString) : Prop := text.startsWith (js "\n[hub] ") = true

/-- A line that goes on is a line of the Hub still. -/
theorem HubLine.of_append {line rest : JsString} (h : HubLine line) : HubLine (line ++ rest) :=
  JsString.startsWith_append_right rest h

/-- What the logs are set to, where it starts with what was read and a line of the
Hub. -/
theorem exists_line {logs line full : JsString} (hfull : logs ++ line <+: full)
    (hline : HubLine line) : ∃ text, full = logs ++ text ∧ HubLine text := by
  obtain ⟨rest, rfl⟩ := hfull
  exact ⟨line ++ rest, List.append_assoc _ _ _, hline.of_append⟩

/-- The update of the logs by what was read and a line of the Hub. -/
theorem taskUpdate_hubLine (line : JsString) {logs full : JsString} {f : Task → Task}
    {post : LogPhase → Hub → Except HubError Task → Prop}
    (hf : ∀ row, (f row).logs = full ∧ (f row).serverId = row.serverId)
    (hfull : logs ++ line <+: full) (hline : HubLine line)
    (hhome : (h.taskWithServer taskId).isSome = true)
    (hpost : ∀ s row, Steady taskId h s → post .wrote s (.ok row)) :
    (Prisma.taskUpdate env taskId f).Follows (Steady taskId) (LogMove k HubLine taskId) post
      (.holding (some logs)) h := by
  obtain ⟨text, htext, hline⟩ := exists_line hfull hline
  exact taskUpdate_follows htext hline hf hhome hpost

/-- `updateTaskAndNotify` with a line of the Hub. -/
theorem updateTaskAndNotify_follows {logs line full : JsString} {status : TaskStatus}
    {result : Option Json} {post : LogPhase → Hub → Except HubError (Task × Server) → Prop}
    (hfull : logs ++ line <+: full) (hline : HubLine line)
    (hhome : (h.taskWithServer taskId).isSome = true)
    (hpost : ∀ s outcome, post .wrote s outcome) :
    (TasksService.updateTaskAndNotify env taskId status result full).Follows (Steady taskId)
      (LogMove k HubLine taskId) post (.holding (some logs)) h := by
  unfold TasksService.updateTaskAndNotify
  refine .bind (Steady.refl taskId) (taskUpdate_hubLine line (fun row => ⟨rfl, rfl⟩) hfull hline
    hhome fun s row _ => ?_)
  refine silent_follows (Proc.Guarantees.mono Silent.of_quiet ?_) nofun fun s outcome _ =>
    hpost s outcome
  exact (serverOf_quiet row).bind fun server => (notifyUser_quiet _ _).bind fun _ =>
    Proc.guarantees_pure _

/-- **A capacity failure** may write one line of the Hub. -/
theorem capacityFailure_follows {payload : DaemonTaskResultPayload}
    (hid : payload.taskId = .id taskId) (hhome : (h.taskWithServer taskId).isSome = true) :
    (TasksService.handleRetryableCapacityFailure env payload).Follows (Steady taskId)
      (LogMove 0 HubLine taskId) (fun _ _ _ => True) (.before 0) h := by
  have hrefl := Steady.refl taskId
  unfold TasksService.handleRetryableCapacityFailure
  rw [hid]
  refine .bind hrefl (Proc.follows_pure fun s₀ h₀ => ?_)
  refine .bind hrefl (Proc.follows_read fun s₁ h₁ => ⟨_, .read (Silent.refl taskId),
    fun s₂ h₂ => ?_⟩)
  have hhome₁ := (h₀.trans h₁).home hhome
  obtain ⟨⟨task, server⟩, hfound⟩ := Option.isSome_iff_exists.mp hhome₁
  have hlogs : s₁.logsOf taskId = some task.logs := by
    unfold Hub.logsOf
    rw [(taskWithServer_some hfound).1]
    rfl
  rw [hfound, hlogs]
  -- what comes between the read and the write is silent
  refine .bind hrefl (silent_follows finishRunningAttempt_silent nofun fun s₃ outcome h₃ => ?_)
  cases outcome with
  | error error => trivial
  | ok _ =>
    refine .bind hrefl (silent_follows ((retryExcludedServerIds_quiet taskId).mono Silent.of_quiet)
      nofun fun s₄ outcome h₄ => ?_)
    cases outcome with
    | error error => trivial
    | ok excluded =>
      refine .bind hrefl (silent_follows ((getDispatchCandidates_quiet _ _ _).mono
        Silent.of_quiet) nofun fun s₅ outcome h₅ => ?_)
      cases outcome with
      | error error => trivial
      | ok candidates =>
        have hhome₅ := (h₂.trans (h₃.trans (h₄.trans h₅))).home hhome₁
        -- both paths write the line after the logs of the read
        have hline : HubLine (js "\n[hub] Retryable capacity failure from server " ++
            JsString.ofNat task.serverId ++ js ": " ++
            (payload.failure.bind (·.message)).getD (js "capacity exhausted") ++ js "\n") :=
          .of_append (.of_append (.of_append (.of_append rfl)))
        cases candidates with
        | nil =>
            refine .bind hrefl (updateTaskAndNotify_follows (List.prefix_append _ _) hline hhome₅
              fun s outcome => ?_)
            cases outcome with
            | error error => trivial
            | ok updated =>
                exact silent_follows ((sendPush_quiet _ _ _).mono Silent.of_quiet) nofun
                  fun _ _ _ => trivial
        | cons first rest =>
            refine .bind hrefl (updateTaskAndNotify_follows ?_ hline hhome₅ fun s outcome => ?_)
            · simp only [List.append_assoc, List.prefix_append_right_inj, List.prefix_append]
            cases outcome with
            | error error => trivial
            | ok updated => exact silent_follows enqueueDispatch_silent nofun fun _ _ _ => trivial

/-- The phases a dispatch job ends in: without a task it has read nothing. -/
def Dispatching (a : LogPhase) : Prop := a = .before 1 ∨ ∀ n, a ≠ .before n

/-- The logs of a row that was read, where it is the row of the task. -/
theorem logsOf_of_row {other : TaskId} {task : Task} (hrow : h.tasks other = some task)
    (heq : other = taskId) : h.logsOf taskId = some task.logs := by
  unfold Hub.logsOf
  rw [← heq, hrow]
  rfl

/-- The update of the logs by a call that may hold another task. -/
theorem taskUpdate_line {other : TaskId} {logs line full : JsString} {held : Option JsString}
    {f : Task → Task} {post : LogPhase → Hub → Except HubError Task → Prop}
    (hheld : other = taskId → held = some logs) (hfull : logs ++ line <+: full)
    (hline : HubLine line) (hf : ∀ row, (f row).logs = full ∧ (f row).serverId = row.serverId)
    (hhome : (h.taskWithServer taskId).isSome = true)
    (hpost : ∀ a s outcome, (∀ n, a ≠ .before n) → Steady taskId h s → post a s outcome) :
    (Prisma.taskUpdate env other f).Follows (Steady taskId) (LogMove k HubLine taskId) post
      (.holding held) h := by
  by_cases heq : other = taskId
  · rw [hheld heq, heq]
    exact taskUpdate_hubLine line hf hfull hline hhome fun s row hs => hpost _ s _ nofun hs
  · exact silent_follows (taskUpdate_silent (.inl heq)) nofun fun s outcome hs =>
      hpost _ s outcome nofun hs

/-- **A dispatch that fails on all candidates** writes one line of the Hub. -/
theorem processDispatch_follows {jobTask : Option TaskId}
    {post : LogPhase → Hub → Except HubError Unit → Prop}
    (hhome : (h.taskWithServer taskId).isSome = true)
    (hpost : ∀ a s outcome, Dispatching a → post a s outcome) :
    (TasksProcessor.processDispatch env jobTask).Follows (Steady taskId)
      (LogMove 1 HubLine taskId) post (.before 1) h := by
  have hrefl := Steady.refl taskId
  cases jobTask with
  | none => exact Proc.follows_pure fun s _ => hpost _ s _ (.inl rfl)
  | some other =>
    refine .bind hrefl (Proc.follows_read fun s₁ h₁ => ⟨_, .read (Silent.refl taskId),
      fun s₂ h₂ => ?_⟩)
    cases hrow : s₁.tasks other with
    | none => exact Proc.follows_pure fun s _ => hpost _ s _ (.inr nofun)
    | some task =>
      have hheld := fun heq : other = taskId => logsOf_of_row hrow heq
      refine .ite (fun _ => Proc.follows_pure fun s _ => hpost _ s _ (.inr nofun)) fun _ => ?_
      refine .bind hrefl (silent_follows ((retryExcludedServerIds_quiet other).mono
        Silent.of_quiet) nofun fun s₃ outcome h₃ => ?_)
      cases outcome with
      | error error => exact hpost _ s₃ _ (.inr nofun)
      | ok excluded =>
        refine .bind hrefl (silent_follows ((getDispatchCandidates_quiet _ _ _).mono
          Silent.of_quiet) nofun fun s₄ outcome h₄ => ?_)
        cases outcome with
        | error error => exact hpost _ s₄ _ (.inr nofun)
        | ok candidates =>
          refine .ite (fun _ => Proc.follows_throw fun s _ => hpost _ s _ (.inr nofun))
            fun _ => ?_
          refine .bind hrefl (silent_follows dispatchLoop_silent nofun fun s₅ outcome h₅ => ?_)
          have hhome₅ := (h₁.trans (h₂.trans (h₃.trans (h₄.trans h₅)))).home hhome
          cases outcome with
          | error error => exact hpost _ s₅ _ (.inr nofun)
          | ok result =>
            cases result with
            | none => exact Proc.follows_pure fun s _ => hpost _ s _ (.inr nofun)
            | some failures =>
              have hline : HubLine (TasksProcessor.formatFailoverLog failures) :=
                .of_append (.of_append rfl)
              refine .bind hrefl (taskUpdate_line hheld (List.prefix_refl _) hline
                (fun row => ⟨rfl, rfl⟩) hhome₅ fun a s outcome ha _ => ?_)
              cases outcome with
              | error error => exact hpost _ s _ (.inr ha)
              | ok row => exact Proc.follows_throw fun s _ => hpost _ s _ (.inr ha)

/-- **A dispatch job.** -/
theorem dispatch_follows {jobId : ℕ} (hhome : (h.taskWithServer taskId).isSome = true) :
    (perform env (.dispatch jobId)).Follows (Steady taskId) (LogMove 1 HubLine taskId)
      (fun _ _ _ => True) (.before 0) h := by
  have hrefl := Steady.refl taskId
  refine .bind hrefl (p := runJob env jobId) ?_
  unfold runJob
  refine .bind hrefl (Proc.follows_read fun s₁ h₁ => ⟨_, .wait nofun (Silent.refl taskId),
    fun s₂ h₂ => ?_⟩)
  cases s₁.jobs jobId with
  | none => exact Proc.follows_pure fun _ _ => Proc.follows_pure fun _ _ => trivial
  | some job =>
    have hhome₂ := (h₁.trans h₂).home hhome
    have hrecord : ∀ a s outcome, Dispatching a →
        (Proc.atomically fun h => (.ok (), { h with
          jobs := h.jobs.modify jobId fun _ => job.after outcome }) : HubM Unit).Follows
          (Steady taskId) (LogMove 1 HubLine taskId) (fun _ _ result => result = .ok ()) a s := by
      intro a s outcome ha
      have hjobs : ∀ s : Hub, Silent taskId s { s with
          jobs := s.jobs.modify jobId fun _ => job.after outcome } :=
        fun s => ⟨⟨fun h => h, fun _ h => h⟩, rfl⟩
      refine Proc.follows_atomically fun s' _ => ?_
      rcases ha with rfl | hread
      · exact ⟨_, .read hjobs, fun _ _ => rfl⟩
      · cases a with
        | before n => exact absurd rfl (hread n)
        | holding logs => exact ⟨_, .keep hjobs, fun _ _ => rfl⟩
        | wrote => exact ⟨_, .done hjobs, fun _ _ => rfl⟩
    refine .bind hrefl (.tryCatch hrefl (.bind hrefl (processDispatch_follows hhome₂
      fun a s outcome ha => ?_)))
    cases outcome with
    | ok _ =>
        refine Proc.follows_pure fun s _ => (hrecord a s _ ha).mono fun b t result hok => ?_
        subst hok
        exact Proc.follows_pure fun _ _ => trivial
    | error error =>
        refine Proc.follows_pure fun s _ => (hrecord a s _ ha).mono fun b t result hok => ?_
        subst hok
        exact Proc.follows_pure fun _ _ => trivial

/-- The watchdog leaves the logs of other tasks alone. -/
theorem timeOutTask_silent {other : TaskId} {task : Task} {attemptId : TaskAttemptId}
    {attempt : TaskAttempt} (hne : other ≠ taskId) :
    (TasksProcessor.timeOutTask env other task attemptId attempt).Guarantees (Silent taskId) := by
  refine timeOutTask_guarantees Silent.of_quiet (fun h _ => .attempt h _ _)
    (fun h f reads hf => ?_) fun h => ⟨⟨fun h => h, fun _ h => h⟩, rfl⟩
  cases hrow : h.tasks other with
  | none =>
      rw [Table.modify_of_none hrow]
      exact Silent.of_quiet _ _ rfl
  | some task => exact .task hrow (.inl (hf task)) (.inl hne)

/-- **The watchdog on the task** writes one line of the Hub. -/
theorem timeOutTask_follows {task : Task} {attemptId : TaskAttemptId} {attempt : TaskAttempt}
    {post : LogPhase → Hub → Except HubError Unit → Prop}
    (hhome : (h.taskWithServer taskId).isSome = true)
    (hpost : ∀ s, Steady taskId h s → post .wrote s (.ok ()))
    (herror : ∀ a s error, post a s (.error error)) :
    (TasksProcessor.timeOutTask env taskId task attemptId attempt).Follows (Steady taskId)
      (LogMove k HubLine taskId) post (.holding (some task.logs)) h := by
  have hrefl := Steady.refl taskId
  unfold TasksProcessor.timeOutTask
  refine .bind hrefl (Proc.follows_read fun s₁ h₁ => ⟨_, .keep (Silent.refl taskId),
    fun s₂ h₂ => ?_⟩)
  refine .bind hrefl (silent_follows (now_quiet.mono Silent.of_quiet) nofun
    fun s₃ outcome h₃ => ?_)
  cases outcome with
  | error error => exact herror _ _ _
  | ok finished =>
    refine .bind hrefl (silent_follows (attemptUpdate_guarantees Silent.of_quiet fun h =>
      .attempt h _ _) nofun fun s₄ outcome h₄ => ?_)
    have h₀₄ : Steady taskId h s₄ := h₁.trans (h₂.trans (h₃.trans h₄))
    have hhome₄ := h₀₄.home hhome
    cases outcome with
    | error error => exact herror _ _ _
    | ok _ =>
      refine .ite (fun _ => ?_) fun _ => ?_
      · refine .bind hrefl (taskUpdate_hubLine
          (js "\n[hub] Watchdog failed task after repeated stale RUNNING attempts: ")
          (fun row => ⟨rfl, rfl⟩) ?_ rfl hhome₄ fun s₅ row h₅ => ?_)
        · simp only [List.append_eq, List.append_assoc, List.prefix_append_right_inj,
            List.prefix_append]
        · exact Proc.follows_pure fun s₆ h₆ => hpost s₆ (h₀₄.trans (h₅.trans h₆))
      · refine .bind hrefl (taskUpdate_hubLine
          (js "\n[hub] Watchdog requeued stale RUNNING task from server ")
          (fun row => ⟨rfl, rfl⟩) ?_ rfl hhome₄ fun s₅ row h₅ => ?_)
        · simp only [List.append_eq, List.append_assoc, List.prefix_append_right_inj,
            List.prefix_append]
        · refine silent_follows enqueueDispatch_silent nofun fun s₆ outcome h₆ => ?_
          cases outcome with
          | error error => exact herror _ _ _
          | ok _ => exact hpost s₆ (h₀₄.trans (h₅.trans h₆))

/-- The loop of a scan whose rows were read at once: it holds the logs until it
comes to the row of the task, and that row comes once. -/
theorem scanLoop_follows {staleBefore : ℤ}
    {rows : List ((TaskId × Task) × Option (TaskAttemptId × TaskAttempt))} {handled : ℕ}
    (hnodup : (rows.map fun row => row.1.1).Nodup)
    (hrows : ∀ row ∈ rows, row.1.1 = taskId → a = .holding (some row.1.2.logs))
    (ha : ∀ n, a ≠ .before n) (hhome : (h.taskWithServer taskId).isSome = true) :
    (TasksProcessor.scanLoop env staleBefore rows handled).Follows (Steady taskId)
      (LogMove k HubLine taskId) (fun _ _ _ => True) a h := by
  have hrefl := Steady.refl taskId
  induction rows generalizing a h handled with
  | nil => exact Proc.follows_pure fun _ _ => trivial
  | cons row rest ih =>
    rw [List.map_cons, List.nodup_cons] at hnodup
    rw [List.forall_mem_cons] at hrows
    obtain ⟨⟨other, task⟩, latest⟩ := row
    cases latest with
    | none => exact ih hnodup.2 hrows.2 ha hhome
    | some latest =>
      obtain ⟨attemptId, attempt⟩ := latest
      refine .ite (fun _ => ih hnodup.2 hrows.2 ha hhome) fun _ => ?_
      by_cases heq : other = taskId
      · subst heq
        rw [hrows.1 rfl]
        refine .bind hrefl (timeOutTask_follows hhome (fun s hs => ?_) fun _ _ _ => trivial)
        refine ih hnodup.2 (fun row hrow hsame => ?_) nofun (hs.home hhome)
        exact absurd (List.mem_map.mpr ⟨row, hrow, hsame⟩) hnodup.1
      · refine .bind hrefl (silent_follows (timeOutTask_silent heq) ha fun s outcome hs => ?_)
        cases outcome with
        | error error => trivial
        | ok _ => exact ih hnodup.2 hrows.2 ha (hs.home hhome)

/-- **A scan.** -/
theorem watchdog_follows (hhome : (h.taskWithServer taskId).isSome = true) :
    (perform env .watchdog).Follows (Steady taskId) (LogMove 1 HubLine taskId)
      (fun _ _ _ => True) (.before 0) h := by
  have hrefl := Steady.refl taskId
  refine .bind hrefl (p := TasksProcessor.scanStuckTasksOnce env) ?_
  unfold TasksProcessor.scanStuckTasksOnce
  refine .bind hrefl (Proc.follows_take fun s₁ h₁ =>
    ⟨_, .wait nofun fun s => Silent.of_quiet _ _ rfl, fun s₂ h₂ => ?_⟩)
  have hquiet : Steady taskId s₁ { s₁ with reads := s₁.reads + 1 } :=
    (Silent.of_quiet s₁ { s₁ with reads := s₁.reads + 1 } rfl).toSteady
  refine .bind hrefl (Proc.follows_read fun s₃ h₃ => ⟨_, .read (Silent.refl taskId),
    fun s₄ h₄ => ?_⟩)
  have hhome₄ := (h₁.trans (hquiet.trans (h₂.trans (h₃.trans h₄)))).home hhome
  unfold TasksProcessor.stuckTasks
  have hholding : ∀ n, LogPhase.holding (s₃.logsOf taskId) ≠ .before n := fun _ => nofun
  refine (scanLoop_follows ?_ ?_ hholding hhome₄).mono fun a s outcome _ => ?_
  · rw [List.map_map]
    refine ((env.rowOrder_perm _).map _).nodup_iff.mpr ?_
    exact (s₃.tasks.nodup_keys).sublist (List.filter_sublist.map _)
  · intro row hrow hsame
    obtain ⟨⟨other, task⟩, hmem, rfl⟩ := List.mem_map.mp hrow
    have hfiltered := (env.rowOrder_perm _).mem_iff.mp hmem
    rw [List.mem_filter, Table.mem_toList] at hfiltered
    rw [logsOf_of_row hfiltered.1 hsame]
  · cases outcome with
    | error error => trivial
    | ok _ => exact Proc.follows_pure fun _ _ => trivial

/-! ## Every call -/

/-- Whether a reference is the id of the task. -/
def TaskRef.names (taskId : TaskId) : TaskRef → Bool
  | id other => other == taskId
  | filter _ | invalid => false

/-- The heartbeat of a server. -/
theorem Silent.server (h : Hub) (id : ServerId) (f : Server → Server) :
    Silent taskId h { h with servers := h.servers.modify id f } where
  home hhome := by
    obtain ⟨⟨task, server⟩, hfound⟩ := Option.isSome_iff_exists.mp hhome
    obtain ⟨hrow, hserver⟩ := taskWithServer_some hfound
    have hstored : (h.servers.modify id f task.serverId).isSome = true := by
      rw [Table.isSome_modify, hserver]
      rfl
    unfold Hub.taskWithServer
    dsimp only
    rw [hrow, Option.bind_some, Option.isSome_map]
    exact hstored
  attempts _ h := h
  logs := rfl

/-- A heartbeat is about a server. -/
theorem onHeartbeat_silent {socketId : ℕ} :
    (DaemonGateway.onHeartbeat env socketId).Guarantees (Silent taskId) :=
  onHeartbeat_guarantees Silent.of_quiet Silent.server

/-- A status update is about the status and the attempt. -/
theorem handleDaemonTaskStatus_silent {payload : DaemonTaskStatusPayload} :
    (TasksService.handleDaemonTaskStatus env payload).Guarantees (Silent taskId) :=
  touchRunningAttempt_silent.bind fun _ => updateStatus_silent.bind fun _ =>
    Proc.guarantees_pure _

/-- A request for approval is about the approval and the status. -/
theorem handleDaemonApprovalRequest_silent {payload : DaemonApprovalRequestPayload} :
    (ApprovalsService.handleDaemonApprovalRequest env payload).Guarantees (Silent taskId) := by
  refine handleDaemonApprovalRequest_guarantees Silent.of_quiet
    (fun h other approval reads _ _ => ⟨⟨fun h => h, fun _ h => h⟩, rfl⟩)
    fun h other reads date _ => ?_
  cases hrow : h.tasks other with
  | none =>
      rw [Table.modify_of_none hrow]
      exact Silent.of_quiet _ _ rfl
  | some task => exact .task hrow (.inl rfl) (.inr rfl)

/-- The logs of another task. -/
theorem handleDaemonTaskLog_silent {payload : DaemonTaskLogPayload}
    (hother : payload.taskId.names taskId = false) :
    (TasksService.handleDaemonTaskLog env payload).Guarantees (Silent taskId) := by
  unfold TasksService.handleDaemonTaskLog
  cases hid : payload.taskId with
  | filter selects => exact Proc.guarantees_throw _
  | invalid => exact Proc.guarantees_throw _
  | id other =>
      have hne : other ≠ taskId := by
        rw [hid] at hother
        exact beq_eq_false_iff_ne.mp hother
      change (Prisma.taskFindUniqueWithServer other >>= _ : HubM Unit).Guarantees (Silent taskId)
      refine Proc.Guarantees.bind (Proc.guarantees_read (Silent.refl taskId) _) fun found => ?_
      cases found with
      | none => exact Proc.guarantees_pure _
      | some found =>
        exact touchRunningAttempt_silent.bind fun _ =>
          Proc.Guarantees.bind (taskUpdate_silent (.inl hne)) fun _ =>
            (notifyUser_quiet _ _).mono Silent.of_quiet

/-- A result that is no capacity failure of the task. -/
theorem handleDaemonTaskResult_silent {payload : DaemonTaskResultPayload}
    (hother : payload.taskId.names taskId = false ∨
      TasksService.isRetryableCapacityFailure payload = false) :
    (TasksService.handleDaemonTaskResult env payload).Guarantees (Silent taskId) := by
  refine Proc.Guarantees.ite (fun hcapacity => ?_) fun _ => ?_
  · refine Proc.Guarantees.bind ?_ fun _ => Proc.guarantees_pure _
    unfold TasksService.handleRetryableCapacityFailure
    cases hid : payload.taskId with
    | filter selects => exact Proc.guarantees_throw _
    | invalid => exact Proc.guarantees_throw _
    | id other =>
        have hne : other ≠ taskId := by
          rw [hcapacity, hid] at hother
          exact beq_eq_false_iff_ne.mp (hother.resolve_right nofun)
        change (Prisma.taskFindUniqueWithServer other >>= _ : HubM Unit).Guarantees (Silent taskId)
        refine Proc.Guarantees.bind (Proc.guarantees_read (Silent.refl taskId) _) fun found => ?_
        cases found with
        | none => exact Proc.guarantees_pure _
        | some found =>
          refine finishRunningAttempt_silent.bind fun _ =>
            ((retryExcludedServerIds_quiet other).mono Silent.of_quiet).bind fun excluded =>
              ((getDispatchCandidates_quiet _ _ _).mono Silent.of_quiet).bind fun candidates => ?_
          have hwrite : ∀ status result logs, (TasksService.updateTaskAndNotify env other status
              result logs).Guarantees (Silent taskId) := fun status result logs =>
            updateTaskAndNotify_guarantees Silent.of_quiet fun h task reads date hrow =>
              .task hrow (.inl rfl) (.inl hne)
          cases candidates with
          | nil => exact (hwrite _ _ _).bind fun _ => (sendPush_quiet _ _ _).mono Silent.of_quiet
          | cons first rest => exact (hwrite _ _ _).bind fun _ => enqueueDispatch_silent
  · exact finishRunningAttempt_silent.bind fun _ => updateStatus_silent.bind fun _ =>
      (sendPush_quiet _ _ _).mono Silent.of_quiet

end Moves

end CodeCaller
