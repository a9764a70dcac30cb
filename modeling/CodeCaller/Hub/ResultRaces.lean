import CodeCaller.Hub.Nodes

/-!
# A result beside jobs and scans

A job reads the status of its task once, at its start, and records `RUNNING` after the message has
left; a scan reads all rows at once and writes what it decided from them.  A result that is written
in between is undone.  It stays when neither of its writes falls between the read of a job or a
scan and what that one still writes to the task; this is `ResultPool.Unraced`.

Whoever reads the task after the result writes nothing to it any more: the proof is about what a
job or a scan may do given what it has read (`Bound`).

### The pieces

* `Rival`: a job that dispatches the task, or a scan.  There may be any number of them.
* `Bound taskId h₀`: what a rival may do that has read the task in `h₀`.  It leaves a terminal
  status and closed attempts alone; a job that found the task queued may do anything to it.
* `HandlerMove`: the steps of the handler.  It finds an attempt, closes it, and sets the status.
* `RacePhase.Spares`: a rival that cannot undo what is written, because it has not read the task,
  or has read it with what is written.
* `Race`, `Race.step`: the invariant, and one node of the handler or of a rival.

### Scope

The result is one that the handler records with its status.  A retryable capacity failure takes the
other path of the handler, which queues the task again or fails it, and is not the subject here.
-/

namespace CodeCaller

open Async

/-- What runs beside a result for a task: a job that dispatches it, or a scan. -/
inductive Rival where
  | process
  | scan
deriving DecidableEq

/-- What the queue starts for a task, or for all. -/
def Rival.program (env : Env) (taskId : TaskId) : Rival → HubM Unit
  | process => TasksProcessor.processDispatch env (some taskId)
  | scan => do
    let _ ← TasksProcessor.scanStuckTasksOnce env

/-- The node a rival reads the task at: a scan reads the clock before. -/
def Rival.readsAt : Rival → ℕ
  | process => 0
  | scan => 1

/-- The handler of the result and its rivals, each at some node. -/
abbrev ResultPool := Pool Hub HubError Unit

/-- A step is a node of one of them. -/
abbrev resultMachine : Machine ResultPool ℕ := Pool.machine Hub HubError Unit

/-- A result for the task, as program 0, and its rivals. -/
def resultPool (env : Env) (h : Hub) (payload : DaemonTaskResultPayload) (taskId : TaskId)
    (rivals : List Rival) : ResultPool :=
  Pool.start h (TasksService.handleDaemonTaskResult env payload ::
    rivals.map (·.program env taskId))

/-- The status of a task, if it is stored. -/
def Hub.statusOf (h : Hub) (taskId : TaskId) : Option TaskStatus :=
  (h.tasks taskId).map (·.status)

/-! ## The writes of a result -/

/-- The attempt the handler of the result found active, at its first node. -/
def attemptFound (env : Env) (taskId : TaskId) (thread : Thread Hub HubError Unit) :
    Option TaskAttemptId :=
  thread.past.head?.bind fun visit =>
    (latestActive env visit.1.attempts (· == taskId)).map (·.1)

/-- The node the handler sets the status at: to close an attempt it reads the clock
twice and updates the attempt. -/
def setsStatusAt (found : Option TaskAttemptId) : ℕ := if found.isSome then 4 else 1

/-- Whether the next node of the handler closes the attempt or sets the status. -/
def writesNext (env : Env) (taskId : TaskId) (thread : Thread Hub HubError Unit) : Bool :=
  thread.past.length == setsStatusAt (attemptFound env taskId thread) ||
    ((attemptFound env taskId thread).isSome && thread.past.length == 3)

/-- Whether the handler has closed the attempt and set the status. -/
def committed (env : Env) (taskId : TaskId) (thread : Thread Hub HubError Unit) : Bool :=
  decide (setsStatusAt (attemptFound env taskId thread) < thread.past.length)

/-- The status a result closes its attempt with. -/
def closingStatus (status : TaskStatus) : TaskAttemptStatus :=
  if status = .COMPLETED then .SUCCEEDED else .FAILED

/-- No row is deleted. -/
structure Stored (taskId : TaskId) (h h' : Hub) : Prop where
  tasks : (h.tasks taskId).isSome = true → (h'.tasks taskId).isSome = true
  attempts : ∀ id, (h.attempts id).isSome = true → (h'.attempts id).isSome = true

/-- **The status of the task and the attempt are left alone.** -/
structure Leaves (taskId : TaskId) (found : Option TaskAttemptId) (h h' : Hub) : Prop
    extends Stored taskId h h' where
  status : h'.statusOf taskId = h.statusOf taskId
  attempt : ∀ id ∈ found, ∀ row, h.attempts id = some row → h'.attempts id = some row

/-- **The condition on a schedule**: when the handler closes the attempt and when it
sets the status, every rival has not read the task yet, or leaves the status and the
attempt alone in all it still does. -/
def ResultPool.Unraced (env : Env) (taskId : TaskId) (rivals : List Rival) (P : ResultPool)
    (i : ℕ) : Prop :=
  i = 0 → ∀ thread, P.threads[0]? = some thread → writesNext env taskId thread = true →
    ∀ j rival other, rivals[j]? = some rival → P.threads[j + 1]? = some other →
      other.past.length ≤ rival.readsAt ∨
        other.program.Guarantees (Leaves taskId (attemptFound env taskId thread))

/-- **A committed result stays**: once the handler has closed the attempt and set the
status, both are as it left them. -/
def ResultPool.Kept (env : Env) (taskId : TaskId) (status : TaskStatus) (P : ResultPool) : Prop :=
  ∀ thread, P.threads[0]? = some thread → committed env taskId thread = true →
    P.shared.statusOf taskId = some status ∧
      ∀ id ∈ attemptFound env taskId thread, ∃ attempt, P.shared.attempts id = some attempt ∧
        attempt.status = closingStatus status

/-! ## What a rival may do -/

/-- Whether a task has a terminal status. -/
def Hub.terminalAt (h : Hub) (taskId : TaskId) : Bool := (h.statusOf taskId).any (·.terminal)

/-- **What a rival may do that has read the task in `h₀`**: it leaves a terminal status
and closed attempts alone. -/
structure Bound (taskId : TaskId) (h₀ h h' : Hub) : Prop extends Stored taskId h h' where
  status : h₀.terminalAt taskId = true → h'.statusOf taskId = h.statusOf taskId
  closed : ∀ id old, h₀.attempts id = some old → old.active = false →
    ∀ row, h.attempts id = some row → h'.attempts id = some row

section Rivals

variable {env : Env} {taskId : TaskId} {h₀ h h' : Hub} {α : Type}

/-- Nothing is lost. -/
theorem Stored.refl (taskId : TaskId) (h : Hub) : Stored taskId h h := ⟨fun h => h, fun _ h => h⟩

/-- What is stored after all is what was stored all along. -/
theorem Stored.trans {h₁ h₂ h₃ : Hub} (h₁₂ : Stored taskId h₁ h₂) (h₂₃ : Stored taskId h₂ h₃) :
    Stored taskId h₁ h₃ :=
  ⟨fun h => h₂₃.tasks (h₁₂.tasks h), fun id h => h₂₃.attempts id (h₁₂.attempts id h)⟩

/-- Who leaves the tasks and attempts alone keeps the bound, -/
theorem Bound.of_same (htasks : h'.tasks = h.tasks) (hattempts : h'.attempts = h.attempts) :
    Bound taskId h₀ h h' := by
  refine ⟨⟨?_, ?_⟩, fun _ => ?_, fun id old _ _ row hrow => ?_⟩
  · rw [htasks]
    exact fun h => h
  · rw [hattempts]
    exact fun _ h => h
  · unfold Hub.statusOf
    rw [htasks]
  · rw [hattempts]
    exact hrow

/-- and so does who leaves all rows alone. -/
theorem Bound.of_quiet (h h' : Hub) (hquiet : Quiet h h') : Bound taskId h₀ h h' :=
  .of_same (congrArg Rows.tasks hquiet) (congrArg Rows.attempts hquiet)

theorem Bound.refl (taskId : TaskId) (h₀ h : Hub) : Bound taskId h₀ h h := .of_same rfl rfl

/-- The bound is about the state that was read, so two steps under it are one. -/
theorem Bound.trans {h₁ h₂ h₃ : Hub} (h₁₂ : Bound taskId h₀ h₁ h₂)
    (h₂₃ : Bound taskId h₀ h₂ h₃) : Bound taskId h₀ h₁ h₃ where
  toStored := h₁₂.toStored.trans h₂₃.toStored
  status hterminal := (h₂₃.status hterminal).trans (h₁₂.status hterminal)
  closed id old hold hclosed row hrow :=
    h₂₃.closed id old hold hclosed row (h₁₂.closed id old hold hclosed row hrow)

/-- An attempt that was not there or active. -/
theorem Bound.attempt {id : TaskAttemptId} {f : TaskAttempt → TaskAttempt}
    (hopen : ∀ old, h₀.attempts id = some old → old.active = true) (h : Hub) :
    Bound taskId h₀ h { h with attempts := h.attempts.modify id f } where
  tasks h := h
  attempts other hother := by
    rw [Table.isSome_modify]
    exact hother
  status _ := rfl
  closed other old hold hclosed row hrow := by
    have hne : other ≠ id := fun heq => by
      rw [heq] at hold
      rw [hopen old hold] at hclosed
      cases hclosed
    exact (if_neg hne).trans hrow

/-- A new attempt is not one that was closed. -/
theorem Bound.attemptInserted (h : Hub) (attempt : TaskAttempt) (reads : ℕ) :
    Bound taskId h₀ h { h with attempts := h.attempts.insert attempt, reads } := by
  have hkept : ∀ id row, h.attempts id = some row → h.attempts.insert attempt id = some row := by
    intro id row hrow
    rw [Table.insert_apply, if_neg (Nat.ne_of_lt (Table.lt_next hrow))]
    exact hrow
  refine ⟨⟨fun h => h, fun id hid => ?_⟩, fun _ => rfl, fun id _ _ _ row hrow => hkept id row hrow⟩
  obtain ⟨row, hrow⟩ := Option.isSome_iff_exists.mp hid
  exact Option.isSome_iff_exists.mpr ⟨row, hkept id row hrow⟩

/-- The status is written by a rival that found it open, or is another task's. -/
theorem Bound.task {other : TaskId} {f : Task → Task}
    (hopen : other ≠ taskId ∨ h₀.terminalAt taskId = false) (h : Hub) (reads : ℕ) :
    Bound taskId h₀ h { h with tasks := h.tasks.modify other f, reads } where
  tasks hstored := by
    rw [Table.isSome_modify]
    exact hstored
  attempts _ h := h
  status hterminal := by
    have hne : taskId ≠ other := by
      rcases hopen with hne | hopen
      · exact hne.symm
      · rw [hopen] at hterminal
        cases hterminal
    exact congrArg (Option.map _) (if_neg hne)
  closed _ _ _ _ _ hrow := hrow

/-! ## The protocol -/

/-- Where the handler and its rivals are. -/
inductive RacePhase where
  /-- The handler before its first node. -/
  | fresh
  /-- It has found an attempt, or none, and has run `n` nodes. -/
  | found (target : Option TaskAttemptId) (n : ℕ)
  /-- It has closed the attempt. -/
  | closed (id : TaskAttemptId)
  /-- It has set the status. -/
  | settled (target : Option TaskAttemptId)
  /-- A rival that has run `n` nodes and has not read the task. -/
  | before (n : ℕ)
  /-- A rival that has read the task in `h₀`. -/
  | read (h₀ : Hub)
  /-- A rival that leaves the status and the attempt alone. -/
  | leaving (target : Option TaskAttemptId)

/-- **The steps of a rival** that reads the task at its node `k`. -/
inductive RivalMove (taskId : TaskId) (k : ℕ) :
    RacePhase → (Hub → Hub) → Hub → RacePhase → Prop where
  | wait {n : ℕ} {update : Hub → Hub} {h : Hub} (hn : n ≠ k)
      (hquiet : ∀ s, Quiet s (update s)) :
      RivalMove taskId k (.before n) update h (.before (n + 1))
  | read {update : Hub → Hub} {h : Hub} (hquiet : ∀ s, Quiet s (update s)) :
      RivalMove taskId k (.before k) update h (.read h)
  | act {h₀ : Hub} {update : Hub → Hub} {h : Hub} (hbound : ∀ s, Bound taskId h₀ s (update s)) :
      RivalMove taskId k (.read h₀) update h (.read h₀)
  | leave {target : Option TaskAttemptId} {update : Hub → Hub} {h : Hub}
      (hleaves : ∀ s, Leaves taskId target s (update s)) :
      RivalMove taskId k (.leaving target) update h (.leaving target)

/-- Who leaves the rows alone loses none. -/
theorem Stored.of_quiet (h h' : Hub) (hquiet : Quiet h h') : Stored taskId h h' :=
  have hbound : Bound taskId h h h' := Bound.of_quiet h h' hquiet
  hbound.toStored

/-- A rival that has read the task keeps to its bound. -/
theorem bound_follows {p : HubM α} {k : ℕ} {post : RacePhase → Hub → Except HubError α → Prop}
    (hp : p.Guarantees (Bound taskId h₀))
    (hpost : ∀ s outcome, Stored taskId h s → post (.read h₀) s outcome) :
    p.Follows (Stored taskId) (RivalMove taskId k) post (.read h₀) h :=
  hp.follows (@Stored.trans taskId) (fun _ hbound s => ⟨.act hbound, (hbound s).toStored⟩) hpost

/-! ## A job -/

/-- A new attempt has the next key, so it was not there before. -/
theorem attemptCreate_key {serverId : ServerId} {status : TaskAttemptStatus}
    {created : TaskAttemptId × TaskAttempt}
    (hrun : ((Prisma.taskAttemptCreate env taskId serverId status).run h).1 = .ok created) :
    created.1 = h.attempts.next := by
  unfold Prisma.taskAttemptCreate at hrun
  rw [Proc.run_atomically] at hrun
  split at hrun
  · cases hrun
    rfl
  · cases hrun

/-- The attempts a job opens were not there when it read the task. -/
theorem dispatchLoop_follows {k : ℕ} {input : Json} {candidates : List WorkerDispatchCandidate}
    {failures : List JsString}
    {post : RacePhase → Hub → Except HubError (Option (List JsString)) → Prop}
    (hopen : h₀.terminalAt taskId = false) (hread : Stored taskId h₀ h)
    (hpost : ∀ s outcome, Stored taskId h s → post (.read h₀) s outcome) :
    (TasksProcessor.dispatchLoop env taskId input candidates failures).Follows (Stored taskId)
      (RivalMove taskId k) post (.read h₀) h := by
  have hrefl := Stored.refl taskId
  induction candidates generalizing failures h with
  | nil => exact Proc.follows_pure fun s hs => hpost s _ hs
  | cons candidate rest ih =>
    have hcreate : (Prisma.taskAttemptCreate env taskId candidate.serverId
        .DISPATCHING).Guarantees (Bound taskId h₀) :=
      attemptCreate_guarantees Bound.of_quiet fun h attempt reads _ _ _ _ _ =>
        .attemptInserted h attempt reads
    have hcreated := fun s => hcreate.run (Bound.refl taskId h₀) (@Bound.trans taskId h₀) s
    refine .bind hrefl (Proc.follows_atomically_run fun s₁ h₁ => ?_)
    cases hrun : (Prisma.taskAttemptCreate env taskId candidate.serverId .DISPATCHING).run s₁ with
    | mk outcome s' =>
    refine ⟨.read h₀, outcome, s', hrun, .act hcreated, fun s₂ h₂ => ?_⟩
    have hstored : Stored taskId s₁ s' := by
      have hbound := hcreated s₁
      rw [hrun] at hbound
      exact hbound.toStored
    have h₀₂ : Stored taskId h s₂ := h₁.trans (hstored.trans h₂)
    cases outcome with
    | error error => exact hpost s₂ _ h₀₂
    | ok created =>
      -- the attempt was not there when the job read the task
      have hfresh : ∀ old, h₀.attempts created.1 = some old → old.active = true := by
        intro old hold
        have hstored := (hread.trans h₁).attempts created.1 (by rw [hold]; rfl)
        rw [attemptCreate_key (congrArg Prod.fst hrun), s₁.attempts.fresh _ le_rfl] at hstored
        cases hstored
      have htry : (TasksProcessor.tryCandidate env taskId input created.1 candidate).Guarantees
          (Bound taskId h₀) :=
        tryCandidate_guarantees Bound.of_quiet (fun h _ => .attempt hfresh h)
          (fun h reads date _ _ => .task (.inr hopen) h reads) fun h => .of_same rfl rfl
      refine .bind hrefl (bound_follows (Proc.Guarantees.tryCatch
        (htry.bind fun _ => Proc.guarantees_pure _) fun error =>
          Proc.Guarantees.bind (recordFailure_guarantees Bound.of_quiet fun h _ =>
            .attempt hfresh h) fun _ => Proc.guarantees_pure _) fun s₃ outcome h₃ => ?_)
      cases outcome with
      | error error => exact hpost s₃ _ (h₀₂.trans h₃)
      | ok failure =>
        cases failure with
        | none => exact Proc.follows_pure fun s₄ h₄ => hpost s₄ _ (h₀₂.trans (h₃.trans h₄))
        | some failure =>
            exact ih (hread.trans (h₀₂.trans h₃)) fun s₄ outcome h₄ =>
              hpost s₄ outcome (h₀₂.trans (h₃.trans h₄))

/-- **A job.** -/
theorem process_follows :
    (TasksProcessor.processDispatch env (some taskId)).Follows (Stored taskId)
      (RivalMove taskId 0) (fun _ _ _ => True) (.before 0) h := by
  have hrefl := Stored.refl taskId
  refine .bind hrefl (Proc.follows_read fun s₁ h₁ => ⟨_, .read fun _ => rfl, fun s₂ h₂ => ?_⟩)
  cases hrow : s₁.tasks taskId with
  | none => exact Proc.follows_pure fun _ _ => trivial
  | some task =>
    refine .ite (fun _ => Proc.follows_pure fun _ _ => trivial) fun hqueued => ?_
    have hopen : s₁.terminalAt taskId = false := by
      unfold Hub.terminalAt Hub.statusOf
      rw [hrow, Option.map_some, Option.any_some, not_not.mp hqueued]
      rfl
    refine .bind hrefl (bound_follows ((retryExcludedServerIds_quiet taskId).mono Bound.of_quiet)
      fun s₃ outcome h₃ => ?_)
    cases outcome with
    | error error => trivial
    | ok excluded =>
      refine .bind hrefl (bound_follows ((getDispatchCandidates_quiet _ _ _).mono Bound.of_quiet)
        fun s₄ outcome h₄ => ?_)
      cases outcome with
      | error error => trivial
      | ok candidates =>
        refine .ite (fun _ => Proc.follows_throw fun _ _ => trivial) fun _ => ?_
        refine .bind hrefl (dispatchLoop_follows hopen (h₂.trans (h₃.trans h₄))
          fun s₅ outcome h₅ => ?_)
        cases outcome with
        | error error => trivial
        | ok result =>
          cases result with
          | none => exact Proc.follows_pure fun _ _ => trivial
          | some failures =>
            refine bound_follows (Proc.Guarantees.bind (taskUpdate_guarantees Bound.of_quiet
              fun h _ reads date _ _ => ?_) fun _ => Proc.guarantees_throw _) fun _ _ _ => trivial
            exact .task (.inr hopen) h reads

/-! ## A scan -/

/-- A scan writes a task only through a row it has read as `RUNNING`, with an active attempt. -/
theorem scanLoop_bound {staleBefore : ℤ}
    {rows : List ((TaskId × Task) × Option (TaskAttemptId × TaskAttempt))} {handled : ℕ}
    (hopen : ∀ row ∈ rows, row.1.1 = taskId → h₀.terminalAt taskId = false)
    (hactive : ∀ row ∈ rows, ∀ id attempt, row.2 = some (id, attempt) →
      h₀.attempts id = some attempt) :
    (TasksProcessor.scanLoop env staleBefore rows handled).Guarantees (Bound taskId h₀) := by
  induction rows generalizing handled with
  | nil => exact Proc.guarantees_pure _
  | cons row rest ih =>
    rw [List.forall_mem_cons] at hopen hactive
    obtain ⟨⟨other, task⟩, latest⟩ := row
    cases latest with
    | none => exact ih hopen.2 hactive.2
    | some latest =>
      obtain ⟨id, attempt⟩ := latest
      refine Proc.Guarantees.ite (fun _ => ih hopen.2 hactive.2) fun hdue => ?_
      have hattempt : ∀ old, h₀.attempts id = some old → old.active = true := by
        intro old hold
        rw [hactive.1 id attempt rfl, Option.some.injEq] at hold
        rw [← hold]
        by_contra hclosed
        rw [Bool.not_eq_true] at hclosed
        exact hdue (by rw [hclosed]; rfl)
      have htask : other ≠ taskId ∨ h₀.terminalAt taskId = false := by
        by_cases heq : other = taskId
        · exact .inr (hopen.1 heq)
        · exact .inl heq
      exact Proc.Guarantees.bind (timeOutTask_guarantees Bound.of_quiet
        (fun h _ => .attempt hattempt h) (fun h _ reads _ => .task htask h reads)
        fun h => .of_same rfl rfl) fun _ => ih hopen.2 hactive.2

/-- **A scan.** -/
theorem scan_follows :
    (Rival.scan.program env taskId).Follows (Stored taskId) (RivalMove taskId 1)
      (fun _ _ _ => True) (.before 0) h := by
  have hrefl := Stored.refl taskId
  refine .bind hrefl (p := TasksProcessor.scanStuckTasksOnce env) ?_
  refine .bind hrefl (Proc.follows_take fun s₁ _ => ⟨_, .wait nofun fun _ => rfl, fun s₂ _ => ?_⟩)
  refine .bind hrefl (Proc.follows_read fun s₃ _ => ⟨_, .read fun _ => rfl, fun s₄ _ => ?_⟩)
  unfold TasksProcessor.stuckTasks
  refine bound_follows (scanLoop_bound ?_ ?_) fun s outcome _ => ?_
  · intro row hrow heq
    obtain ⟨⟨other, task⟩, hmem, rfl⟩ := List.mem_map.mp hrow
    have hfiltered := (env.rowOrder_perm _).mem_iff.mp hmem
    rw [List.mem_filter, Table.mem_toList, Bool.and_eq_true, beq_iff_eq] at hfiltered
    unfold Hub.terminalAt Hub.statusOf
    rw [← heq, hfiltered.1, Option.map_some, Option.any_some, hfiltered.2.1]
    rfl
  · intro row hrow id attempt hlatest
    obtain ⟨⟨other, task⟩, -, rfl⟩ := List.mem_map.mp hrow
    exact (latestAttempt_some hlatest).1
  · cases outcome with
    | error error => trivial
    | ok _ => exact Proc.follows_pure fun _ _ => trivial

/-! ## The handler -/

/-- **The steps of the handler** of a result with a status. -/
inductive HandlerMove (env : Env) (taskId : TaskId) (status : TaskStatus) :
    RacePhase → (Hub → Hub) → Hub → RacePhase → Prop where
  | find {update : Hub → Hub} {h : Hub} (hquiet : ∀ s, Quiet s (update s)) :
      HandlerMove env taskId status .fresh update h
        (.found ((latestActive env h.attempts (· == taskId)).map (·.1)) 1)
  | clock {id : TaskAttemptId} {n : ℕ} {update : Hub → Hub} {h : Hub} (hn : n < 3)
      (hquiet : ∀ s, Quiet s (update s)) :
      HandlerMove env taskId status (.found (some id) n) update h (.found (some id) (n + 1))
  | close {id : TaskAttemptId} {update : Hub → Hub} {h : Hub}
      (hstored : ∀ s, Stored taskId s (update s))
      (hclosed : ∀ s, (s.attempts id).isSome = true → ∃ attempt,
        (update s).attempts id = some attempt ∧ attempt.status = closingStatus status) :
      HandlerMove env taskId status (.found (some id) 3) update h (.closed id)
  | set {a : RacePhase} {target : Option TaskAttemptId} {update : Hub → Hub} {h : Hub}
      (ha : a = .found none 1 ∧ target = none ∨ ∃ id, a = .closed id ∧ target = some id)
      (hstored : ∀ s, Stored taskId s (update s))
      (hset : ∀ s, (s.tasks taskId).isSome = true → (update s).statusOf taskId = some status)
      (hattempts : ∀ s, (update s).attempts = s.attempts) :
      HandlerMove env taskId status a update h (.settled target)
  | rest {target : Option TaskAttemptId} {update : Hub → Hub} {h : Hub}
      (hquiet : ∀ s, Quiet s (update s)) :
      HandlerMove env taskId status (.settled target) update h (.settled target)

/-- What comes after the update is told to the user and writes nothing. -/
theorem rest_follows {p : HubM α} {status : TaskStatus} {target : Option TaskAttemptId}
    {post : RacePhase → Hub → Except HubError α → Prop} (hp : p.Guarantees Quiet)
    (hpost : ∀ s outcome, post (.settled target) s outcome) :
    p.Follows (Stored taskId) (HandlerMove env taskId status) post (.settled target) h :=
  hp.follows (@Stored.trans taskId)
    (fun _ hquiet s => ⟨.rest hquiet, .of_quiet _ _ (hquiet s)⟩) fun s outcome _ => hpost s outcome

/-- The update of a status, in any state. -/
theorem taskUpdate_sets {status : TaskStatus} {f : Task → Task}
    (hf : ∀ row, (f row).serverId = row.serverId ∧ (f row).status = status) (s : Hub) :
    Stored taskId s ((Prisma.taskUpdate env taskId f).run s).2 ∧
      ((s.tasks taskId).isSome = true →
        ((Prisma.taskUpdate env taskId f).run s).2.statusOf taskId = some status) ∧
      ((Prisma.taskUpdate env taskId f).run s).2.attempts = s.attempts := by
  cases hrow : s.tasks taskId with
  | none =>
      rw [taskUpdate_run_none hrow]
      exact ⟨Stored.refl taskId s, nofun, rfl⟩
  | some task =>
      rw [taskUpdate_run hrow (hf task).1]
      refine ⟨⟨fun hstored => ?_, fun _ h => h⟩, fun _ => ?_, rfl⟩
      · rw [Table.isSome_modify]
        exact hstored
      · unfold Hub.statusOf
        dsimp only
        rw [Table.modify_apply, if_pos rfl, hrow, Option.map_some, Option.map_some]
        exact congrArg some (hf task).2

/-- The second write of the handler, from either of the phases it may come in: with an attempt that
was closed, or without one. -/
theorem taskUpdate_settles {status : TaskStatus} {f : Task → Task} {a : RacePhase}
    {target : Option TaskAttemptId} {post : RacePhase → Hub → Except HubError Task → Prop}
    (hf : ∀ row, (f row).serverId = row.serverId ∧ (f row).status = status)
    (ha : a = .found none 1 ∧ target = none ∨ ∃ id, a = .closed id ∧ target = some id)
    (hpost : ∀ s outcome, post (.settled target) s outcome) :
    (Prisma.taskUpdate env taskId f).Follows (Stored taskId) (HandlerMove env taskId status) post
      a h := by
  refine Proc.follows_atomically_run fun s₁ _ => ⟨.settled target, _, _, rfl,
    .set ha (fun s => ?_) (fun s => ?_) (fun s => ?_), fun s₂ _ => hpost s₂ _⟩
  · exact (taskUpdate_sets hf s).1
  · exact (taskUpdate_sets hf s).2.1
  · exact (taskUpdate_sets hf s).2.2

/-- The status is set, and the app told. -/
theorem updateStatus_settles {status : TaskStatus} {result : Option Json} {a : RacePhase}
    {target : Option TaskAttemptId}
    {post : RacePhase → Hub → Except HubError (TaskId × Task × Server) → Prop}
    (ha : a = .found none 1 ∧ target = none ∨ ∃ id, a = .closed id ∧ target = some id)
    (hpost : ∀ s outcome, post (.settled target) s outcome) :
    (TasksService.updateStatus env (.id taskId) (.status status) result).Follows (Stored taskId)
      (HandlerMove env taskId status) post a h := by
  have hrefl := Stored.refl taskId
  refine .bind hrefl (Proc.follows_pure fun s₀ _ => .ite nofun fun _ => ?_)
  refine .bind hrefl (taskUpdate_settles (fun row => ⟨rfl, rfl⟩) ha fun s₁ outcome => ?_)
  cases outcome with
  | error error => exact hpost s₁ _
  | ok row =>
    exact rest_follows ((serverOf_quiet row).bind fun server => (notifyUser_quiet _ _).bind fun _ =>
      Proc.guarantees_pure _) hpost

/-- The attempt that was found is closed. -/
theorem attemptUpdate_closes {status : TaskStatus} {id : TaskAttemptId}
    {f : TaskAttempt → TaskAttempt} {post : RacePhase → Hub → Except HubError Unit → Prop}
    (hf : ∀ row, (f row).status = closingStatus status) (hstored : (h.attempts id).isSome = true)
    (hpost : ∀ s, post (.closed id) s (.ok ())) :
    (Prisma.taskAttemptUpdate id f).Follows (Stored taskId) (HandlerMove env taskId status) post
      (.found (some id) 3) h := by
  refine Proc.follows_atomically_run fun s₁ h₁ => ?_
  obtain ⟨row, hrow⟩ := Option.isSome_iff_exists.mp (h₁.attempts id hstored)
  refine ⟨.closed id, _, _, attemptUpdate_run hrow, .close (fun s => ?_) (fun s hs => ?_),
    fun s₂ _ => hpost s₂⟩
  · exact (attemptUpdate_guarantees (G := Stored taskId) Stored.of_quiet fun h =>
      ⟨fun h => h, fun other hother => by rw [Table.isSome_modify]; exact hother⟩).run
        (Stored.refl taskId) (@Stored.trans taskId) s
  · obtain ⟨row, hrow⟩ := Option.isSome_iff_exists.mp hs
    refine ⟨f row, ?_, hf row⟩
    change ((Prisma.taskAttemptUpdate id f).run s).2.attempts id = _
    rw [attemptUpdate_run hrow]
    dsimp only
    rw [Table.modify_apply, if_pos rfl, hrow]
    rfl

/-- **The handler of a result** that is no capacity failure. -/
theorem result_follows {payload : DaemonTaskResultPayload} {status : TaskStatus}
    (hid : payload.taskId = .id taskId) (hstatus : payload.status = .status status)
    (hcapacity : TasksService.isRetryableCapacityFailure payload = false) :
    (TasksService.handleDaemonTaskResult env payload).Follows (Stored taskId)
      (HandlerMove env taskId status) (fun _ _ _ => True) .fresh h := by
  have hrefl := Stored.refl taskId
  refine .ite (fun h => by rw [hcapacity] at h; cases h) fun _ => ?_
  rw [hid, hstatus]
  have hrest : ∀ (a : RacePhase) (target : Option TaskAttemptId) (s : Hub),
      (a = .found none 1 ∧ target = none ∨ ∃ id, a = .closed id ∧ target = some id) →
      (do
        let updated ← TasksService.updateStatus env (.id taskId) (.status status) payload.result
        let title := if StatusRef.status status = .status .COMPLETED then js "작업 완료"
          else js "작업 실패"
        NotificationsService.sendPush env updated.2.2.ownerId title
          (js "작업(" ++ JsString.ofNat updated.1 ++ js ")이 " ++ title ++ js "되었습니다.") :
            HubM Unit).Follows (Stored taskId) (HandlerMove env taskId status)
        (fun _ _ _ => True) a s := by
    intro a target s ha
    refine .bind hrefl (updateStatus_settles ha fun s₁ outcome => ?_)
    cases outcome with
    | error error => trivial
    | ok updated => exact rest_follows (sendPush_quiet _ _ _) fun _ _ => trivial
  refine .bind hrefl (.bind hrefl (Proc.follows_read fun s₁ h₁ => ⟨_, .find fun _ => rfl,
    fun s₂ h₂ => ?_⟩))
  cases hfound : latestActive env s₁.attempts (fun other => other == taskId) with
  | none => exact Proc.follows_pure fun s₃ _ => hrest _ none _ (.inl ⟨rfl, rfl⟩)
  | some found =>
    obtain ⟨id, attempt⟩ := found
    have hstored : (s₁.attempts id).isSome = true := by
      rw [(latestActive_some hfound).1]
      rfl
    refine .bind hrefl (Proc.follows_take fun s₃ h₃ => ⟨_, .clock (by omega) fun _ => rfl,
      fun s₄ h₄ => ?_⟩)
    refine .bind hrefl (Proc.follows_take fun s₅ h₅ => ⟨_, .clock (by omega) fun _ => rfl,
      fun s₆ h₆ => ?_⟩)
    have hquiet : ∀ s : Hub, Stored taskId s { s with reads := s.reads + 1 } :=
      fun s => .of_quiet _ _ rfl
    refine attemptUpdate_closes (fun row => ?_) ?_ fun s₇ => hrest _ (some id) _
      (.inr ⟨id, rfl, rfl⟩)
    · change (if StatusRef.status status = .status .COMPLETED then TaskAttemptStatus.SUCCEEDED
        else .FAILED) = closingStatus status
      unfold closingStatus
      simp only [StatusRef.status.injEq]
    · exact (h₂.trans (h₃.trans ((hquiet s₃).trans (h₄.trans (h₅.trans ((hquiet s₅).trans
        h₆)))))).attempts id hstored

/-! ## The race -/

/-- The protocols of the programs. -/
def raceMove (env : Env) (taskId : TaskId) (status : TaskStatus) (rivals : List Rival) :
    ℕ → RacePhase → (Hub → Hub) → Hub → RacePhase → Prop
  | 0 => HandlerMove env taskId status
  | j + 1 => RivalMove taskId (rivals[j]?.elim 0 (·.readsAt))

/-- The handler has done nothing, and the rivals have read nothing. -/
def startRace : ℕ → RacePhase
  | 0 => .fresh
  | _ + 1 => .before 0

/-- The phase of the handler, by its past. -/
def HandlerAt (env : Env) (taskId : TaskId) (thread : Thread Hub HubError Unit) :
    RacePhase → Prop
  | .fresh => thread.past = []
  | .found target n => thread.past.length = n ∧ 1 ≤ n ∧ n ≤ 3 ∧ (target = none → n = 1) ∧
      attemptFound env taskId thread = target
  | .closed id => thread.past.length = 4 ∧ attemptFound env taskId thread = some id
  | .settled target => setsStatusAt target < thread.past.length ∧
      attemptFound env taskId thread = target
  | .before _ | .read _ | .leaving _ => False

/-- The phase of a rival, by its past. -/
def RivalAt (k : ℕ) (thread : Thread Hub HubError Unit) : RacePhase → Prop
  | .before n => thread.past.length = n ∧ n ≤ k
  | .read _ | .leaving _ => k < thread.past.length
  | .fresh | .found _ _ | .closed _ | .settled _ => False

/-- What is written of the result: the attempt it closes, and whether the status is
set. -/
def RacePhase.written : RacePhase → Option (Option TaskAttemptId × Bool)
  | closed id => some (some id, false)
  | settled target => some (target, true)
  | fresh | found _ _ | before _ | read _ | leaving _ => none

/-- **A rival that cannot undo what is written**: it has not read the task, or it has
read it with what is written, or it leaves it alone. -/
def RacePhase.Spares (taskId : TaskId) (found : Option TaskAttemptId) (set : Bool) :
    RacePhase → Prop
  | before _ => True
  | read h₀ => (∀ id ∈ found, ∃ old, h₀.attempts id = some old ∧ old.active = false) ∧
      (set = true → h₀.terminalAt taskId = true)
  | leaving target => target = found
  | fresh | RacePhase.found _ _ | closed _ | settled _ => False

/-- What is written is there. -/
structure InPlace (taskId : TaskId) (status : TaskStatus) (found : Option TaskAttemptId)
    (set : Bool) (h : Hub) : Prop where
  attempt : ∀ id ∈ found, ∃ attempt, h.attempts id = some attempt ∧
    attempt.status = closingStatus status
  status : set = true → h.statusOf taskId = some status

/-- **The invariant of the race.** -/
structure Race (env : Env) (taskId : TaskId) (status : TaskStatus) (rivals : List Rival)
    (phase : ℕ → RacePhase) (P : ResultPool) : Prop where
  length : P.threads.length = rivals.length + 1
  stored : (P.shared.tasks taskId).isSome = true
  handler : ∀ thread, P.threads[0]? = some thread → HandlerAt env taskId thread (phase 0)
  rival : ∀ j thread, P.threads[j + 1]? = some thread →
    RivalAt (rivals[j]?.elim 0 (·.readsAt)) thread (phase (j + 1))
  target : ∀ id n, phase 0 = .found (some id) n → (P.shared.attempts id).isSome = true
  kept : ∀ found set, (phase 0).written = some (found, set) →
    InPlace taskId status found set P.shared ∧
      ∀ j thread, P.threads[j + 1]? = some thread → (phase (j + 1)).Spares taskId found set

/-- A result closes the attempt. -/
theorem closingStatus_inactive (status : TaskStatus) : (closingStatus status).active = false := by
  unfold closingStatus
  split <;> rfl

variable {status : TaskStatus} {rivals : List Rival} {phase : ℕ → RacePhase} {P : ResultPool}
  {found : Option TaskAttemptId} {set : Bool} {a a' : RacePhase} {update : Hub → Hub} {k : ℕ}

/-- A rival removes nothing. -/
theorem RivalMove.stored (hmove : RivalMove taskId k a update h a') :
    Stored taskId h (update h) := by
  cases hmove with
  | wait _ hquiet => exact .of_quiet _ _ (hquiet h)
  | read hquiet => exact .of_quiet _ _ (hquiet h)
  | act hbound => exact (hbound h).toStored
  | leave hleaves => exact (hleaves h).toStored

/-- Nor does the handler. -/
theorem HandlerMove.stored (hmove : HandlerMove env taskId status a update h a') :
    Stored taskId h (update h) := by
  cases hmove with
  | find hquiet => exact .of_quiet _ _ (hquiet h)
  | clock _ hquiet => exact .of_quiet _ _ (hquiet h)
  | close hstored _ => exact hstored h
  | set _ hstored _ _ => exact hstored h
  | rest hquiet => exact .of_quiet _ _ (hquiet h)

/-- What is written stays through quiet nodes. -/
theorem InPlace.of_quiet (hplace : InPlace taskId status found set h) (hquiet : Quiet h h') :
    InPlace taskId status found set h' := by
  have htasks : h'.tasks = h.tasks := congrArg Rows.tasks hquiet
  have hattempts : h'.attempts = h.attempts := congrArg Rows.attempts hquiet
  refine ⟨fun id hid => ?_, fun hset => ?_⟩
  · rw [hattempts]
    exact hplace.attempt id hid
  · unfold Hub.statusOf
    rw [htasks]
    exact hplace.status hset

/-- **A rival that spares the result keeps it in place**, and goes on sparing it: who
reads the task now finds it terminal, and the attempt closed. -/
theorem RivalMove.keeps (hmove : RivalMove taskId k a update h a')
    (hspares : a.Spares taskId found set) (hplace : InPlace taskId status found set h)
    (hterminal : status.terminal = true) :
    InPlace taskId status found set (update h) ∧ a'.Spares taskId found set := by
  cases hmove with
  | wait _ hquiet => exact ⟨hplace.of_quiet (hquiet h), trivial⟩
  | read hquiet =>
      refine ⟨hplace.of_quiet (hquiet h), fun id hid => ?_, fun hset => ?_⟩
      · obtain ⟨attempt, hrow, hstatus⟩ := hplace.attempt id hid
        refine ⟨attempt, hrow, ?_⟩
        unfold TaskAttempt.active
        rw [hstatus]
        exact closingStatus_inactive status
      · unfold Hub.terminalAt
        rw [hplace.status hset]
        exact hterminal
  | act hbound =>
      refine ⟨⟨fun id hid => ?_, fun hset => ?_⟩, hspares⟩
      · obtain ⟨attempt, hrow, hstatus⟩ := hplace.attempt id hid
        obtain ⟨old, hold, hclosed⟩ := hspares.1 id hid
        exact ⟨attempt, (hbound h).closed id old hold hclosed attempt hrow, hstatus⟩
      · rw [(hbound h).status (hspares.2 hset)]
        exact hplace.status hset
  | leave hleaves =>
      obtain rfl := hspares
      refine ⟨⟨fun id hid => ?_, fun hset => ?_⟩, rfl⟩
      · obtain ⟨attempt, hrow, hstatus⟩ := hplace.attempt id hid
        exact ⟨attempt, (hleaves h).attempt id hid attempt hrow, hstatus⟩
      · rw [(hleaves h).status]
        exact hplace.status hset

variable {thread : Thread Hub HubError Unit} {program : HubM Unit} {visit : Hub × Hub}

/-- The past of a rival grows as its phase says. -/
theorem RivalMove.past (hmove : RivalMove taskId k a update h a') (hat : RivalAt k thread a) :
    RivalAt k ⟨program, thread.past ++ [visit]⟩ a' := by
  cases hmove with
  | wait hn _ =>
      obtain ⟨hlength, hle⟩ := hat
      refine ⟨by rw [List.length_append, hlength]; rfl, by omega⟩
  | read _ =>
      show k < (thread.past ++ [visit]).length
      rw [List.length_append, hat.1]
      exact Nat.lt_succ_self k
  | act _ =>
      have hlt : k < thread.past.length := hat
      show k < (thread.past ++ [visit]).length
      rw [List.length_append]
      omega
  | leave _ =>
      have hlt : k < thread.past.length := hat
      show k < (thread.past ++ [visit]).length
      rw [List.length_append]
      omega

/-- What the handler found it found at its first node. -/
theorem attemptFound_append (hpast : thread.past ≠ []) :
    attemptFound env taskId ⟨program, thread.past ++ [visit]⟩ = attemptFound env taskId thread := by
  unfold attemptFound
  cases hlist : thread.past with
  | nil => exact absurd hlist hpast
  | cons first rest => rfl

/-- **A node of a rival.** -/
theorem Race.rival_step (hR : Race env taskId status rivals phase P)
    (hterminal : status.terminal = true) {j : ℕ} (hlive : P.live (j + 1) = true)
    (hshared : (P.step (j + 1)).shared = update P.shared)
    (hmove : RivalMove taskId (rivals[j]?.elim 0 (·.readsAt)) (phase (j + 1)) update P.shared a') :
    Race env taskId status rivals (Function.update phase (j + 1) a') (P.step (j + 1)) := by
  obtain ⟨thread, program, shared, hthread, hnode, -⟩ := Pool.step_of_live hlive
  obtain ⟨-, hself⟩ := Pool.step_self hthread hnode
  have hzero : Function.update phase (j + 1) a' 0 = phase 0 :=
    Function.update_of_ne (Nat.succ_ne_zero j).symm _ _
  have hfirst : (P.step (j + 1)).threads[0]? = P.threads[0]? :=
    Pool.step_other (Nat.succ_ne_zero j).symm
  refine ⟨Pool.step_length.trans hR.length, ?_, fun handler hhandler => ?_,
    fun l other hother => ?_, fun id n htarget => ?_, fun found set hwritten => ?_⟩
  · rw [hshared]
    exact hmove.stored.tasks hR.stored
  · rw [hzero]
    rw [hfirst] at hhandler
    exact hR.handler handler hhandler
  · by_cases heq : l = j
    · subst heq
      rw [hself, Option.some.injEq] at hother
      rw [Function.update_self, ← hother]
      exact hmove.past (hR.rival l thread hthread)
    · have hne : l + 1 ≠ j + 1 := fun h => heq (Nat.succ.inj h)
      rw [Pool.step_other hne] at hother
      rw [Function.update_of_ne hne]
      exact hR.rival l other hother
  · rw [hzero] at htarget
    rw [hshared]
    exact hmove.stored.attempts id (hR.target id n htarget)
  · rw [hzero] at hwritten
    -- what the handler has written stays, as each rival spares it
    obtain ⟨hplace, hspares⟩ := hR.kept found set hwritten
    obtain ⟨hplace', hspares'⟩ := hmove.keeps (hspares j thread hthread) hplace hterminal
    rw [hshared]
    refine ⟨hplace', fun l other hother => ?_⟩
    by_cases heq : l = j
    · rw [heq, Function.update_self]
      exact hspares'
    · have hne : l + 1 ≠ j + 1 := fun h => heq (Nat.succ.inj h)
      rw [Pool.step_other hne] at hother
      rw [Function.update_of_ne hne]
      exact hspares l other hother

/-- Where a node leaves the handler. -/
theorem HandlerMove.past {shared : Hub} (hmove : HandlerMove env taskId status a update h a')
    (hat : HandlerAt env taskId thread a) :
    HandlerAt env taskId ⟨program, thread.past ++ [(h, shared)]⟩ a' := by
  have hlength : (thread.past ++ [(h, shared)]).length = thread.past.length + 1 :=
    List.length_append
  have hkeeps : ∀ {target}, 0 < thread.past.length → attemptFound env taskId thread = target →
      attemptFound env taskId ⟨program, thread.past ++ [(h, shared)]⟩ = target :=
    fun hpos hfound => (attemptFound_append (List.length_pos_iff.mp hpos)).trans hfound
  cases hmove with
  | find hquiet =>
      have hpast : thread.past = [] := hat
      refine ⟨by rw [hlength, hpast]; rfl, le_rfl, by omega, fun _ => rfl, ?_⟩
      unfold attemptFound
      rw [hpast]
      rfl
  | clock hn hquiet =>
      obtain ⟨hpast, hone, hthree, -, hfound⟩ := hat
      exact ⟨by rw [hlength, hpast], by omega, by omega, nofun, hkeeps (by omega) hfound⟩
  | close hstored hclosed =>
      obtain ⟨hpast, -, -, -, hfound⟩ := hat
      exact ⟨by rw [hlength, hpast], hkeeps (by omega) hfound⟩
  | set ha hstored hset hattempts =>
      -- without an attempt the status is set right away
      rcases ha with ⟨rfl, rfl⟩ | ⟨id, rfl, rfl⟩
      · obtain ⟨hpast, -, -, -, hfound⟩ := hat
        exact ⟨by rw [hlength, hpast]; decide, hkeeps (by omega) hfound⟩
      · obtain ⟨hpast, hfound⟩ := hat
        exact ⟨by rw [hlength, hpast]; exact Nat.lt_succ_self 4, hkeeps (by omega) hfound⟩
  | rest hquiet =>
      obtain ⟨hpast, hfound⟩ := hat
      exact ⟨by rw [hlength]; omega, hkeeps (Nat.zero_lt_of_lt hpast) hfound⟩

/-- The attempt that was found is there. -/
theorem HandlerMove.target (hmove : HandlerMove env taskId status a update h a')
    (htarget : ∀ id n, a = .found (some id) n → (h.attempts id).isSome = true) {id : TaskAttemptId}
    {n : ℕ} (hfound : a' = .found (some id) n) : ((update h).attempts id).isSome = true := by
  cases hmove with
  | find hquiet =>
      injection hfound with hid
      obtain ⟨found, hlatest, rfl⟩ := Option.map_eq_some_iff.mp hid
      rw [show (update h).attempts = h.attempts from congrArg Rows.attempts (hquiet h),
        (latestActive_some hlatest).1]
      rfl
  | @clock other m _ _ hn hquiet =>
      injection hfound with hsame
      injection hsame with hsame
      rw [show (update h).attempts = h.attempts from congrArg Rows.attempts (hquiet h), ← hsame]
      exact htarget other m rfl
  | close => cases hfound
  | set => cases hfound
  | rest => cases hfound

/-- **What a node of the handler has written**: it was about to write, or leaves it in place. -/
theorem Race.handler_writes (hR : Race env taskId status rivals phase P)
    (hthread : P.threads[0]? = some thread)
    (hmove : HandlerMove env taskId status (phase 0) update P.shared a')
    (hspares : writesNext env taskId thread = true → ∀ set j other,
      P.threads[j + 1]? = some other →
        (phase (j + 1)).Spares taskId (attemptFound env taskId thread) set)
    (hwritten : a'.written = some (found, set)) :
    InPlace taskId status found set (update P.shared) ∧
      ∀ j other, P.threads[j + 1]? = some other → (phase (j + 1)).Spares taskId found set := by
  have hat := hR.handler thread hthread
  have htarget := hR.target
  have hkept := hR.kept
  generalize phase 0 = a at hmove hat htarget hkept
  cases hmove with
  | find => cases hwritten
  | clock => cases hwritten
  | close hstored hclosed =>
      cases hwritten
      obtain ⟨hpast, -, -, -, hfound⟩ := hat
      have hwrites : writesNext env taskId thread = true := by
        unfold writesNext
        rw [hfound, hpast]
        rfl
      rw [← hfound]
      refine ⟨⟨fun id hid => ?_, nofun⟩, hspares hwrites false⟩
      rw [hfound] at hid
      obtain rfl := Option.mem_some_iff.mp hid
      exact hclosed P.shared (htarget _ _ rfl)
  | set ha hstored hset hattempts =>
      cases hwritten
      rcases ha with ⟨rfl, rfl⟩ | ⟨id, rfl, rfl⟩
      · obtain ⟨hpast, -, -, -, hfound⟩ := hat
        have hwrites : writesNext env taskId thread = true := by
          unfold writesNext
          rw [hfound, hpast]
          rfl
        rw [← hfound]
        refine ⟨⟨fun id hid => ?_, fun _ => hset P.shared hR.stored⟩, hspares hwrites true⟩
        rw [hfound] at hid
        cases hid
      · obtain ⟨hpast, hfound⟩ := hat
        have hwrites : writesNext env taskId thread = true := by
          unfold writesNext
          rw [hfound, hpast]
          rfl
        -- the attempt was closed before
        obtain ⟨hplace, -⟩ := hkept (some id) false rfl
        refine ⟨⟨?_, fun _ => hset P.shared hR.stored⟩, ?_⟩
        · rw [hattempts]
          exact hplace.attempt
        · rw [← hfound]
          exact hspares hwrites true
  | rest hquiet =>
      cases hwritten
      obtain ⟨hplace, hspare⟩ := hkept found true rfl
      exact ⟨hplace.of_quiet (hquiet P.shared), hspare⟩

/-- **A node of the handler**, where its rivals spare what it is about to write. -/
theorem Race.handler_step (hR : Race env taskId status rivals phase P)
    (hlive : P.live 0 = true) (hshared : (P.step 0).shared = update P.shared)
    (hmove : HandlerMove env taskId status (phase 0) update P.shared a')
    (hspares : ∀ thread, P.threads[0]? = some thread → writesNext env taskId thread = true →
      ∀ set j other, P.threads[j + 1]? = some other →
        (phase (j + 1)).Spares taskId (attemptFound env taskId thread) set) :
    Race env taskId status rivals (Function.update phase 0 a') (P.step 0) := by
  obtain ⟨thread, program, shared, hthread, hnode, -⟩ := Pool.step_of_live hlive
  obtain ⟨-, hself⟩ := Pool.step_self hthread hnode
  have hother : ∀ j, (P.step 0).threads[j + 1]? = P.threads[j + 1]? :=
    fun j => Pool.step_other (Nat.succ_ne_zero j)
  have hrivals : ∀ j, Function.update phase 0 a' (j + 1) = phase (j + 1) :=
    fun j => Function.update_of_ne (Nat.succ_ne_zero j) _ _
  refine ⟨Pool.step_length.trans hR.length, ?_, fun handler hhandler => ?_,
    fun j other hj => ?_, fun id n hfound => ?_, fun found set hwritten => ?_⟩
  · rw [hshared]
    exact hmove.stored.tasks hR.stored
  · rw [hself, Option.some.injEq] at hhandler
    rw [Function.update_self, ← hhandler]
    exact hmove.past (hR.handler thread hthread)
  · rw [hother] at hj
    rw [hrivals]
    exact hR.rival j other hj
  · rw [Function.update_self] at hfound
    rw [hshared]
    exact hmove.target hR.target hfound
  · rw [Function.update_self] at hwritten
    obtain ⟨hplace, hspare⟩ := hR.handler_writes hthread hmove (hspares thread hthread) hwritten
    rw [hshared]
    refine ⟨hplace, fun j other hj => ?_⟩
    rw [hother] at hj
    rw [hrivals]
    exact hspare j other hj

/-- The protocols of the race, in a state of it. -/
abbrev RaceFollows (env : Env) (taskId : TaskId) (status : TaskStatus) (rivals : List Rival)
    (phase : ℕ → RacePhase) (P : ResultPool) : Prop :=
  P.Follows (Stored taskId) (raceMove env taskId status rivals) (fun _ _ _ _ => True) phase

/-- The phases of rivals that are known to leave the result alone. -/
def calmed (rivals : List Rival) (P : ResultPool) (found : Option TaskAttemptId)
    (phase : ℕ → RacePhase) : ℕ → RacePhase
  | 0 => phase 0
  | j + 1 =>
    match P.threads[j + 1]? with
    | some other =>
      if other.past.length ≤ rivals[j]?.elim 0 (·.readsAt) then phase (j + 1) else .leaving found
    | none => phase (j + 1)

/-- **Before a write of the handler** every rival spares what is written, by the
condition on the schedule. -/
theorem Race.calm (hR : Race env taskId status rivals phase P)
    (hP : RaceFollows env taskId status rivals phase P)
    (hclear : ∀ j rival other, rivals[j]? = some rival → P.threads[j + 1]? = some other →
      other.past.length ≤ rival.readsAt ∨ other.program.Guarantees (Leaves taskId found))
    (hwritten : ∀ target set, (phase 0).written = some (target, set) → target = found) :
    RaceFollows env taskId status rivals (calmed rivals P found phase) P ∧
      Race env taskId status rivals (calmed rivals P found phase) P ∧
      ∀ set j other, P.threads[j + 1]? = some other →
        (calmed rivals P found phase (j + 1)).Spares taskId found set := by
  -- a rival that has not read the task keeps its phase, any other one leaves the result alone
  have hcases : ∀ j other, P.threads[j + 1]? = some other →
      (other.past.length ≤ rivals[j]?.elim 0 (·.readsAt) ∧
        calmed rivals P found phase (j + 1) = phase (j + 1)) ∨
      (rivals[j]?.elim 0 (·.readsAt) < other.past.length ∧
        calmed rivals P found phase (j + 1) = .leaving found ∧
        other.program.Guarantees (Leaves taskId found)) := by
    intro j other hother
    have hcalm : calmed rivals P found phase (j + 1) =
        if other.past.length ≤ rivals[j]?.elim 0 (·.readsAt) then phase (j + 1)
        else .leaving found := by
      unfold calmed
      dsimp only
      rw [hother]
    rw [hcalm]
    by_cases hread : other.past.length ≤ rivals[j]?.elim 0 (·.readsAt)
    · exact .inl ⟨hread, if_pos hread⟩
    · obtain ⟨hlt, -⟩ := List.getElem?_eq_some_iff.mp hother
      have hj : j < rivals.length := by
        have := hR.length
        omega
      have hrival : rivals[j]? = some rivals[j] := List.getElem?_eq_getElem hj
      rw [hrival, Option.elim_some] at hread ⊢
      exact .inr ⟨by omega, if_neg hread, (hclear j _ other hrival hother).resolve_left hread⟩
  have hspares : ∀ set j other, P.threads[j + 1]? = some other →
      (calmed rivals P found phase (j + 1)).Spares taskId found set := by
    intro set j other hother
    rcases hcases j other hother with ⟨hread, hphase⟩ | ⟨-, hphase, -⟩
    · rw [hphase]
      have hat := hR.rival j other hother
      cases hnow : phase (j + 1) with
      | before n => trivial
      | read h₀ => rw [hnow] at hat; exact absurd hat (by simpa [RivalAt] using hread)
      | leaving target => rw [hnow] at hat; exact absurd hat (by simpa [RivalAt] using hread)
      | fresh | found | closed | settled => rw [hnow] at hat; exact hat.elim
    · rw [hphase]
      rfl
  refine ⟨fun i other hother => ?_, ⟨hR.length, hR.stored, hR.handler, fun j other hother => ?_,
    hR.target, fun target set htarget => ?_⟩, hspares⟩
  · cases i with
    | zero => exact hP 0 other hother
    | succ j =>
      rcases hcases j other hother with ⟨-, hphase⟩ | ⟨-, hphase, hleaves⟩
      · rw [hphase]
        exact hP (j + 1) other hother
      · rw [hphase]
        exact hleaves.follows (@Stored.trans taskId)
          (fun update h s => ⟨.leave h, (h s).toStored⟩) fun _ _ _ => trivial
  · rcases hcases j other hother with ⟨-, hphase⟩ | ⟨hlt, hphase, -⟩
    · rw [hphase]
      exact hR.rival j other hother
    · rw [hphase]
      exact hlt
  · obtain ⟨hplace, -⟩ := hR.kept target set htarget
    obtain rfl := hwritten target set htarget
    exact ⟨hplace, hspares set⟩

/-- So nobody in the pool does, and the task stays stored. -/
theorem raceMove_stored (i : ℕ) (a : RacePhase) (update : Hub → Hub) (s : Hub) (a' : RacePhase)
    (hmove : raceMove env taskId status rivals i a update s a') : Stored taskId s (update s) := by
  cases i with
  | zero => exact HandlerMove.stored hmove
  | succ j => exact RivalMove.stored hmove

/-- **The step lemma.** -/
theorem Race.step (hterminal : status.terminal = true) {i : ℕ} (hlive : P.live i = true)
    (hcond : ResultPool.Unraced env taskId rivals P i)
    (hrace : ∃ phase, RaceFollows env taskId status rivals phase P ∧
      Race env taskId status rivals phase P) :
    ∃ phase, RaceFollows env taskId status rivals phase (P.step i) ∧
      Race env taskId status rivals phase (P.step i) := by
  obtain ⟨phase, hP, hR⟩ := hrace
  cases i with
  | succ j =>
      obtain ⟨update, a', -, hshared, hmove, hnext⟩ := hP.step (Stored.refl taskId)
        (@Stored.trans taskId) raceMove_stored hlive
      exact ⟨_, hnext, hR.rival_step hterminal hlive hshared hmove⟩
  | zero =>
    obtain ⟨thread, -, -, hthread, -⟩ := Pool.step_of_live hlive
    have hwritten : ∀ target set, (phase 0).written = some (target, set) →
        target = attemptFound env taskId thread := by
      intro target set hsome
      have hat := hR.handler thread hthread
      cases hnow : phase 0 with
      | closed id => rw [hnow] at hat hsome; cases hsome; exact hat.2.symm
      | settled id => rw [hnow] at hat hsome; cases hsome; exact hat.2.symm
      | fresh | found | before | read | leaving => rw [hnow] at hsome; cases hsome
    obtain ⟨phase', hP', hR', hspares⟩ : ∃ phase', RaceFollows env taskId status rivals phase' P ∧
        Race env taskId status rivals phase' P ∧
        (writesNext env taskId thread = true → ∀ set j other, P.threads[j + 1]? = some other →
          (phase' (j + 1)).Spares taskId (attemptFound env taskId thread) set) := by
      by_cases hwrites : writesNext env taskId thread = true
      · obtain ⟨hP', hR', hspares⟩ := hR.calm hP (hcond rfl thread hthread hwrites) hwritten
        exact ⟨_, hP', hR', fun _ => hspares⟩
      · exact ⟨phase, hP, hR, fun h => absurd h hwrites⟩
    obtain ⟨update, a', -, hshared, hmove, hnext⟩ := hP'.step (Stored.refl taskId)
      (@Stored.trans taskId) raceMove_stored hlive
    refine ⟨_, hnext, hR'.handler_step hlive hshared hmove fun other hother => ?_⟩
    rw [hthread, Option.some.injEq] at hother
    rw [← hother]
    exact hspares

/-! ## All schedules -/

variable {payload : DaemonTaskResultPayload}

/-- At the beginning nobody has read anything. -/
theorem race_start (hid : payload.taskId = .id taskId) (hstatus : payload.status = .status status)
    (hcapacity : TasksService.isRetryableCapacityFailure payload = false)
    (hstored : (h.tasks taskId).isSome = true) :
    RaceFollows env taskId status rivals startRace (resultPool env h payload taskId rivals) ∧
      Race env taskId status rivals startRace (resultPool env h payload taskId rivals) := by
  have hrival : ∀ j thread, (resultPool env h payload taskId rivals).threads[j + 1]? = some thread →
      ∃ rival, rivals[j]? = some rival ∧ thread = ⟨rival.program env taskId, []⟩ := by
    intro j thread hthread
    unfold resultPool Pool.start at hthread
    rw [List.map_cons, List.getElem?_cons_succ, List.map_map, List.getElem?_map,
      Option.map_eq_some_iff] at hthread
    obtain ⟨rival, hrival, rfl⟩ := hthread
    exact ⟨rival, hrival, rfl⟩
  refine ⟨fun i thread hthread => ?_, ?_, hstored, fun thread hthread => ?_,
    fun j thread hthread => ?_, nofun, nofun⟩
  · cases i with
    | zero =>
        cases hthread
        exact result_follows hid hstatus hcapacity
    | succ j =>
        obtain ⟨rival, hrival, rfl⟩ := hrival j thread hthread
        change (rival.program env taskId).Follows (Stored taskId)
          (RivalMove taskId (rivals[j]?.elim 0 (·.readsAt))) (fun _ _ _ => True) (.before 0) h
        rw [hrival, Option.elim_some]
        cases rival with
        | process => exact process_follows
        | scan => exact scan_follows
  · unfold resultPool Pool.start
    rw [List.length_map, List.length_cons, List.length_map]
  · cases hthread
    rfl
  · obtain ⟨rival, -, rfl⟩ := hrival j thread hthread
    exact ⟨rfl, Nat.zero_le _⟩

/-- **A committed result is not undone** by jobs and scans, where neither of its writes
falls between what one of them reads and writes of the task: the status stays what the
result set, and the attempt it found stays closed. -/
theorem result_kept (hid : payload.taskId = .id taskId)
    (hstatus : payload.status = .status status)
    (hresult : status = .COMPLETED ∨ status = .FAILED)
    (hcapacity : TasksService.isRetryableCapacityFailure payload = false)
    (hstored : (h.tasks taskId).isSome = true) {schedule : List ℕ}
    (hruns : resultMachine.Runs (resultPool env h payload taskId rivals) schedule)
    (hcond : ∀ visit ∈ resultMachine.visits (resultPool env h payload taskId rivals) schedule,
      ResultPool.Unraced env taskId rivals visit.1 visit.2) :
    ResultPool.Kept env taskId status
      (resultMachine.exec (resultPool env h payload taskId rivals) schedule) := by
  have hterminal : status.terminal = true := by
    rcases hresult with rfl | rfl <;> rfl
  have hrace : ∃ phase, RaceFollows env taskId status rivals phase
        (resultMachine.exec (resultPool env h payload taskId rivals) schedule) ∧
      Race env taskId status rivals phase
        (resultMachine.exec (resultPool env h payload taskId rivals) schedule) :=
    Machine.exec_invariant (M := resultMachine) (C := ResultPool.Unraced env taskId rivals)
      (I := fun P => ∃ phase, RaceFollows env taskId status rivals phase P ∧
        Race env taskId status rivals phase P)
      ⟨startRace, race_start hid hstatus hcapacity hstored⟩
      (fun P i hrace hlive hclear => Race.step hterminal hlive hclear hrace) hruns hcond
  obtain ⟨phase, -, hR⟩ := hrace
  intro thread hthread hcommitted
  have hlt := of_decide_eq_true hcommitted
  have hat := hR.handler thread hthread
  -- a handler that has committed is past its last write
  cases hphase : phase 0 with
  | settled target =>
      rw [hphase] at hat
      obtain ⟨hplace, -⟩ := hR.kept target true (by rw [hphase]; rfl)
      rw [hat.2]
      exact ⟨hplace.status rfl, hplace.attempt⟩
  | fresh =>
      rw [hphase] at hat
      rw [show thread.past = [] from hat] at hlt
      cases hlt
  | closed id =>
      rw [hphase] at hat
      rw [hat.1, hat.2] at hlt
      exact absurd hlt (Nat.lt_irrefl 4)
  | found target n =>
      rw [hphase] at hat
      obtain ⟨hpast, -, hthree, hnone, hfound⟩ := hat
      rw [hpast, hfound] at hlt
      cases target with
      | none =>
          rw [hnone rfl] at hlt
          exact absurd hlt (Nat.lt_irrefl 1)
      | some id =>
          have hfour : 4 < n := hlt
          omega
  | before | read | leaving => rw [hphase] at hat; exact hat.elim

/-- Rivals that have ended, or not begun, meet the condition. -/
theorem unraced_of_ended {i : ℕ}
    (hall : i = 0 → (rivals.zip P.threads.tail).all (fun pair =>
      decide (pair.2.past.length ≤ pair.1.readsAt) || pair.2.program.outcome?.isSome) = true) :
    ResultPool.Unraced env taskId rivals P i := by
  intro hi thread _ _ j rival other hrival hother
  have hpair : (rival, other) ∈ rivals.zip P.threads.tail := by
    refine List.mem_of_getElem? (i := j) ?_
    rw [List.getElem?_zip_eq_some, List.getElem?_tail]
    exact ⟨hrival, hother⟩
  have hended := List.all_eq_true.mp (hall hi) _ hpair
  rw [Bool.or_eq_true, decide_eq_true_eq] at hended
  refine hended.imp_right fun hsome => ?_
  obtain ⟨outcome, houtcome⟩ := Option.isSome_iff_exists.mp hsome
  exact Proc.guarantees_of_outcome? houtcome

end Rivals

/-- The calls that leave task 0 queued, with a job for it. -/
def sampleQueued : List HubCall := sampleConnects ++ [.submit 0 ⟨0, .CODEX, sampleInput⟩]

/-- The child failed at once. -/
def sampleFailure : DaemonTaskResultPayload := ⟨.id 0, .status .FAILED, none, none⟩

/-- A job, then the result, then a scan. -/
theorem result_kept_in_turn :
    let h := (hubMachine Env.sample HubCall.Typed).exec Hub.sample sampleQueued
    let schedule := List.replicate 11 1 ++ List.replicate 7 0 ++ [2, 2]
    ResultPool.Kept Env.sample 0 .FAILED
      (resultMachine.exec (resultPool Env.sample h sampleFailure 0 [.process, .scan])
        schedule) := by
  intro h schedule
  exact @result_kept Env.sample 0 h .FAILED [.process, .scan] sampleFailure rfl rfl (.inr rfl) rfl
    (by decide) schedule (by decide) fun visit hvisit => unraced_of_ended
      ((by decide : ∀ visit ∈ resultMachine.visits (resultPool Env.sample h sampleFailure 0
        [.process, .scan]) schedule, visit.2 = 0 →
          ([Rival.process, .scan].zip visit.1.threads.tail).all (fun pair =>
            decide (pair.2.past.length ≤ pair.1.readsAt) ||
              pair.2.program.outcome?.isSome) = true) visit hvisit)

/-- **A finished task is set running again**: the result is handled after the job has
sent the task, and before the job records it. -/
theorem result_not_kept :
    let h := (hubMachine Env.sample HubCall.Typed).exec Hub.sample sampleQueued
    let schedule := List.replicate 8 1 ++ List.replicate 7 0 ++ [1, 1, 1]
    let P := resultMachine.exec (resultPool Env.sample h sampleFailure 0 [.process]) schedule
    (hubMachine Env.sample HubCall.Typed).Reachable h ∧
      resultMachine.Runs (resultPool Env.sample h sampleFailure 0 [.process]) schedule ∧
      P.shared.statusOf 0 = some .RUNNING ∧
      (P.shared.attempts 0).map (·.status) = some .RUNNING ∧
      ¬ResultPool.Kept Env.sample 0 .FAILED P := by
  intro h schedule P
  refine ⟨(Machine.Reachable.of_start Hub.sample_fresh).exec (by decide),
    by decide, by decide, by decide, fun hkept => ?_⟩
  have hcommitted : (P.threads[0]?).any (committed Env.sample 0) = true := by decide
  obtain ⟨thread, hthread, hdone⟩ := (Option.any_eq_true _ _).mp hcommitted
  exact absurd (hkept thread hthread hdone).1 (by decide)

end CodeCaller
