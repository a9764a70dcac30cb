import CodeCaller.Hub.Operations

/-!
# `TasksProcessor` as chains of effects

The pass over the candidates and the scan of the watchdog are the two loops of the Hub.  For each
there is a statement about one round, and an induction that carries what the remaining rounds need.

### The pass over the candidates

`dispatchLoop_spec` is by induction on the candidates.  What is carried is that the remaining
candidates are `Candidate`s still: an attempt that failed because its daemon was offline spends no
server (`offline_not_capacity`), so the attempts a pass opens do not exclude anybody.  A pass ends
in one of two ways, and `Dispatched` says which: some candidate was connected and has the task, or
none was, and the task is as it was but for its failed attempts.

`Processed` is what a whole job comes to.  It says more than that the rows move along effects: if
the processor returned, its task is not queued; if it threw, its task is queued and was not
dispatchable.  The queue relies on this.

### The scan

`scanLoop_reaches` is by induction on the rows that were read at the beginning.  What is carried is
that the rows not yet handled are still as they were read (`Stuck`), because a round only changes
the row it is about, and no task is read twice (`stuckTasks_nodup`).
-/

namespace CodeCaller

open Async

variable {env : Env} {call : HubCall} {h : Hub} {α β : Type}

/-! ## One candidate -/

/-- A rejected candidate spends no server: the text of the exception does not
start with the capacity prefix. -/
theorem offline_not_capacity (serverId : ServerId) :
    (HubError.offline serverId).message.startsWith RETRYABLE_CAPACITY_FAILURE_PREFIX = false := by
  rfl

/-- A candidate stays one when an attempt that spends no server is added. -/
theorem Rows.Candidate.insert {r : Rows} {taskId : TaskId} {serverId : ServerId}
    (hcandidate : r.Candidate taskId serverId) {attempt : TaskAttempt}
    (hunspent : spentAttempt attempt = false) :
    ({ r with attempts := r.attempts.insert attempt } : Rows).Candidate taskId serverId where
  queued := hcandidate.queued
  unspent id other hrow hid hspent := by
    change (r.attempts.insert attempt) id = some other at hrow
    rw [Table.insert_apply] at hrow
    split at hrow
    · cases hrow
      rw [hunspent] at hspent
      cases hspent
    · exact hcandidate.unspent id other hrow hid hspent

/-- A stored Codex task has an adapter, so all that can go wrong is the delivery. -/
theorem dispatchToCandidate_run {taskId : TaskId} {task : Task} {input : Json}
    {candidate : WorkerDispatchCandidate} (htask : h.tasks taskId = some task)
    (hcodex : task.workerType = .CODEX) :
    (TasksProcessor.dispatchToCandidate taskId input candidate).run h =
      (RealtimeService.dispatchToServer candidate.serverId (.TASK_SUBMIT taskId input)).run h := by
  unfold TasksProcessor.dispatchToCandidate Prisma.taskFindUnique
  rw [Proc.run_bind_of_ok (Proc.run_read _ h), htask]
  dsimp only
  rw [hcodex]
  rfl

/-- The `try` for a candidate that is not connected. -/
theorem tryCandidate_run_offline {taskId : TaskId} {task : Task} {input : Json}
    {id : TaskAttemptId} {candidate : WorkerDispatchCandidate}
    (htask : h.tasks taskId = some task) (hcodex : task.workerType = .CODEX)
    (honline : h.online candidate.serverId = false) :
    (TasksProcessor.tryCandidate env taskId input id candidate).run h =
      (.error (HubError.offline candidate.serverId), h) := by
  unfold TasksProcessor.tryCandidate
  refine Proc.run_bind_of_error ?_
  rw [dispatchToCandidate_run htask hcodex, dispatchToServer_run, honline]
  rfl

/-- The `try` for a candidate that is connected: the task is sent and moved, the
attempt is running. -/
theorem tryCandidate_run_online {taskId : TaskId} {task : Task} {attempt : TaskAttempt}
    {input : Json} {id : TaskAttemptId} {candidate : WorkerDispatchCandidate}
    (htask : h.tasks taskId = some task) (hcodex : task.workerType = .CODEX)
    (hserver : h.servers candidate.serverId ≠ none) (hattempt : h.attempts id = some attempt)
    (honline : h.online candidate.serverId = true) :
    ∃ h', (TasksProcessor.tryCandidate env taskId input id candidate).run h = (.ok (), h') ∧
      h'.rows = { h.rows with
        attempts := h.attempts.modify id (TaskAttempt.seen (env.clock (h.reads + 1)))
        tasks := h.tasks.modify taskId fun row =>
          { row with serverId := candidate.serverId, status := .RUNNING,
                     updatedAt := env.clock h.reads }
        emitted := h.emitted ++ [⟨candidate.serverId, .TASK_SUBMIT taskId input⟩] } := by
  unfold TasksProcessor.tryCandidate
  obtain ⟨h₁, hh₁⟩ : ∃ h₁ : Hub, h₁ = { h with
    emitted := h.emitted ++ [⟨candidate.serverId, .TASK_SUBMIT taskId input⟩] } := ⟨_, rfl⟩
  have hsend : (TasksProcessor.dispatchToCandidate taskId input candidate).run h =
      (.ok (), h₁) := by
    rw [dispatchToCandidate_run htask hcodex, dispatchToServer_run, honline, hh₁]
    rfl
  have htask₁ : h₁.tasks taskId = some task := by rw [hh₁]; exact htask
  have hserver₁ : h₁.servers candidate.serverId ≠ none := by rw [hh₁]; exact hserver
  rw [Proc.run_bind_of_ok hsend, Proc.run_bind_of_ok
    (taskUpdate_run_moved htask₁ (.inr hserver₁)), Proc.run_bind_of_ok now_run, hh₁]
  exact ⟨_, attemptUpdate_run hattempt, rfl⟩

/-- The `catch` for a candidate closes its attempt. -/
theorem recordFailure_run {id : TaskAttemptId} {attempt : TaskAttempt} {error : HubError}
    (hattempt : h.attempts id = some attempt) :
    (TasksProcessor.recordFailure env id error).run h =
      (.ok (), { h with
        attempts := h.attempts.modify id fun attempt =>
          { attempt with
            status := .FAILED
            failureReason := some error.message
            finishedAt := some (env.clock h.reads)
            lastSeenAt := env.clock (h.reads + 1) }
        reads := h.reads + 2 }) := by
  unfold TasksProcessor.recordFailure
  rw [Proc.run_bind_of_ok now_run, Proc.run_bind_of_ok now_run]
  exact attemptUpdate_run hattempt

/-! ## Dispatch -/

/-- What one pass over the candidates comes to: the first connected one took the
task, or none is connected and the task is as it was. -/
structure Dispatched (env : Env) (call : HubCall) (taskId : TaskId)
    (candidates : List WorkerDispatchCandidate) (h : Hub) (outcome : Option (List JsString))
    (h' : Hub) : Prop where
  chain : Relation.ReflTransGen (Effect env call) h.rows h'.rows
  jobs : h'.jobs = h.jobs
  taken : outcome = none → (∃ candidate ∈ candidates, h.online candidate.serverId = true) ∧
    ∃ task, h'.tasks taskId = some task ∧ task.status = .RUNNING
  left : ∀ failures, outcome = some failures →
    (∀ candidate ∈ candidates, h.online candidate.serverId = false) ∧ h'.tasks = h.tasks

/-- **The attempt of a candidate**, and what the `try` then finds. -/
theorem Rows.Candidate.attempted {taskId : TaskId} {serverId : ServerId}
    (hcandidate : h.rows.Candidate taskId serverId) :
    ∃ (task : Task) (attempt : TaskAttempt) (h₁ : Hub),
      attempt = ⟨taskId, serverId, .DISPATCHING, none, env.clock h.reads, env.clock h.reads, none⟩ ∧
      h₁ = { h with attempts := h.attempts.insert attempt, reads := h.reads + 1 } ∧
      (Prisma.taskAttemptCreate env taskId serverId .DISPATCHING).run h =
        (.ok (h.attempts.next, attempt), h₁) ∧
      h₁.tasks taskId = some task ∧ task.workerType = .CODEX ∧ h₁.servers serverId ≠ none ∧
      h₁.attempts h.attempts.next = some attempt := by
  obtain ⟨task, -, server, htask, -, hcodex, -, hserver, -, -⟩ := hcandidate.queued
  have hserver' : h.servers serverId ≠ none := ne_of_eq_of_ne hserver (Option.some_ne_none server)
  have htask' : h.tasks taskId ≠ none := ne_of_eq_of_ne htask (Option.some_ne_none task)
  obtain ⟨attempt, hattempt, hcreate⟩ :=
    @attemptCreate_run env h taskId serverId .DISPATCHING htask' hserver'
  exact ⟨task, attempt, _, hattempt, rfl, hcreate, htask, hcodex, hserver', if_pos rfl⟩

/-- **A candidate that is connected** takes the task, and ends the pass. -/
theorem dispatchLoop_online {jobId : ℕ} {job : DispatchJob} {taskId : TaskId} {input : Json}
    {candidate : WorkerDispatchCandidate} {rest : List WorkerDispatchCandidate}
    {failures : List JsString} (hcall : call = .dispatch jobId) (hjob : h.jobs jobId = some job)
    (hid : job.taskId = some taskId) (hcandidate : h.rows.Candidate taskId candidate.serverId)
    (honline : h.online candidate.serverId = true) :
    ∃ h', (TasksProcessor.dispatchLoop env taskId input (candidate :: rest) failures).run h =
        (.ok none, h') ∧ Effect env call h.rows h'.rows ∧ h'.jobs = h.jobs ∧
      ∃ task, h'.tasks taskId = some task ∧ task.status = .RUNNING := by
  obtain ⟨task, attempt, h₁, hattempt, hh₁, hcreate, htask₁, hcodex, hserver₁, hattempt₁⟩ :=
    @Rows.Candidate.attempted env h taskId candidate.serverId hcandidate
  unfold TasksProcessor.dispatchLoop
  rw [Proc.run_bind_of_ok hcreate]
  have honline₁ : h₁.online candidate.serverId = true := by rw [hh₁]; exact honline
  obtain ⟨h₂, htry, hrows⟩ := @tryCandidate_run_online env h₁ taskId task attempt input
    h.attempts.next candidate htask₁ hcodex hserver₁ hattempt₁ honline₁
  have hbody : (do
      TasksProcessor.tryCandidate env taskId input h.attempts.next candidate
      pure none : HubM (Option JsString)).run h₁ = (.ok none, h₂) := by
    rw [Proc.run_bind_of_ok htry]
    rfl
  rw [Proc.run_bind, Proc.run_tryCatch, hbody]
  refine ⟨h₂, rfl, ?_, (congrArg Rows.jobs hrows).trans (by rw [hh₁]; rfl), ?_⟩
  · -- the attempt is created and moved on in one effect
    rw [hrows, hh₁, hattempt]
    change Effect env call h.rows { h.rows with
      attempts := (h.attempts.insert _).modify h.attempts.next _, tasks := _, emitted := _ }
    rw [Table.modify_insert]
    exact .assigned h.rows input _ _ _ hcall hjob hid hcandidate
  · rw [show h₂.tasks = _ from congrArg Rows.tasks hrows, Table.modify_apply, if_pos rfl, htask₁]
    exact ⟨_, rfl, rfl⟩

/-- **A candidate that is not connected** fails its attempt, and the pass goes on with the others,
which are candidates still. -/
theorem dispatchLoop_offline {jobId : ℕ} {job : DispatchJob} {taskId : TaskId} {input : Json}
    {candidate : WorkerDispatchCandidate} {rest : List WorkerDispatchCandidate}
    {failures : List JsString} (hcall : call = .dispatch jobId) (hjob : h.jobs jobId = some job)
    (hid : job.taskId = some taskId) (hcandidate : h.rows.Candidate taskId candidate.serverId)
    (hoffline : h.online candidate.serverId = false) :
    ∃ failures' h', (TasksProcessor.dispatchLoop env taskId input (candidate :: rest) failures).run
        h = (TasksProcessor.dispatchLoop env taskId input rest failures').run h' ∧
      Effect env call h.rows h'.rows ∧ h'.jobs = h.jobs ∧ h'.tasks = h.tasks ∧
      h'.sockets = h.sockets ∧
      ∀ serverId, h.rows.Candidate taskId serverId → h'.rows.Candidate taskId serverId := by
  obtain ⟨task, attempt, h₁, hattempt, hh₁, hcreate, htask₁, hcodex, -, hattempt₁⟩ :=
    @Rows.Candidate.attempted env h taskId candidate.serverId hcandidate
  conv in TasksProcessor.dispatchLoop env taskId input (candidate :: rest) failures =>
    unfold TasksProcessor.dispatchLoop
  rw [Proc.run_bind_of_ok hcreate]
  have hoffline₁ : h₁.online candidate.serverId = false := by rw [hh₁]; exact hoffline
  have hbody : (do
      TasksProcessor.tryCandidate env taskId input h.attempts.next candidate
      pure none : HubM (Option JsString)).run h₁ =
      (.error (HubError.offline candidate.serverId), h₁) :=
    Proc.run_bind_of_error (tryCandidate_run_offline htask₁ hcodex hoffline₁)
  rw [Proc.run_bind, Proc.run_tryCatch, hbody]
  dsimp only
  have hrecord := @recordFailure_run env h₁ h.attempts.next attempt
    (HubError.offline candidate.serverId) hattempt₁
  generalize hh₂ : ({ h₁ with attempts := _, reads := _ } : Hub) = h₂ at hrecord
  have hrows : h₂.rows = { h.rows with
      attempts := h.attempts.insert ⟨taskId, candidate.serverId, .FAILED,
        some (HubError.offline candidate.serverId).message, env.clock h.reads,
        env.clock (h₁.reads + 1), some (env.clock h₁.reads)⟩ } := by
    rw [← hh₂, hh₁, hattempt]
    change ({ h.rows with
      attempts := (h.attempts.insert _).modify h.attempts.next _ } : Rows) = _
    rw [Table.modify_insert]
  have hunspent : spentAttempt ⟨taskId, candidate.serverId, .FAILED,
      some (HubError.offline candidate.serverId).message, env.clock h.reads,
      env.clock (h₁.reads + 1), some (env.clock h₁.reads)⟩ = false :=
    offline_not_capacity candidate.serverId
  rw [Proc.run_bind_of_ok hrecord, Proc.run_pure]
  refine ⟨_, h₂, rfl, ?_, congrArg Rows.jobs hrows, congrArg Rows.tasks hrows,
    congrArg Rows.sockets hrows, fun serverId hother => ?_⟩
  · rw [hrows]
    exact .rejected h.rows _ _ _ hcall hjob hid hcandidate
  · rw [hrows]
    exact hother.insert hunspent

/-- **A pass over the candidates**: it never throws, and ends in one of the two ways. -/
theorem dispatchLoop_spec {jobId : ℕ} {job : DispatchJob} {taskId : TaskId} {input : Json}
    {candidates : List WorkerDispatchCandidate} {failures : List JsString}
    (hcall : call = .dispatch jobId) (hjob : h.jobs jobId = some job)
    (hid : job.taskId = some taskId)
    (hcandidates : ∀ candidate ∈ candidates, h.rows.Candidate taskId candidate.serverId) :
    ∃ outcome h', (TasksProcessor.dispatchLoop env taskId input candidates failures).run h =
      (.ok outcome, h') ∧ Dispatched env call taskId candidates h outcome h' := by
  induction candidates generalizing h failures with
  | nil =>
      exact ⟨some failures, h, rfl, .refl, rfl, nofun, fun _ _ => ⟨by simp, rfl⟩⟩
  | cons candidate rest ih =>
      have hcandidate := hcandidates candidate List.mem_cons_self
      cases honline : h.online candidate.serverId with
      | true =>
          obtain ⟨h', hrun, hstep, hjobs, htaken⟩ :=
            dispatchLoop_online hcall hjob hid hcandidate honline
          exact ⟨none, h', hrun, .single hstep, hjobs,
            fun _ => ⟨⟨candidate, List.mem_cons_self, honline⟩, htaken⟩, nofun⟩
      | false =>
          obtain ⟨failures', h₁, hpass, hstep, hjobs, htasks, hsockets, hkept⟩ :=
            @dispatchLoop_offline env call h jobId job taskId input candidate rest failures hcall
              hjob hid hcandidate honline
          obtain ⟨outcome, h', hrun, hspec⟩ := @ih h₁ failures' (by rw [hjobs]; exact hjob)
            fun other hother => hkept _ (hcandidates other (List.mem_cons_of_mem _ hother))
          have honline₁ : ∀ serverId, h₁.online serverId = h.online serverId := fun serverId => by
            unfold Hub.online
            rw [hsockets]
          refine ⟨outcome, h', hpass.trans hrun, hspec.chain.head hstep, hspec.jobs.trans hjobs,
            fun hnone => ?_, fun failures hsome => ?_⟩
          · obtain ⟨⟨other, hother, hon⟩, htaken⟩ := hspec.taken hnone
            exact ⟨⟨other, List.mem_cons_of_mem _ hother, (honline₁ _).symm.trans hon⟩, htaken⟩
          · obtain ⟨hoff, htasks'⟩ := hspec.left failures hsome
            refine ⟨fun other hother => ?_, htasks'.trans htasks⟩
            rcases List.mem_cons.mp hother with rfl | hother
            · exact honline
            · exact (honline₁ _).symm.trans (hoff other hother)

/-- What the candidates found in a state are there, in terms of its rows. -/
theorem candidate_iff {taskId : TaskId} {task : Task} {home : Server} {excluded : List ServerId}
    (htask : h.tasks taskId = some task) (hqueued : task.status = .QUEUED)
    (hcodex : task.workerType = .CODEX) (hhome : h.servers task.serverId = some home)
    (hexcluded : ∀ serverId, serverId ∈ excluded ↔ ∃ id attempt, h.attempts id = some attempt ∧
      attempt.taskId = taskId ∧ spentAttempt attempt = true ∧ attempt.serverId = serverId)
    (serverId : ServerId) :
    (∃ id profile server, h.workerProfiles id = some profile ∧ profile.serverId = serverId ∧
        h.servers serverId = some server ∧
        WorkerRegistry.compatible home.ownerId .CODEX excluded profile server = true) ↔
      h.rows.Candidate taskId serverId ∧ ∃ id profile, h.workerProfiles id = some profile ∧
        profile.serverId = serverId ∧ profile.enabled = true ∧ profile.provider = .CODEX := by
  unfold WorkerRegistry.compatible
  simp only [Bool.and_eq_true, beq_iff_eq, Bool.not_eq_true', List.contains_eq_mem,
    decide_eq_false_iff_not]
  constructor
  · rintro ⟨id, profile, server, hprofile, rfl, hserver, ⟨⟨⟨henabled, hprovider⟩, howner⟩,
      hstatus⟩, hunspent⟩
    refine ⟨⟨⟨task, home, server, htask, hqueued, hcodex, hhome, hserver, howner, hstatus⟩,
      fun other attempt hrow hsame hspent hback => hunspent ?_⟩, id, profile, hprofile, rfl,
      henabled, hprovider⟩
    exact (hexcluded _).mpr ⟨other, attempt, hrow, hsame, hspent, hback⟩
  · rintro ⟨⟨⟨task', home', server, htask', -, -, hhome', hserver, howner, hstatus⟩, hunspent⟩, id,
      profile, hprofile, rfl, henabled, hprovider⟩
    obtain rfl : task = task' := Option.some.inj (htask.symm.trans htask')
    obtain rfl : home = home' := Option.some.inj (hhome.symm.trans hhome')
    refine ⟨id, profile, server, hprofile, rfl, hserver, ⟨⟨⟨henabled, hprovider⟩, howner⟩,
      hstatus⟩, fun hmem => ?_⟩
    obtain ⟨other, attempt, hrow, hsame, hspent, hback⟩ := (hexcluded _).mp hmem
    exact hunspent other attempt hrow hsame hspent hback

/-- **What a processor leaves behind**: the jobs as they were; if it returned, no
queued task, and one that was queued could be placed; if it threw, a queued task
that could not. -/
structure Processed (env : Env) (call : HubCall) (job : DispatchJob) (h : Hub)
    (outcome : Except HubError Unit) (h' : Hub) : Prop where
  chain : Relation.ReflTransGen (Effect env call) h.rows h'.rows
  jobs : h'.jobs = h.jobs
  returned : ∀ value, outcome = .ok value → ∀ taskId task, job.taskId = some taskId →
    h'.tasks taskId = some task → task.status ≠ .QUEUED
  placed : ∀ value, outcome = .ok value → ∀ taskId task, job.taskId = some taskId →
    h.tasks taskId = some task → task.status = .QUEUED → h.rows.Dispatchable taskId
  threw : ∀ error, outcome = .error error → ∃ taskId task', job.taskId = some taskId ∧
    h'.tasks taskId = some task' ∧ task'.status = .QUEUED ∧ ¬h.rows.Dispatchable taskId

/-- A processor that does nothing: its task is not queued. -/
theorem Processed.skip {job : DispatchJob}
    (hskip : ∀ taskId task, job.taskId = some taskId → h.tasks taskId = some task →
      task.status ≠ .QUEUED) : Processed env call job h (.ok ()) h :=
  ⟨.refl, rfl, fun _ _ => hskip, fun _ _ taskId task hid htask hqueued =>
    absurd hqueued (hskip taskId task hid htask), nofun⟩

/-- A processor that throws before it has tried a candidate. -/
theorem Processed.unplaced {job : DispatchJob} {taskId : TaskId} {task : Task} {error : HubError}
    (hid : job.taskId = some taskId) (htask : h.tasks taskId = some task)
    (hqueued : task.status = .QUEUED) (hunplaced : ¬h.rows.Dispatchable taskId) :
    Processed env call job h (.error error) h :=
  ⟨.refl, rfl, nofun, nofun, fun _ _ => ⟨taskId, task, hid, htask, hqueued, hunplaced⟩⟩

/-- A pass that a candidate ended. -/
theorem Dispatched.returned {job : DispatchJob} {taskId : TaskId}
    {candidates : List WorkerDispatchCandidate} {h' : Hub} (hid : job.taskId = some taskId)
    (hdispatched : Dispatched env call taskId candidates h none h')
    (hplaced : h.rows.Dispatchable taskId) : Processed env call job h (.ok ()) h' := by
  obtain ⟨-, running, hrunning, hstatus⟩ := hdispatched.taken rfl
  refine ⟨hdispatched.chain, hdispatched.jobs, fun _ _ other row hother hrow => ?_,
    fun _ _ other row hother _ _ => ?_, nofun⟩
  · obtain rfl : taskId = other := Option.some.inj (hid.symm.trans hother)
    obtain rfl : running = row := Option.some.inj (hrunning.symm.trans hrow)
    rw [hstatus]
    exact nofun
  · obtain rfl : taskId = other := Option.some.inj (hid.symm.trans hother)
    exact hplaced

/-- A pass that no candidate ended: the failures are logged, and the task waits on. -/
theorem Dispatched.threw {jobId : ℕ} {job : DispatchJob} {taskId : TaskId} {task : Task}
    {candidates : List WorkerDispatchCandidate} {failures : List JsString} {error : HubError}
    {h' logged : Hub} {logs : JsString} {date : Time} (hcall : call = .dispatch jobId)
    (hid : job.taskId = some taskId) (htask : h.tasks taskId = some task)
    (hqueued : task.status = .QUEUED) (hunplaced : ¬h.rows.Dispatchable taskId)
    (hdispatched : Dispatched env call taskId candidates h (some failures) h')
    (hlogged : logged.rows = { h'.rows with
      tasks := h'.tasks.modify taskId fun row => { row with logs, updatedAt := date } }) :
    Processed env call job h (.error error) logged := by
  have htask' : h'.tasks taskId = some task := by
    rw [(hdispatched.left failures rfl).2]
    exact htask
  have hrelabelled : Effect env call h'.rows logged.rows := by
    rw [hlogged]
    refine .relabelled h'.rows (concerns_free ?_ ?_) (fun _ => rfl) (fun _ => rfl) fun _ => .inl rfl
    · rw [hcall]
      rfl
    · rw [hcall]
      rfl
  refine ⟨hdispatched.chain.tail hrelabelled, (congrArg Rows.jobs hlogged).trans hdispatched.jobs,
    nofun, nofun, fun _ _ => ⟨taskId, { task with logs, updatedAt := date }, hid, ?_, hqueued,
      hunplaced⟩⟩
  rw [show logged.tasks = _ from congrArg Rows.tasks hlogged, Table.modify_apply, if_pos rfl,
    htask']
  rfl

/-- A task can be placed if one of the candidates that are found is connected. -/
theorem dispatchable_iff {taskId : TaskId} {candidates : List WorkerDispatchCandidate}
    (hcandidates : ∀ serverId, (∃ candidate ∈ candidates, candidate.serverId = serverId) ↔
      h.rows.Candidate taskId serverId ∧ ∃ id profile, h.workerProfiles id = some profile ∧
        profile.serverId = serverId ∧ profile.enabled = true ∧ profile.provider = .CODEX) :
    h.rows.Dispatchable taskId ↔
      ∃ candidate ∈ candidates, h.online candidate.serverId = true := by
  constructor
  · rintro ⟨serverId, hcandidate, hprofile, hsocket⟩
    obtain ⟨candidate, hmem, rfl⟩ := (hcandidates serverId).mpr ⟨hcandidate, hprofile⟩
    exact ⟨candidate, hmem, online_iff.mpr hsocket⟩
  · rintro ⟨candidate, hmem, honline⟩
    obtain ⟨hcandidate, hprofile⟩ := (hcandidates _).mp ⟨candidate, hmem, rfl⟩
    exact ⟨candidate.serverId, hcandidate, hprofile, online_iff.mp honline⟩

/-- **One run of the processor**, in whatever state the job has found. -/
theorem processDispatch_spec {jobId : ℕ} {job : DispatchJob} (hcall : call = .dispatch jobId)
    (hjob : h.jobs jobId = some job) :
    ∃ outcome h', (TasksProcessor.processDispatch env job.taskId).run h = (outcome, h') ∧
      Processed env call job h outcome h' := by
  unfold TasksProcessor.processDispatch
  cases hid : job.taskId with
  | none => exact ⟨_, h, rfl, .skip (by rw [hid]; exact nofun)⟩
  | some taskId =>
    dsimp only
    have hread : (Prisma.taskFindUnique taskId : HubM _).run h = (.ok (h.tasks taskId), h) := rfl
    rw [Proc.run_bind_of_ok hread]
    cases htask : h.tasks taskId with
    | none =>
        refine ⟨_, h, rfl, .skip fun other task hother hrow => ?_⟩
        obtain rfl : taskId = other := Option.some.inj (hid.symm.trans hother)
        cases htask.symm.trans hrow
    | some task =>
      dsimp only
      by_cases hqueued : task.status = .QUEUED
      swap
      · -- a task that is not queued is left alone
        rw [if_pos hqueued]
        refine ⟨_, h, rfl, .skip fun other row hother hrow => ?_⟩
        obtain rfl : taskId = other := Option.some.inj (hid.symm.trans hother)
        obtain rfl : task = row := Option.some.inj (htask.symm.trans hrow)
        exact hqueued
      rw [if_neg (not_not.mpr hqueued)]
      obtain ⟨excluded, hexcluded, hspent⟩ := retryExcludedServerIds_run env h taskId
      rw [Proc.run_bind_of_ok hexcluded]
      cases hrun : (WorkerRegistry.getDispatchCandidates env task.workerType task.serverId
          excluded).run h with
      | mk found h' =>
        obtain ⟨rfl, hok, hfail⟩ := getDispatchCandidates_spec hrun
        cases found with
        | error error =>
            -- without an adapter, or a home server, nothing is a candidate
            rw [Proc.run_bind_of_error hrun]
            refine ⟨_, h, rfl, .unplaced hid htask hqueued ?_⟩
            rintro ⟨serverId, ⟨⟨task', home, _, htask', -, hcodex, hhome, -⟩, -⟩, -⟩
            obtain rfl : task = task' := Option.some.inj (htask.symm.trans htask')
            cases (hfail error rfl hcodex).symm.trans hhome
        | ok candidates =>
            obtain ⟨hcodex, home, hhome, hcandidates⟩ := hok candidates rfl
            have hiff := fun serverId => (hcandidates serverId).trans
              (candidate_iff htask hqueued hcodex hhome hspent serverId)
            have hplaced := dispatchable_iff hiff
            rw [Proc.run_bind_of_ok hrun]
            by_cases hempty : candidates.isEmpty = true
            · rw [if_pos hempty, Proc.run_bind_of_error (Proc.run_throw _ h)]
              refine ⟨_, h, rfl, .unplaced hid htask hqueued fun hdispatchable => ?_⟩
              obtain ⟨candidate, hmem, -⟩ := hplaced.mp hdispatchable
              rw [List.isEmpty_iff.mp hempty] at hmem
              cases hmem
            rw [if_neg hempty]
            obtain ⟨outcome, h', hloop, hdispatched⟩ := @dispatchLoop_spec env call h jobId job
              taskId task.input candidates [] hcall hjob hid
              fun candidate hmem => ((hiff _).mp ⟨candidate, hmem, rfl⟩).1
            rw [Proc.run_bind_of_ok hloop]
            cases outcome with
            | none =>
                exact ⟨_, h', rfl, hdispatched.returned hid (hplaced.mpr (hdispatched.taken rfl).1)⟩
            | some failures =>
                have htask' : h'.tasks taskId = some task := by
                  rw [(hdispatched.left failures rfl).2, htask]
                have hlogs := @taskUpdate_run env h' taskId task (fun row =>
                  { row with logs := task.logs ++ TasksProcessor.formatFailoverLog failures })
                  htask' rfl
                dsimp only
                rw [Proc.run_bind_of_ok hlogs]
                refine ⟨_, _, rfl,
                  hdispatched.threw hcall hid htask hqueued (fun hdispatchable => ?_)
                  rfl⟩
                obtain ⟨candidate, hmem, honline⟩ := hplaced.mp hdispatchable
                cases ((hdispatched.left failures rfl).1 candidate hmem).symm.trans honline

/-- **One attempt at a job**: what the processor does, and then the record of its
outcome. -/
theorem runJob_run {jobId : ℕ} {job : DispatchJob} (hcall : call = .dispatch jobId)
    (hjob : h.jobs jobId = some job) :
    ∃ outcome h', Processed env call job h outcome h' ∧ (runJob env jobId).run h =
      (.ok (), { h' with jobs := h'.jobs.modify jobId fun _ => job.after outcome }) := by
  obtain ⟨outcome, h', hrun, hprocessed⟩ := @processDispatch_spec env call h jobId job hcall hjob
  have hcaught : (tryCatch (do
        TasksProcessor.processDispatch env job.taskId
        pure (Except.ok ()))
      (fun error => pure (Except.error error)) : HubM (Except HubError Unit)).run h =
      (.ok outcome, h') := by
    rw [Proc.run_tryCatch, Proc.run_bind, hrun]
    cases outcome <;> rfl
  refine ⟨outcome, h', hprocessed, ?_⟩
  unfold runJob
  rw [Proc.run_bind_of_ok (Proc.run_read _ h), hjob]
  dsimp only
  rw [Proc.run_bind_of_ok hcaught, Proc.run_atomically]

/-- A job moves the rows along effects, and the record of its outcome is one of them. -/
theorem runJob_reaches {jobId : ℕ} (hcall : call = .dispatch jobId) :
    (runJob env jobId).Reaches (Effect env call) Hub.rows h := by
  unfold Proc.Reaches
  cases hjob : h.jobs jobId with
  | none =>
      unfold runJob
      rw [Proc.run_bind_of_ok (Proc.run_read _ h), hjob]
      exact .refl
  | some job =>
      obtain ⟨outcome, h', hprocessed, hrun⟩ := @runJob_run env call h jobId job hcall hjob
      rw [hrun]
      have hjob' : h'.jobs jobId = some job := by rw [hprocessed.jobs, hjob]
      exact hprocessed.chain.tail (.jobTaken h'.rows outcome hcall hjob')

/-! ## The watchdog -/

/-- What the scan read about a task still holds. -/
structure Stuck (h : Hub) (row : (TaskId × Task) × Option (TaskAttemptId × TaskAttempt)) :
    Prop where
  task : h.tasks row.1.1 = some row.1.2
  running : row.1.2.status = .RUNNING
  attempt : ∀ id attempt, row.2 = some (id, attempt) →
    h.attempts id = some attempt ∧ attempt.taskId = row.1.1

/-- The watchdog on one task: its attempt is closed, and it is given up or queued again. -/
theorem timeOutTask_rows {taskId : TaskId} {task : Task} {id : TaskAttemptId}
    {attempt : TaskAttempt} (hstuck : Stuck h ((taskId, task), some (id, attempt))) :
    ∃ h' finished updated logs, (TasksProcessor.timeOutTask env taskId task id attempt).run h =
        (.ok (), h') ∧
      (TasksService.watchdogMaxRequeues env ≤ h.rows.timedOut taskId ∧
        h'.rows = { h.rows with
          attempts := h.attempts.modify id (TaskAttempt.expired env finished)
          tasks := h.tasks.modify taskId fun row =>
            { row with status := .FAILED, logs, updatedAt := updated } } ∨
      h.rows.timedOut taskId < TasksService.watchdogMaxRequeues env ∧
        h'.rows = { h.rows with
          attempts := h.attempts.modify id (TaskAttempt.expired env finished)
          tasks := h.tasks.modify taskId fun row =>
            { row with status := .QUEUED, logs, updatedAt := updated }
          jobs := h.jobs.insert ⟨some taskId, 0, 5, .waiting⟩ }) := by
  obtain ⟨hattempt, -⟩ := hstuck.attempt id attempt rfl
  unfold TasksProcessor.timeOutTask
  rw [Proc.run_bind_of_ok (Proc.run_read _ h), Proc.run_bind_of_ok now_run]
  obtain ⟨h₁, hrun, hh₁⟩ : ∃ h₁, (Prisma.taskAttemptUpdate id fun attempt =>
      { attempt with
        status := .TIMED_OUT
        failureReason := some (TasksProcessor.watchdogReason env)
        finishedAt := some (env.clock h.reads) }).run { h with reads := h.reads + 1 } =
      (.ok (), h₁) ∧ h₁ = { h with
        attempts := h.attempts.modify id (TaskAttempt.expired env (env.clock h.reads))
        reads := h.reads + 1 } :=
    ⟨_, attemptUpdate_run hattempt, rfl⟩
  have htask₁ : h₁.tasks taskId = some task := by rw [hh₁]; exact hstuck.task
  rw [Proc.run_bind_of_ok hrun]
  split
  · next hcount =>
    rw [Proc.run_bind_of_ok (taskUpdate_run htask₁ rfl), hh₁]
    exact ⟨_, _, _, _, rfl, .inl ⟨hcount, rfl⟩⟩
  · next hcount =>
    rw [Proc.run_bind_of_ok (taskUpdate_run htask₁ rfl), hh₁]
    exact ⟨_, _, _, _, rfl, .inr ⟨not_le.mp hcount, rfl⟩⟩

/-- What was read about the other tasks stays true. -/
theorem Stuck.of_other {h' : Hub} {taskId : TaskId} {id : TaskAttemptId} {attempt : TaskAttempt}
    {f : TaskAttempt → TaskAttempt} {g : Task → Task} (hattempt : h.attempts id = some attempt)
    (hid : attempt.taskId = taskId) (htasks : h'.tasks = h.tasks.modify taskId g)
    (hattempts : h'.attempts = h.attempts.modify id f)
    {row : (TaskId × Task) × Option (TaskAttemptId × TaskAttempt)} (hne : row.1.1 ≠ taskId)
    (hrow : Stuck h row) : Stuck h' row := by
  refine ⟨?_, hrow.running, fun other otherAttempt hlatest => ?_⟩
  · rw [htasks, Table.modify_apply, if_neg hne]
    exact hrow.task
  · obtain ⟨hstored, hof⟩ := hrow.attempt other otherAttempt hlatest
    refine ⟨?_, hof⟩
    rw [hattempts, Table.modify_apply, if_neg ?_]
    · exact hstored
    · rintro rfl
      rw [hattempt] at hstored
      cases hstored
      exact hne (hof.symm.trans hid)

/-- The watchdog on one task: one effect, and nothing read about other tasks
changes. -/
theorem timeOutTask_run {taskId : TaskId} {task : Task} {id : TaskAttemptId}
    {attempt : TaskAttempt} (hcall : call = .watchdog)
    (hstuck : Stuck h ((taskId, task), some (id, attempt))) (hactive : attempt.active = true) :
    ∃ h', (TasksProcessor.timeOutTask env taskId task id attempt).run h = (.ok (), h') ∧
      Effect env call h.rows h'.rows ∧
      ∀ row, row.1.1 ≠ taskId → Stuck h row → Stuck h' row := by
  obtain ⟨hattempt, hid⟩ := hstuck.attempt id attempt rfl
  obtain ⟨h', finished, updated, logs, hrun, hcases⟩ := @timeOutTask_rows env h _ _ _ _ hstuck
  refine ⟨h', hrun, ?_⟩
  rcases hcases with ⟨hcount, hrows⟩ | ⟨hcount, hrows⟩
  · refine ⟨?_, fun row => Stuck.of_other hattempt hid (congrArg Rows.tasks hrows)
      (congrArg Rows.attempts hrows)⟩
    rw [hrows]
    exact .expired h.rows _ _ _ hcall hstuck.task hstuck.running hattempt hid hactive hcount
  · refine ⟨?_, fun row => Stuck.of_other hattempt hid (congrArg Rows.tasks hrows)
      (congrArg Rows.attempts hrows)⟩
    rw [hrows]
    exact .requeued h.rows _ _ _ hcall hstuck.task hstuck.running hattempt hid hactive hcount

/-- The rounds of the scan, as long as what was read is still true of the rows ahead. -/
theorem scanLoop_reaches {staleBefore : ℤ} (hcall : call = .watchdog)
    {rows : List ((TaskId × Task) × Option (TaskAttemptId × TaskAttempt))} {handled : ℕ}
    (hstuck : ∀ row ∈ rows, Stuck h row) (hnodup : (rows.map fun row => row.1.1).Nodup) :
    (TasksProcessor.scanLoop env staleBefore rows handled).Reaches (Effect env call)
      Hub.rows h := by
  induction rows generalizing h handled with
  | nil => exact .of_eq rfl
  | cons row rest ih =>
      obtain ⟨hfresh, hnodup'⟩ := List.nodup_cons.mp hnodup
      have hrest : ∀ other ∈ rest, Stuck h other := fun other hother =>
        hstuck other (List.mem_cons_of_mem _ hother)
      obtain ⟨⟨taskId, task⟩, latest⟩ := row
      cases latest with
      | none => exact ih hrest hnodup'
      | some found =>
          obtain ⟨id, attempt⟩ := found
          unfold TasksProcessor.scanLoop
          refine .ite (fun _ => ih hrest hnodup') fun hstale => ?_
          have hactive : attempt.active = true := by
            cases h : attempt.active with
            | true => rfl
            | false => simp [h] at hstale
          obtain ⟨h', hrun, hstep, hframe⟩ :=
            @timeOutTask_run env call h taskId task id attempt hcall
              (hstuck _ List.mem_cons_self) hactive
          refine .bind (.single (by rw [hrun]; exact hstep)) fun _ h'' hrun' => ?_
          rw [hrun] at hrun'
          cases hrun'
          exact ih (fun other hother => hframe other
            (fun hsame => hfresh (List.mem_map.mpr ⟨other, hother, hsame⟩))
            (hrest other hother)) hnodup'

/-- The scan starts from the stale RUNNING tasks, each with its latest attempt. -/
theorem mem_stuckTasks {staleBefore : ℤ}
    {row : (TaskId × Task) × Option (TaskAttemptId × TaskAttempt)} :
    row ∈ TasksProcessor.stuckTasks env h staleBefore ↔
      h.tasks row.1.1 = some row.1.2 ∧ row.1.2.status = .RUNNING ∧
        (row.1.2.updatedAt : ℤ) < staleBefore ∧
        row.2 = latestAttempt env h.attempts row.1.1 := by
  unfold TasksProcessor.stuckTasks
  constructor
  · intro hrow
    obtain ⟨found, hmem, rfl⟩ := List.mem_map.mp hrow
    have hfiltered := (env.rowOrder_perm _).mem_iff.mp hmem
    rw [List.mem_filter, Table.mem_toList, Bool.and_eq_true, beq_iff_eq, decide_eq_true_eq]
      at hfiltered
    exact ⟨hfiltered.1, hfiltered.2.1, hfiltered.2.2, rfl⟩
  · rintro ⟨htask, hrunning, hstale, hlatest⟩
    refine List.mem_map.mpr ⟨row.1, (env.rowOrder_perm _).mem_iff.mpr ?_, ?_⟩
    · rw [List.mem_filter, Table.mem_toList, Bool.and_eq_true, beq_iff_eq, decide_eq_true_eq]
      exact ⟨htask, hrunning, hstale⟩
    · rw [← hlatest]

/-- What was just read is true. -/
theorem stuckTasks_stuck {staleBefore : ℤ}
    {row : (TaskId × Task) × Option (TaskAttemptId × TaskAttempt)}
    (hrow : row ∈ TasksProcessor.stuckTasks env h staleBefore) : Stuck h row := by
  obtain ⟨htask, hrunning, -, hlatest⟩ := mem_stuckTasks.mp hrow
  exact ⟨htask, hrunning, fun id attempt hsome =>
    @latestAttempt_some env _ _ _ _ (hlatest.symm.trans hsome)⟩

/-- A task is one row of the query. -/
theorem stuckTasks_nodup (staleBefore : ℤ) :
    ((TasksProcessor.stuckTasks env h staleBefore).map fun row => row.1.1).Nodup := by
  unfold TasksProcessor.stuckTasks
  rw [List.map_map]
  refine ((env.rowOrder_perm _).map _).nodup_iff.mpr ?_
  exact (h.tasks.nodup_keys).sublist (List.filter_sublist.map _)

/-- **One scan of the watchdog** is a chain of its effects. -/
theorem scanStuckTasksOnce_reaches (hcall : call = .watchdog) :
    (TasksProcessor.scanStuckTasksOnce env).Reaches (Effect env call) Hub.rows h := by
  unfold TasksProcessor.scanStuckTasksOnce
  refine .bind (.of_eq rfl) fun date h₁ _ => .bind (.of_eq rfl) fun rows h₂ hread => ?_
  obtain ⟨rfl, rfl⟩ : TasksProcessor.stuckTasks env h₁
      ((date : ℤ) - TasksService.watchdogTimeoutMs env) = rows ∧ h₁ = h₂ := by
    simpa using hread
  exact scanLoop_reaches hcall (fun row hrow => stuckTasks_stuck hrow) (stuckTasks_nodup _)

end CodeCaller
