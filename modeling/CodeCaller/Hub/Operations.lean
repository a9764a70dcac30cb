import CodeCaller.Hub.Effects

/-!
# Runs of the operations

What an uninterrupted run of each operation the handlers are made of returns and leaves behind: the
queries and updates of the database, delivery to the daemons, the checks of ownership and the
choice of candidates.

For an operation `p` there are three kinds of lemma, and a handler uses the weakest one that does.

* `p_quiet`: nothing of `Rows` changes.  Reading the clock, notifying a user and sending a push are
  of this kind, and are passed over by `reaches_of_quiet`.
* `p_run`: the outcome and the new state, as an equation, under the conditions that decide the
  branches.
* `p_spec`: what is known when `p` has returned a value, whatever the branches were.

The last section relates the guards of a handler to the tasks its call `Concerns`, and turns an
update of a task into an effect.
-/

namespace CodeCaller

open Async

variable {env : Env} {call : HubCall} {h : Hub} {α β : Type}

/-! ## Operations that leave the rows alone -/

/-- The rows are as they were. -/
def Quiet (h h' : Hub) : Prop := h'.rows = h.rows

/-- Nothing happens. -/
theorem Quiet.refl (h : Hub) : Quiet h h := rfl

/-- Two quiet steps are one. -/
theorem Quiet.trans {a b c : Hub} (hab : Quiet a b) (hbc : Quiet b c) : Quiet a c :=
  Eq.trans hbc hab

/-- A quiet program moves the rows along the empty chain. -/
theorem reaches_of_quiet {p : HubM α} (hp : p.Guarantees Quiet) (h : Hub) :
    p.Reaches (Effect env call) Hub.rows h :=
  .of_eq (hp.run Quiet.refl Quiet.trans h)

/-- A query writes nothing. -/
theorem read_quiet (query : Hub → α) : (Proc.read query : HubM α).Guarantees Quiet :=
  Proc.guarantees_read Quiet.refl query

/-- Reading the clock is counted, but not in the rows. -/
theorem now_quiet : (now env).Guarantees Quiet := Proc.guarantees_take fun _ => rfl

/-- A notice goes to the app, and the rows do not have it. -/
theorem notifyUser_quiet (userId : UserId) (message : AppOutbound) :
    (RealtimeService.notifyUser userId message).Guarantees Quiet :=
  Proc.guarantees_modify fun _ => rfl

/-- Decryption touches nothing, whether it succeeds or throws. -/
theorem decryptTokens_guarantees {G : Hub → Hub → Prop} (key : JsString)
    (stored : List (ℕ × PushToken)) :
    (NotificationsService.decryptTokens env key stored).Guarantees G := by
  induction stored with
  | nil => exact Proc.guarantees_pure _
  | cons row rest ih =>
      unfold NotificationsService.decryptTokens
      split
      · exact Proc.guarantees_throw _
      · exact ih.bind fun _ => Proc.guarantees_pure _

/-- A push is all that `sendPush` leaves, at its last node. -/
theorem sendPush_guarantees {G : Hub → Hub → Prop} (refl : ∀ h, G h h)
    (hpush : ∀ h pushes, G h { h with pushes }) (userId : UserId) (title body : JsString) :
    (NotificationsService.sendPush env userId title body).Guarantees G := by
  unfold NotificationsService.sendPush NotificationsService.pushTokenEncKey
  split
  · exact Proc.guarantees_pure _
  · refine Proc.Guarantees.bind ?_ fun key => (Proc.guarantees_read refl _).bind fun stored => ?_
    · split
      · exact Proc.guarantees_pure _
      · exact Proc.guarantees_throw _
    · split
      · exact Proc.guarantees_pure _
      · exact (decryptTokens_guarantees key stored).bind fun _ =>
          Proc.guarantees_modify fun h => hpush h _

/-- A push is sent and not stored. -/
theorem sendPush_quiet (userId : UserId) (title body : JsString) :
    (NotificationsService.sendPush env userId title body).Guarantees Quiet :=
  sendPush_guarantees Quiet.refl (fun _ _ => rfl) userId title body

/-- The server is read, or the call ends. -/
theorem serverOf_quiet (task : Task) : (Prisma.serverOf task).Guarantees Quiet := by
  refine (read_quiet _).bind fun found => ?_
  cases found with
  | none => exact Proc.guarantees_throw _
  | some server => exact Proc.guarantees_pure _

/-! ## Database operations -/

/-- The clock is the reading that is due, and the next one is due after it. -/
theorem now_run : (now env).run h = (.ok (env.clock h.reads), { h with reads := h.reads + 1 }) :=
  rfl

/-- An update of a stored task that does not point to a missing server. -/
theorem taskUpdate_run_moved {taskId : TaskId} {task : Task} {f : Task → Task}
    (htask : h.tasks taskId = some task)
    (hserver : (f task).serverId = task.serverId ∨ h.servers (f task).serverId ≠ none) :
    (Prisma.taskUpdate env taskId f).run h =
      (.ok { f task with updatedAt := env.clock h.reads },
        { h with
          tasks := h.tasks.modify taskId fun row => { f row with updatedAt := env.clock h.reads }
          reads := h.reads + 1 }) := by
  unfold Prisma.taskUpdate
  rw [Proc.run_atomically, htask]
  dsimp only
  rw [if_neg fun moved => hserver.elim moved.1 fun h => h moved.2]
  have hmodify : h.tasks.modify taskId (fun _ => { f task with updatedAt := env.clock h.reads }) =
      h.tasks.modify taskId fun row => { f row with updatedAt := env.clock h.reads } :=
    Table.modify_congr fun row hrow => by
      rw [htask] at hrow
      cases hrow
      rfl
  rw [hmodify]

/-- An update of a stored task that leaves it on its server. -/
theorem taskUpdate_run {taskId : TaskId} {task : Task} {f : Task → Task}
    (htask : h.tasks taskId = some task) (hserver : (f task).serverId = task.serverId) :
    (Prisma.taskUpdate env taskId f).run h =
      (.ok { f task with updatedAt := env.clock h.reads },
        { h with
          tasks := h.tasks.modify taskId fun row => { f row with updatedAt := env.clock h.reads }
          reads := h.reads + 1 }) :=
  taskUpdate_run_moved htask (.inl hserver)

/-- What such an update returns is what is stored after it. -/
theorem taskUpdate_kept {taskId : TaskId} {task updated : Task} {f : Task → Task} {h' : Hub}
    (htask : h.tasks taskId = some task) (hserver : (f task).serverId = task.serverId)
    (hrun : (Prisma.taskUpdate env taskId f).run h = (.ok updated, h')) :
    h'.tasks taskId = some updated ∧ updated.serverId = task.serverId ∧
      h'.servers = h.servers ∧ h'.approvals = h.approvals := by
  rw [taskUpdate_run htask hserver] at hrun
  cases hrun
  refine ⟨?_, hserver, rfl, rfl⟩
  rw [Table.modify_apply, if_pos rfl, htask]
  rfl

/-- A task that is not there is `recordNotFound`, and nothing happened. -/
theorem taskUpdate_run_none {taskId : TaskId} {f : Task → Task} (htask : h.tasks taskId = none) :
    (Prisma.taskUpdate env taskId f).run h = (.error .recordNotFound, h) := by
  unfold Prisma.taskUpdate
  rw [Proc.run_atomically, htask]

/-- An update of a task that leaves it on its server, whether it is stored or
not: the rows are those after the change. -/
theorem taskUpdate_rows {taskId : TaskId} {f : Task → Task}
    (hserver : ∀ task, (f task).serverId = task.serverId) :
    ((Prisma.taskUpdate env taskId f).run h).2.rows =
      { h.rows with
        tasks := h.tasks.modify taskId fun row => { f row with updatedAt := env.clock h.reads } }
      := by
  cases htask : h.tasks taskId with
  | none =>
      rw [taskUpdate_run_none htask, Table.modify_of_none htask]
      rfl
  | some task =>
      rw [taskUpdate_run htask (hserver task)]
      rfl

/-- An update of a stored attempt. -/
theorem attemptUpdate_run {id : TaskAttemptId} {attempt : TaskAttempt}
    {f : TaskAttempt → TaskAttempt} (hattempt : h.attempts id = some attempt) :
    (Prisma.taskAttemptUpdate id f).run h =
      (.ok (), { h with attempts := h.attempts.modify id f }) := by
  unfold Prisma.taskAttemptUpdate
  rw [Proc.run_atomically, hattempt]

/-- A new attempt of a stored task on a stored server; both dates are one reading of the clock. -/
theorem attemptCreate_run {taskId : TaskId} {serverId : ServerId} {status : TaskAttemptStatus}
    (htask : h.tasks taskId ≠ none) (hserver : h.servers serverId ≠ none) :
    ∃ attempt : TaskAttempt, attempt =
        ⟨taskId, serverId, status, none, env.clock h.reads, env.clock h.reads, none⟩ ∧
      (Prisma.taskAttemptCreate env taskId serverId status).run h =
        (.ok (h.attempts.next, attempt),
          { h with attempts := h.attempts.insert attempt, reads := h.reads + 1 }) := by
  obtain ⟨task, htask⟩ := Option.ne_none_iff_exists'.mp htask
  obtain ⟨server, hserver⟩ := Option.ne_none_iff_exists'.mp hserver
  refine ⟨_, rfl, ?_⟩
  unfold Prisma.taskAttemptCreate
  rw [Proc.run_atomically, htask, hserver]

/-- An update of a stored approval answers the new row. -/
theorem approvalUpdate_run {approvalId : ApprovalId} {approval : Approval}
    {f : Approval → Approval} (happroval : h.approvals approvalId = some approval) :
    (Prisma.approvalUpdate approvalId f).run h =
      (.ok (f approval), { h with approvals := h.approvals.modify approvalId f }) := by
  unfold Prisma.approvalUpdate
  rw [Proc.run_atomically, happroval]
  have hmodify : h.approvals.modify approvalId (fun _ => f approval) =
      h.approvals.modify approvalId f :=
    Table.modify_congr fun row hrow => by
      rw [happroval] at hrow
      cases hrow
      rfl
  dsimp only
  rw [hmodify]

/-! ## API keys -/

section Keys

variable {apiKey : JsString} {serverId : ServerId} {server : Server}

/-- What an API key finds is stored. -/
theorem findByApiKey_some {h' : Hub}
    (hrun : (ServersService.findByApiKey env apiKey).run h =
      (.ok (some (serverId, server)), h')) :
    h = h' ∧ h.servers serverId = some server ∧
      server.apiKeyHash = hashApiKey env.crypto apiKey := by
  unfold ServersService.findByApiKey at hrun
  rw [Proc.run_read, Prod.mk.injEq, Except.ok.injEq] at hrun
  have hmem := (env.rowOrder_perm _).mem_iff.mp (List.mem_of_mem_head? hrun.1)
  rw [List.mem_filter, Table.mem_toList, beq_iff_eq] at hmem
  exact ⟨hrun.2, hmem.1, hmem.2⟩

/-- **A key that only one server has finds that server.** -/
theorem findByApiKey_only (hserver : h.servers serverId = some server)
    (hkey : server.apiKeyHash = hashApiKey env.crypto apiKey)
    (honly : ∀ other row, h.servers other = some row →
      row.apiKeyHash = hashApiKey env.crypto apiKey → other = serverId) :
    (ServersService.findByApiKey env apiKey).run h = (.ok (some (serverId, server)), h) := by
  unfold ServersService.findByApiKey
  rw [Proc.run_read]
  set rows := env.rowOrder (h.servers.toList.filter fun row =>
    row.2.apiKeyHash == hashApiKey env.crypto apiKey) with hrows
  have hmem : ∀ row, row ∈ rows ↔ h.servers row.1 = some row.2 ∧
      row.2.apiKeyHash = hashApiKey env.crypto apiKey := by
    intro row
    rw [hrows, (env.rowOrder_perm _).mem_iff, List.mem_filter, Table.mem_toList, beq_iff_eq]
  cases hhead : rows.head? with
  | none =>
      rw [List.head?_eq_none_iff] at hhead
      have hin := (hmem (serverId, server)).mpr ⟨hserver, hkey⟩
      rw [hhead] at hin
      cases hin
  | some row =>
      obtain ⟨found, foundServer⟩ := row
      obtain ⟨hrow, hsame⟩ := (hmem _).mp (List.mem_of_mem_head? hhead)
      obtain rfl : found = serverId := honly _ _ hrow hsame
      obtain rfl : foundServer = server := Option.some.inj (hrow.symm.trans hserver)
      rfl

end Keys

/-! ## Attempts -/

/-- `touchRunningAttempt` marks the latest active attempt as seen. -/
theorem touchRunningAttempt_run {ref : TaskRef} {selects : TaskId → Bool}
    (hsel : ref.selects = some selects) :
    ∃ reads, (TasksService.touchRunningAttempt env ref).run h =
      (.ok (), { h with
        attempts := updateActive env selects (TaskAttempt.seen (env.clock h.reads)) h.attempts
        reads }) := by
  unfold TasksService.touchRunningAttempt Prisma.taskAttemptFindActive updateActive
  simp only [hsel, Proc.run_bind, Proc.run_read]
  cases hlatest : latestActive env h.attempts selects with
  | none => exact ⟨h.reads, rfl⟩
  | some found =>
      obtain ⟨id, attempt⟩ := found
      have hrow : ({ h with reads := h.reads + 1 } : Hub).attempts id = some attempt :=
        (latestActive_some hlatest).1
      exact ⟨h.reads + 1, attemptUpdate_run hrow⟩

/-- `finishRunningAttempt` closes the latest active attempt. -/
theorem finishRunningAttempt_run {ref : TaskRef} {selects : TaskId → Bool}
    {status : TaskAttemptStatus} {reason : Option JsString} (hsel : ref.selects = some selects) :
    ∃ reads, (TasksService.finishRunningAttempt env ref status reason).run h =
      (.ok (), { h with
        attempts := updateActive env selects
          (fun attempt => { attempt with
            status
            failureReason := match reason with
              | some reason => some reason
              | none => attempt.failureReason
            lastSeenAt := env.clock h.reads
            finishedAt := some (env.clock (h.reads + 1)) }) h.attempts
        reads }) := by
  unfold TasksService.finishRunningAttempt Prisma.taskAttemptFindActive updateActive
  simp only [hsel, Proc.run_bind, Proc.run_read]
  cases hlatest : latestActive env h.attempts selects with
  | none => exact ⟨h.reads, rfl⟩
  | some found =>
      obtain ⟨id, attempt⟩ := found
      have hrow : ({ h with reads := h.reads + 2 } : Hub).attempts id = some attempt :=
        (latestActive_some hlatest).1
      exact ⟨h.reads + 2, attemptUpdate_run hrow⟩

/-- A query with a `taskId` of the wrong type is rejected before anything
happens. -/
theorem touchRunningAttempt_run_invalid {ref : TaskRef} (hsel : ref.selects = none) :
    (TasksService.touchRunningAttempt env ref).run h = (.error .validation, h) := by
  unfold TasksService.touchRunningAttempt Prisma.taskAttemptFindActive
  simp only [hsel, Proc.run_bind, Proc.run_throw]

/-- As for `touchRunningAttempt`: no attempt is closed. -/
theorem finishRunningAttempt_run_invalid {ref : TaskRef} {status : TaskAttemptStatus}
    {reason : Option JsString} (hsel : ref.selects = none) :
    (TasksService.finishRunningAttempt env ref status reason).run h = (.error .validation, h) := by
  unfold TasksService.finishRunningAttempt Prisma.taskAttemptFindActive
  simp only [hsel, Proc.run_bind, Proc.run_throw]

/-- **The excluded servers** are those an attempt of the task spent. -/
theorem retryExcludedServerIds_run (env : Env) (h : Hub) (taskId : TaskId) :
    ∃ excluded, (retryExcludedServerIds env taskId).run h = (.ok excluded, h) ∧
      ∀ serverId, serverId ∈ excluded ↔ ∃ id attempt, h.attempts id = some attempt ∧
        attempt.taskId = taskId ∧ spentAttempt attempt = true ∧ attempt.serverId = serverId := by
  refine ⟨_, rfl, fun serverId => ?_⟩
  simp only [List.mem_dedup, List.mem_map, (env.rowOrder_perm _).mem_iff, List.mem_filter,
    Prod.exists, Table.mem_toList, Bool.and_eq_true, beq_iff_eq, and_assoc]

/-! ## Ownership -/

/-- What `include: { server: true }` finds is in both tables. -/
theorem taskWithServer_some {taskId : TaskId} {task : Task} {server : Server}
    (hfound : h.taskWithServer taskId = some (task, server)) :
    h.tasks taskId = some task ∧ h.servers task.serverId = some server := by
  obtain ⟨task', htask, hmap⟩ := Option.bind_eq_some_iff.mp hfound
  obtain ⟨server', hserver, heq⟩ := Option.map_eq_some_iff.mp hmap
  cases heq
  exact ⟨htask, hserver⟩

/-- What the nested `include` of an approval finds is in all three tables. -/
theorem approvalWithTask_some {approvalId : ApprovalId} {approval : Approval} {task : Task}
    {server : Server}
    (hfound : ApprovalsService.approvalWithTask h approvalId = some (approval, task, server)) :
    h.approvals approvalId = some approval ∧ h.tasks approval.taskId = some task ∧
      h.servers task.serverId = some server := by
  obtain ⟨approval', happroval, hmap⟩ := Option.bind_eq_some_iff.mp hfound
  obtain ⟨⟨task', server'⟩, htask, heq⟩ := Option.map_eq_some_iff.mp hmap
  cases heq
  exact ⟨happroval, taskWithServer_some htask⟩

/-- The owner of a task is read from the two rows. -/
theorem ownerOf_of_rows {r : Rows} {taskId : TaskId} {task : Task} {server : Server}
    (htask : r.tasks taskId = some task) (hserver : r.servers task.serverId = some server) :
    r.ownerOf taskId = some server.ownerId := by
  unfold Rows.ownerOf
  rw [htask, Option.bind_some, hserver]
  rfl

/-- What `getOwnedTask` returns is stored and owned. -/
theorem getOwnedTask_spec {ownerId : UserId} {taskId : TaskId}
    {outcome : Except HubError Task} {h' : Hub}
    (hrun : (TasksService.getOwnedTask ownerId taskId).run h = (outcome, h')) :
    h = h' ∧ ∀ task, outcome = .ok task → h.tasks taskId = some task ∧
      h.rows.ownerOf taskId = some ownerId := by
  unfold TasksService.getOwnedTask at hrun
  have hread : (Prisma.taskFindUniqueWithServer taskId).run h =
      (.ok (h.taskWithServer taskId), h) := rfl
  rw [Proc.run_bind_of_ok hread] at hrun
  cases hfound : h.taskWithServer taskId with
  | none =>
      rw [hfound] at hrun
      cases hrun
      exact ⟨rfl, nofun⟩
  | some found =>
      obtain ⟨task, server⟩ := found
      obtain ⟨htask, hserver⟩ := taskWithServer_some hfound
      rw [hfound] at hrun
      dsimp only at hrun
      split at hrun
      · cases hrun
        exact ⟨rfl, nofun⟩
      · next howner =>
        cases hrun
        refine ⟨rfl, fun task' heq => ?_⟩
        cases heq
        exact ⟨htask, by rw [ownerOf_of_rows htask hserver, not_not.mp howner]⟩

/-- What `getOwnedServer` returns is stored and owned. -/
theorem getOwnedServer_spec {ownerId : UserId} {serverId : ServerId}
    {outcome : Except HubError Server} {h' : Hub}
    (hrun : (ServersService.getOwnedServer ownerId serverId).run h = (outcome, h')) :
    h = h' ∧ ∀ server, outcome = .ok server → h.servers serverId = some server ∧
      server.ownerId = ownerId := by
  unfold ServersService.getOwnedServer at hrun
  rw [Proc.run_bind_of_ok (Proc.run_read _ h)] at hrun
  cases hserver : h.servers serverId with
  | none =>
      rw [hserver] at hrun
      cases hrun
      exact ⟨rfl, nofun⟩
  | some server =>
      rw [hserver] at hrun
      dsimp only at hrun
      split at hrun
      · cases hrun
        exact ⟨rfl, nofun⟩
      · next howner =>
        cases hrun
        refine ⟨rfl, fun server' heq => ?_⟩
        cases heq
        exact ⟨rfl, not_not.mp howner⟩

/-! ## Candidates -/

/-- The profiles of the query are the stored ones with a stored, compatible server; the order is
irrelevant here. -/
theorem mem_profilesFor {ownerId : UserId} {provider : WorkerProvider} {excluded : List ServerId}
    {row : WorkerProfile × Server} :
    row ∈ WorkerRegistry.profilesFor env h ownerId provider excluded ↔
      (∃ id, h.workerProfiles id = some row.1) ∧ h.servers row.1.serverId = some row.2 ∧
        WorkerRegistry.compatible ownerId provider excluded row.1 row.2 = true := by
  unfold WorkerRegistry.profilesFor
  rw [List.mem_insertionSort, List.mem_filterMap]
  constructor
  · rintro ⟨⟨id, profile⟩, hmem, hbind⟩
    obtain ⟨server, hserver, hite⟩ := Option.bind_eq_some_iff.mp hbind
    split at hite
    · next hcompatible =>
      cases hite
      exact ⟨⟨id, Table.mem_toList.mp ((env.rowOrder_perm _).mem_iff.mp hmem)⟩, hserver,
        hcompatible⟩
    · cases hite
  · rintro ⟨⟨id, hprofile⟩, hserver, hcompatible⟩
    refine ⟨(id, row.1), (env.rowOrder_perm _).mem_iff.mpr (Table.mem_toList.mpr hprofile), ?_⟩
    rw [hserver, Option.bind_some, if_pos hcompatible]

/-- **The candidates for a task**: the servers with a compatible profile, among
those of the owner of the preferred server. -/
theorem getDispatchCandidates_spec {workerType : WorkerType} {preferred : ServerId}
    {excluded : List ServerId} {outcome : Except HubError (List WorkerDispatchCandidate)} {h' : Hub}
    (hrun : (WorkerRegistry.getDispatchCandidates env workerType preferred excluded).run h =
      (outcome, h')) :
    h = h' ∧ (∀ candidates, outcome = .ok candidates → workerType = .CODEX ∧
      ∃ home, h.servers preferred = some home ∧ ∀ serverId,
        (∃ candidate ∈ candidates, candidate.serverId = serverId) ↔
          ∃ id profile server, h.workerProfiles id = some profile ∧
            profile.serverId = serverId ∧ h.servers serverId = some server ∧
            WorkerRegistry.compatible home.ownerId .CODEX excluded profile server = true) ∧
      ∀ error, outcome = .error error → workerType = .CODEX → h.servers preferred = none := by
  unfold WorkerRegistry.getDispatchCandidates WorkerRegistry.get at hrun
  by_cases hcodex : workerType = CodexAdapter.workerType
  · subst hcodex
    rw [if_pos rfl] at hrun
    simp only [Proc.run_bind, Proc.run_pure, Proc.run_read] at hrun
    cases hhome : h.servers preferred with
    | none =>
        rw [hhome] at hrun
        cases hrun
        exact ⟨rfl, nofun, fun _ _ _ => rfl⟩
    | some home =>
        rw [hhome] at hrun
        cases hrun
        refine ⟨rfl, fun candidates hok => ⟨rfl, home, rfl, fun serverId => ?_⟩, nofun⟩
        cases hok
        simp only [(env.sort_perm _ _).mem_iff, List.mem_map, mem_profilesFor]
        constructor
        · rintro ⟨_, ⟨⟨profile, server⟩, ⟨⟨id, hprofile⟩, hserver, hcompatible⟩, rfl⟩, rfl⟩
          exact ⟨id, profile, server, hprofile, rfl, hserver, hcompatible⟩
        · rintro ⟨id, profile, server, hprofile, rfl, hserver, hcompatible⟩
          exact ⟨_, ⟨(profile, server), ⟨⟨id, hprofile⟩, hserver, hcompatible⟩, rfl⟩, rfl⟩
  · rw [if_neg hcodex] at hrun
    cases hrun
    exact ⟨rfl, nofun, fun _ _ h => absurd h hcodex⟩

/-! ## Delivery -/

/-- A server is online if a socket has joined its room. -/
theorem online_iff {serverId : ServerId} :
    h.online serverId = true ↔
      ∃ id socket, h.sockets id = some socket ∧ socket.room = some serverId := by
  unfold Hub.online
  simp only [List.any_eq_true, Prod.exists, Table.mem_toList, beq_iff_eq]

/-- A message to an online server is emitted; otherwise the sender gets an
exception. -/
theorem dispatchToServer_run {serverId : ServerId} {message : DaemonOutbound} :
    (RealtimeService.dispatchToServer serverId message).run h =
      if h.online serverId then
        (.ok (), { h with emitted := h.emitted ++ [⟨serverId, message⟩] })
      else (.error (HubError.offline serverId), h) := by
  unfold RealtimeService.dispatchToServer DaemonGateway.isServerOnline
    DaemonGateway.dispatchToServer
  rw [Proc.run_bind_of_ok (Proc.run_read _ h)]
  cases h.online serverId <;> rfl

/-! ## The tasks of a call -/

/-- A message is about the tasks its `taskId` selects. -/
theorem concerns_of_reports {r : Rows} {ref : TaskRef} {taskId : TaskId} {selects : TaskId → Bool}
    (huser : call.user = none) (hreports : call.reports = some ref)
    (hsel : ref.selects = some selects) (htask : selects taskId = true) :
    call.Concerns r taskId := by
  refine ⟨fun user h => ?_, fun other h => ?_⟩
  · rw [huser] at h
    cases h
  · rw [hreports] at h
    cases h
    exact ⟨selects, hsel, htask⟩

/-- A message that names a task concerns it. -/
theorem concerns_id {r : Rows} {taskId : TaskId} (huser : call.user = none)
    (hreports : call.reports = some (.id taskId)) : call.Concerns r taskId :=
  concerns_of_reports huser hreports rfl (beq_self_eq_true taskId)

/-- A call without a user and without a message may change any task. -/
theorem concerns_free {r : Rows} {taskId : TaskId} (huser : call.user = none)
    (hreports : call.reports = none) : call.Concerns r taskId := by
  refine ⟨fun user h => ?_, fun ref h => ?_⟩
  · rw [huser] at h
    cases h
  · rw [hreports] at h
    cases h

/-- A request concerns the tasks of its user. -/
theorem concerns_owned {r : Rows} {taskId : TaskId} {ownerId : UserId}
    (huser : call.user = some ownerId) (hreports : call.reports = none)
    (howner : r.ownerOf taskId = some ownerId) : call.Concerns r taskId := by
  refine ⟨fun user h => ?_, fun ref h => ?_⟩
  · rw [huser] at h
    cases h
    exact howner
  · rw [hreports] at h
    cases h

/-- An update of a task that leaves it on its server is one effect. -/
theorem taskUpdate_reaches {taskId : TaskId} {f : Task → Task}
    (hconcern : call.Concerns h.rows taskId) (hserver : ∀ task, (f task).serverId = task.serverId)
    (hworker : ∀ task, (f task).workerType = task.workerType)
    (hstatus : ∀ task, (f task).status = task.status ∨
      call.Writes ∧ (call.Typed → (f task).status ≠ .QUEUED)) :
    (Prisma.taskUpdate env taskId f).Reaches (Effect env call) Hub.rows h := by
  refine .single ?_
  rw [taskUpdate_rows hserver]
  exact .relabelled h.rows hconcern hserver hworker hstatus

end CodeCaller
