import CodeCaller.Hub.Changes
import CodeCaller.Hub.Handlers

/-!
# Integrity and ownership

`Sound` is what the foreign keys and the handlers keep true of the rows: tasks are on stored
servers, attempts are on servers of the owner of their task, there is one approval for a task, a
socket speaks for the server it was accepted for.  Ownership of a task, which is not stored, is
stable because of it.

### Main results

* `reachable_rows`: the invariant rule of the Hub.  A property of the rows that a fresh Hub has and
  every effect preserves holds in every reachable state.
* `Effect.deletes_or_keeps`: an effect deletes a server, or keeps the servers with their owners,
  the tasks, and the order of the keys.  Most proofs about ownership split here first.
* `Effect.keeps_owner`: a task keeps its owner until a server is deleted.
* `Effect.sound`, `reachable_sound`: integrity, field by field and then as a whole.

### What is load-bearing

`Rows.Candidate.owner`.  A task moves to another server by dispatch only, and the candidates are
servers of the owner of the server the task was on.  Without the `ownerId` in the query of the
registry a task could change hands, and nothing else in the code would notice.
-/

namespace CodeCaller

open Async

variable {env : Env} {call : HubCall} {r r' : Rows}

/-! ## From effects to runs -/

/-- **The invariant rule of the Hub**: what one effect preserves holds in every
reachable state. -/
theorem reachable_rows {allowed : HubCall → Prop} {I : Rows → Prop}
    (hstart : ∀ h : Hub, h.Fresh → I h.rows)
    (heffect : ∀ {call r r'}, allowed call → I r → Effect env call r r' → I r') {h : Hub}
    (hreach : (hubMachine env allowed).Reachable h) : I h.rows := by
  refine hreach.invariant (I := fun h => I h.rows) hstart fun h call hI hcall => ?_
  have hchain := after_effects env h call
  change I (h.after env call).rows
  generalize (h.after env call).rows = r at hchain ⊢
  induction hchain with
  | refl => exact hI
  | tail _ hstep ih => exact heffect hcall.1 ih hstep

/-! ## Integrity -/

/-- **The rows refer to each other as they should.** -/
structure Rows.Sound (r : Rows) : Prop where
  task_server : ∀ {id task}, r.tasks id = some task →
    ∃ server, r.servers task.serverId = some server
  attempt_owner : ∀ {id attempt}, r.attempts id = some attempt →
    ∃ server, r.servers attempt.serverId = some server ∧
      r.ownerOf attempt.taskId = some server.ownerId
  approval_task : ∀ {id approval}, r.approvals id = some approval →
    r.tasks approval.taskId ≠ none
  approval_unique : ∀ {id id' approval approval'}, r.approvals id = some approval →
    r.approvals id' = some approval' → approval.taskId = approval'.taskId → id = id'
  socket_data : ∀ {id socket serverId ownerId}, r.sockets id = some socket →
    socket.data = some (serverId, ownerId) → serverId < r.servers.next ∧
      ∀ server, r.servers serverId = some server → server.ownerId = ownerId
  socket_room : ∀ {id socket serverId}, r.sockets id = some socket →
    socket.room = some serverId → ∃ ownerId, socket.data = some (serverId, ownerId)
  job_task : ∀ {id job}, r.jobs id = some job →
    ∃ taskId, job.taskId = some taskId ∧ taskId < r.tasks.next

/-- A stored task has an owner. -/
theorem Rows.Sound.owned (hs : r.Sound) {taskId : TaskId} {task : Task}
    (htask : r.tasks taskId = some task) :
    ∃ server, r.servers task.serverId = some server ∧ r.ownerOf taskId = some server.ownerId := by
  obtain ⟨server, hserver⟩ := hs.task_server htask
  exact ⟨server, hserver, ownerOf_of_rows htask hserver⟩

/-- What has an owner is stored. -/
theorem ownerOf_some {taskId : TaskId} {ownerId : UserId}
    (howner : r.ownerOf taskId = some ownerId) :
    ∃ task server, r.tasks taskId = some task ∧ r.servers task.serverId = some server ∧
      server.ownerId = ownerId := by
  obtain ⟨task, htask, hmap⟩ := Option.bind_eq_some_iff.mp howner
  obtain ⟨server, hserver, rfl⟩ := Option.map_eq_some_iff.mp hmap
  exact ⟨task, server, htask, hserver, rfl⟩

/-- A candidate is a server of the owner of the task. -/
theorem Rows.Candidate.owner {taskId : TaskId} {serverId : ServerId}
    (hcandidate : r.Candidate taskId serverId) :
    ∃ server, r.servers serverId = some server ∧ r.ownerOf taskId = some server.ownerId := by
  obtain ⟨task, home, server, htask, -, -, hhome, hserver, howner, -⟩ := hcandidate.queued
  exact ⟨server, hserver, by rw [ownerOf_of_rows htask hhome, howner]⟩

/-! ## Servers and owners through an effect -/

/-- Whether an effect is the deletion of a server, with what it leaves. -/
def DeletesServer (call : HubCall) (r r' : Rows) : Prop :=
  ∃ serverId server, call = .removeServer server.ownerId serverId ∧
    r.servers serverId = some server ∧ r' = { r with
      servers := r.servers.filter fun id _ => id != serverId
      workerProfiles := r.workerProfiles.filter fun _ profile => profile.serverId != serverId
      tasks := r.tasks.filter fun _ task => task.serverId != serverId
      attempts := r.attempts.filter fun _ attempt => attempt.serverId != serverId &&
        (r.tasks attempt.taskId).any fun task => task.serverId != serverId
      approvals := r.approvals.filter fun _ approval =>
        (r.tasks approval.taskId).any fun task => task.serverId != serverId }

/-- What every other effect keeps: the servers with their owners, the tasks, and
the order in which keys are generated. -/
structure Keeps (r r' : Rows) : Prop where
  servers_next : r.servers.next ≤ r'.servers.next
  server : ∀ {id server}, r.servers id = some server →
    ∃ server', r'.servers id = some server' ∧ server'.ownerId = server.ownerId
  server_old : ∀ {id server'}, r'.servers id = some server' → id < r.servers.next →
    ∃ server, r.servers id = some server ∧ server'.ownerId = server.ownerId
  task : ∀ {id}, r.tasks id ≠ none → r'.tasks id ≠ none

/-- Changing a stored row does not remove it. -/
theorem modify_ne_none {ρ : Type} {t : Table ρ} {key other : ℕ} {f : ρ → ρ}
    (h : t other ≠ none) : t.modify key f other ≠ none := by
  rw [Table.modify_apply]
  split
  · next heq =>
    rw [heq] at h
    exact mt Option.map_eq_none_iff.mp h
  · exact h

/-- An effect that does not touch servers or profiles keeps what there is, if it keeps the tasks.
-/
theorem Keeps.of_servers (hservers : r'.servers = r.servers)
    (htask : ∀ {id}, r.tasks id ≠ none → r'.tasks id ≠ none) : Keeps r r' where
  servers_next := by rw [hservers]
  server {id server} hrow := ⟨server, by rw [hservers, hrow], rfl⟩
  server_old {id server'} hrow _ := ⟨server', by rw [← hservers, hrow], rfl⟩
  task := htask

/-- **An effect deletes a server, or keeps what there is.** -/
theorem Effect.deletes_or_keeps (h : Effect env call r r') :
    DeletesServer call r r' ∨ Keeps r r' := by
  cases h with
  | serverDeleted hcall hserver howner =>
      rw [← howner] at hcall
      exact .inl ⟨_, _, hcall, hserver, rfl⟩
  | serverAdded profiles huser =>
      refine .inr ⟨Nat.le_succ _, fun {id server} hrow => ⟨server, ?_, rfl⟩,
        fun {id server'} hrow hold => ⟨server', ?_, rfl⟩, id⟩
      · rw [Table.insert_apply, if_neg (Table.lt_next hrow).ne, hrow]
      · rwa [Table.insert_apply, if_neg hold.ne] at hrow
  | @serverMarked serverId f huser howner =>
      refine .inr ⟨le_rfl, fun {id server} hrow => ?_, fun {id server'} hrow _ => ?_, id⟩
      · rw [Table.modify_apply]
        split
        · next heq =>
          rw [← heq, hrow]
          exact ⟨f server, rfl, howner server⟩
        · exact ⟨server, hrow, rfl⟩
      · rw [Table.modify_apply] at hrow
        split at hrow
        · next heq =>
          obtain ⟨server, hserver, rfl⟩ := Option.map_eq_some_iff.mp hrow
          exact ⟨server, heq ▸ hserver, howner server⟩
        · exact ⟨server', hrow, rfl⟩
  | submitted =>
      refine .inr (.of_servers rfl fun {id} hrow => ?_)
      rw [Table.insert_apply]
      split
      · exact nofun
      · exact hrow
  | relabelled => exact .inr (.of_servers rfl modify_ne_none)
  | failedOver => exact .inr (.of_servers rfl modify_ne_none)
  | assigned => exact .inr (.of_servers rfl modify_ne_none)
  | expired => exact .inr (.of_servers rfl modify_ne_none)
  | requeued => exact .inr (.of_servers rfl modify_ne_none)
  | _ => exact .inr (.of_servers rfl id)

/-- What the deletion of a server leaves of the tasks. -/
theorem DeletesServer.task (h : DeletesServer call r r') {id : TaskId} {task : Task}
    (hrow : r'.tasks id = some task) : r.tasks id = some task ∧ r'.ownerOf id = r.ownerOf id := by
  obtain ⟨serverId, deleted, -, -, rfl⟩ := h
  obtain ⟨hrow', hon⟩ := Option.filter_eq_some_iff.mp hrow
  refine ⟨hrow', ?_⟩
  unfold Rows.ownerOf
  rw [hrow, hrow', Option.bind_some, Option.bind_some]
  change ((r.servers task.serverId).filter _).map _ = _
  cases r.servers task.serverId with
  | none => rfl
  | some server => rw [Option.filter_some, if_pos hon]

/-- **Ownership is stable**: a task keeps its owner until a server is deleted. -/
theorem Effect.keeps_owner (h : Effect env call r r') {taskId : TaskId} {ownerId : UserId}
    (howner : r.ownerOf taskId = some ownerId) :
    r'.ownerOf taskId = some ownerId ∨ DeletesServer call r r' ∧ r'.tasks taskId = none := by
  obtain ⟨task, server, htask, hserver, rfl⟩ := ownerOf_some howner
  rcases h.deletes_or_keeps with hdelete | hkeeps
  · cases htask' : r'.tasks taskId with
    | none => exact .inr ⟨hdelete, rfl⟩
    | some task' => exact .inl (by rw [(hdelete.task htask').2, howner])
  · have hstored : r'.tasks taskId ≠ none := hkeeps.task (by rw [htask]; exact nofun)
    obtain ⟨task', htask'⟩ := Option.ne_none_iff_exists'.mp hstored
    have hsame : task'.serverId = task.serverId →
        r'.ownerOf taskId = some server.ownerId := fun hserverId => by
      obtain ⟨server', hserver', heq⟩ := hkeeps.server hserver
      rw [← hserverId] at hserver'
      rw [ownerOf_of_rows htask' hserver', heq]
    have hchange := h.task taskId
    rw [htask, htask'] at hchange
    left
    cases hchange with
    | kept => exact hsame rfl
    | relabelled _ hserverId => exact hsame hserverId
    | failedOver _ _ _ hserverId => exact hsame hserverId
    | expired _ _ hserverId => exact hsame hserverId
    | requeued _ _ hserverId => exact hsame hserverId
    | assigned _ hcandidate =>
        obtain ⟨target, htarget, howns⟩ := hcandidate.owner
        obtain ⟨target', htarget', heq⟩ := hkeeps.server htarget
        rw [ownerOf_of_rows htask' htarget', heq, ← howns, howner]

/-! ## Integrity through an effect -/

/-- A task has an owner after the effect as well. -/
theorem Effect.sound_task (h : Effect env call r r') (hs : r.Sound) {id : TaskId} {task' : Task}
    (htask' : r'.tasks id = some task') : ∃ ownerId, r'.ownerOf id = some ownerId := by
  cases htask : r.tasks id with
  | some task =>
      obtain ⟨server, -, howner⟩ := hs.owned htask
      rcases h.keeps_owner howner with hkept | ⟨-, hgone⟩
      · exact ⟨_, hkept⟩
      · rw [htask'] at hgone
        cases hgone
  | none =>
      have hchange := h.task id
      rw [htask, htask'] at hchange
      cases hchange with
      | submitted hcall hserver howner hserverId =>
          rcases h.deletes_or_keeps with ⟨_, _, hremove, -⟩ | hkeeps
          · rw [hcall] at hremove
            cases hremove
          · obtain ⟨server', hserver', -⟩ := hkeeps.server hserver
            rw [← hserverId] at hserver'
            exact ⟨_, ownerOf_of_rows htask' hserver'⟩

@[simp] theorem TaskAttempt.closed_taskId {payload : DaemonTaskResultPayload}
    {lastSeen finished : Time} {attempt : TaskAttempt} :
    (attempt.closed payload lastSeen finished).taskId = attempt.taskId := by
  unfold TaskAttempt.closed
  split <;> rfl

/-- An attempt that is left by an effect was there with its task and its server,
or is on a candidate. -/
theorem AttemptChange.origin {id : TaskAttemptId} {attempt' : TaskAttempt}
    {row : Option TaskAttempt} (h : AttemptChange env call r id row (some attempt')) :
    (∃ attempt, row = some attempt ∧ attempt.taskId = attempt'.taskId ∧
      attempt.serverId = attempt'.serverId) ∨
    (id = r.attempts.next ∧ (∃ jobId, call = .dispatch jobId) ∧
      r.Candidate attempt'.taskId attempt'.serverId) := by
  cases h with
  | kept => exact .inl ⟨attempt', rfl, rfl, rfl⟩
  | @touched attempt => exact .inl ⟨attempt, rfl, rfl, rfl⟩
  | @settled attempt _ payload =>
      refine .inl ⟨attempt, rfl, ?_, ?_⟩ <;> unfold TaskAttempt.closed <;> split <;> rfl
  | @expired attempt => exact .inl ⟨attempt, rfl, rfl, rfl⟩
  | assigned _ _ hcall hcandidate hnew => exact .inr ⟨hnew, hcall, hcandidate⟩
  | rejected _ _ _ hcall hcandidate hnew => exact .inr ⟨hnew, hcall, hcandidate⟩

/-- An attempt is on a server of the owner of its task. -/
theorem Effect.sound_attempt (h : Effect env call r r') (hs : r.Sound) {id : TaskAttemptId}
    {attempt' : TaskAttempt} (hattempt' : r'.attempts id = some attempt') :
    ∃ server, r'.servers attempt'.serverId = some server ∧
      r'.ownerOf attempt'.taskId = some server.ownerId := by
  have hbefore : ∃ server, r.servers attempt'.serverId = some server ∧
      r.ownerOf attempt'.taskId = some server.ownerId := by
    have hchange := h.attempt id
    rw [hattempt'] at hchange
    rcases hchange.origin with ⟨attempt, hrow, htask, hserver⟩ | ⟨-, -, hcandidate⟩
    · rw [← htask, ← hserver]
      exact hs.attempt_owner hrow
    · exact hcandidate.owner
  obtain ⟨server, hserver, howner⟩ := hbefore
  rcases h.deletes_or_keeps with ⟨serverId, deleted, -, -, rfl⟩ | hkeeps
  · obtain ⟨-, hon⟩ := Option.filter_eq_some_iff.mp hattempt'
    obtain ⟨hother, htask⟩ := Bool.and_eq_true_iff.mp hon
    obtain ⟨task, htask, hstays⟩ := (Option.any_eq_true _ _).mp htask
    refine ⟨server, Option.filter_eq_some_iff.mpr ⟨hserver, hother⟩, ?_⟩
    rcases h.keeps_owner howner with hkept | ⟨-, hgone⟩
    · exact hkept
    · change (r.tasks attempt'.taskId).filter _ = none at hgone
      rw [htask, Option.filter_some, if_pos hstays] at hgone
      cases hgone
  · obtain ⟨server', hserver', heq⟩ := hkeeps.server hserver
    refine ⟨server', hserver', ?_⟩
    rcases h.keeps_owner howner with hkept | ⟨-, hgone⟩
    · rw [hkept, heq]
    · obtain ⟨task, htask, -⟩ := Option.bind_eq_some_iff.mp howner
      exact absurd hgone (hkeeps.task (by rw [htask]; exact nofun))

/-- An approval is of a stored task: it is deleted with it. -/
theorem Effect.sound_approval (h : Effect env call r r') (hs : r.Sound) {id : ApprovalId}
    {approval' : Approval} (happroval' : r'.approvals id = some approval') :
    r'.tasks approval'.taskId ≠ none := by
  rcases h.deletes_or_keeps with ⟨serverId, deleted, -, -, rfl⟩ | hkeeps
  · obtain ⟨-, hon⟩ := Option.filter_eq_some_iff.mp happroval'
    obtain ⟨task, htask, hstays⟩ := (Option.any_eq_true _ _).mp hon
    change (r.tasks approval'.taskId).filter _ ≠ none
    rw [htask, Option.filter_some, if_pos hstays]
    exact nofun
  · refine hkeeps.task ?_
    have hchange := h.approval id
    rw [happroval'] at hchange
    generalize hrow : r.approvals id = row at hchange
    cases hchange with
    | kept => exact hs.approval_task hrow
    | created _ _ htask => exact htask
    | @decided approval => exact @Rows.Sound.approval_task r hs id approval hrow

/-- There is one approval for a task, since a second one is refused. -/
theorem Effect.sound_unique (h : Effect env call r r') (hs : r.Sound) {id id' : ApprovalId}
    {approval approval' : Approval} (hrow : r'.approvals id = some approval)
    (hrow' : r'.approvals id' = some approval') (hsame : approval.taskId = approval'.taskId) :
    id = id' := by
  cases h with
  | approvalCreated date hcall hid htask hnone =>
      rw [Table.insert_apply] at hrow hrow'
      split at hrow <;> split at hrow'
      · next heq heq' => rw [heq, heq']
      · cases hrow
        exact absurd hsame.symm (hnone id' approval' hrow')
      · cases hrow'
        exact absurd hsame (hnone id approval hrow)
      · exact hs.approval_unique hrow hrow' hsame
  | @approvalDecided _ approvalId dto decided date =>
      have hbefore : ∀ {id approval}, r.approvals.modify approvalId (Approval.decided dto date) id =
          some approval → ∃ old, r.approvals id = some old ∧ old.taskId = approval.taskId := by
        intro id approval hrow
        rw [Table.modify_apply] at hrow
        split at hrow
        · next heq =>
          obtain ⟨old, hold, rfl⟩ := Option.map_eq_some_iff.mp hrow
          exact ⟨old, heq ▸ hold, rfl⟩
        · exact ⟨approval, hrow, rfl⟩
      obtain ⟨old, hold, htask⟩ := hbefore hrow
      obtain ⟨old', hold', htask'⟩ := hbefore hrow'
      exact hs.approval_unique hold hold' (by rw [htask, htask', hsame])
  | serverDeleted =>
      exact hs.approval_unique (Option.filter_eq_some_iff.mp hrow).1
        (Option.filter_eq_some_iff.mp hrow').1 hsame
  | _ => exact hs.approval_unique hrow hrow' hsame

/-- What a socket says about its server stays true while servers change. -/
theorem Effect.keeps_socket_data (h : Effect env call r r') {serverId : ServerId}
    {ownerId : UserId} (hdata : serverId < r.servers.next ∧
      ∀ server, r.servers serverId = some server → server.ownerId = ownerId) :
    serverId < r'.servers.next ∧
      ∀ server, r'.servers serverId = some server → server.ownerId = ownerId := by
  rcases h.deletes_or_keeps with ⟨_, _, -, -, rfl⟩ | hkeeps
  · exact ⟨hdata.1, fun server hrow => hdata.2 server (Option.filter_eq_some_iff.mp hrow).1⟩
  · refine ⟨hdata.1.trans_le hkeeps.servers_next, fun server' hrow => ?_⟩
    obtain ⟨server, hserver, heq⟩ := hkeeps.server_old hrow hdata.1
    rw [heq]
    exact hdata.2 server hserver

/-- A socket that is left by an effect was there, is new, or was accepted for a
stored server. -/
theorem Effect.socket (h : Effect env call r r') {id : ℕ} {socket' : DaemonSocket}
    (hrow : r'.sockets id = some socket') :
    r.sockets id = some socket' ∨ (socket'.data = none ∧ socket'.room = none) ∨
      ∃ serverId server, r.servers serverId = some server ∧
        socket'.data = some (serverId, server.ownerId) ∧ socket'.room = some serverId := by
  cases h with
  | socketOpened =>
      rw [Table.insert_apply] at hrow
      split at hrow
      · cases hrow
        exact .inr (.inl ⟨rfl, rfl⟩)
      · exact .inl hrow
  | socketAccepted hcall hserver =>
      rw [Table.modify_apply] at hrow
      split at hrow
      · obtain ⟨socket, -, rfl⟩ := Option.map_eq_some_iff.mp hrow
        exact .inr (.inr ⟨_, _, hserver, rfl, rfl⟩)
      · exact .inl hrow
  | socketClosed => exact .inl (Option.filter_eq_some_iff.mp hrow).1
  | _ => exact .inl hrow

/-- Keys of tasks are generated upwards. -/
theorem Effect.tasks_next (h : Effect env call r r') : r.tasks.next ≤ r'.tasks.next := by
  cases h with
  | submitted => exact Nat.le_succ _
  | _ => exact le_rfl

/-- A job that is left by an effect was there with its task, or is for a task
that is stored after it. -/
theorem Effect.job (h : Effect env call r r') {id : ℕ} {job' : DispatchJob}
    (hrow : r'.jobs id = some job') :
    (∃ job, r.jobs id = some job ∧ job.taskId = job'.taskId) ∨
      ∃ taskId, job'.taskId = some taskId ∧ r'.tasks taskId ≠ none := by
  cases h with
  | submitted =>
      rw [Table.insert_apply] at hrow
      split at hrow
      · cases hrow
        refine .inr ⟨_, rfl, ?_⟩
        rw [Table.insert_apply, if_pos rfl]
        exact nofun
      · exact .inl ⟨job', hrow, rfl⟩
  | failedOver _ _ _ _ _ _ _ htask =>
      rw [Table.insert_apply] at hrow
      split at hrow
      · cases hrow
        exact .inr ⟨_, rfl, modify_ne_none (by rw [htask]; exact nofun)⟩
      · exact .inl ⟨job', hrow, rfl⟩
  | requeued _ _ _ _ htask =>
      rw [Table.insert_apply] at hrow
      split at hrow
      · cases hrow
        exact .inr ⟨_, rfl, modify_ne_none (by rw [htask]; exact nofun)⟩
      · exact .inl ⟨job', hrow, rfl⟩
  | @jobTaken jobId job outcome =>
      rw [Table.modify_apply] at hrow
      split at hrow
      · next hcall hjob heq =>
        rw [hjob] at hrow
        cases hrow
        refine .inl ⟨job, heq ▸ hjob, ?_⟩
        cases outcome <;> rfl
      · exact .inl ⟨job', hrow, rfl⟩
  | _ => exact .inl ⟨job', hrow, rfl⟩

/-- **Every effect preserves integrity.** -/
theorem Effect.sound (h : Effect env call r r') (hs : r.Sound) : r'.Sound where
  task_server hrow := by
    obtain ⟨ownerId, howner⟩ := h.sound_task hs hrow
    obtain ⟨task, server, htask, hserver, -⟩ := ownerOf_some howner
    rw [hrow] at htask
    cases htask
    exact ⟨server, hserver⟩
  attempt_owner hrow := h.sound_attempt hs hrow
  approval_task hrow := h.sound_approval hs hrow
  approval_unique hrow hrow' hsame := h.sound_unique hs hrow hrow' hsame
  socket_data hrow hdata := by
    rcases h.socket hrow with hold | ⟨hnone, -⟩ | ⟨serverId, server, hserver, haccepted, -⟩
    · exact h.keeps_socket_data (hs.socket_data hold hdata)
    · rw [hnone] at hdata
      cases hdata
    · rw [haccepted] at hdata
      cases hdata
      refine h.keeps_socket_data ⟨Table.lt_next hserver, fun other hother => ?_⟩
      rw [hserver] at hother
      cases hother
      rfl
  socket_room hrow hroom := by
    rcases h.socket hrow with hold | ⟨-, hnone⟩ | ⟨serverId, server, -, haccepted, hjoined⟩
    · exact hs.socket_room hold hroom
    · rw [hnone] at hroom
      cases hroom
    · rw [hjoined] at hroom
      cases hroom
      exact ⟨_, haccepted⟩
  job_task hrow := by
    rcases h.job hrow with ⟨job, hold, htask⟩ | ⟨taskId, htask, hstored⟩
    · obtain ⟨taskId, hid, hlt⟩ := hs.job_task hold
      exact ⟨taskId, htask ▸ hid, hlt.trans_le h.tasks_next⟩
    · obtain ⟨task, hrow⟩ := Option.ne_none_iff_exists'.mp hstored
      exact ⟨taskId, htask, Table.lt_next hrow⟩

/-- A Hub that has just started is sound. -/
theorem Hub.Fresh.sound {h : Hub} (hfresh : h.Fresh) : h.rows.Sound := by
  have htasks : h.rows.tasks = Table.empty := hfresh.tasks
  have hattempts : h.rows.attempts = Table.empty := hfresh.attempts
  have happrovals : h.rows.approvals = Table.empty := hfresh.approvals
  have hjobs : h.rows.jobs = Table.empty := hfresh.jobs
  have hsockets : h.rows.sockets = Table.empty := hfresh.sockets
  constructor <;> intros <;> simp_all

/-- **Integrity of the Hub**: every reachable state is sound. -/
theorem reachable_sound {allowed : HubCall → Prop} {h : Hub}
    (hreach : (hubMachine env allowed).Reachable h) : h.rows.Sound :=
  reachable_rows (fun _ hfresh => hfresh.sound) (fun _ hs heffect => heffect.sound hs) hreach

end CodeCaller
