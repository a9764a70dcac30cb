import CodeCaller.Hub.Effects

/-!
# What an effect does to one row

An `Effect` is about several tables at once.  Most invariants look at one row: for each table there
is the list of changes one of its rows can undergo, and the theorem that every effect changes every
row in one of these ways.

* `AttemptChange` and `Effect.attempt`: an attempt is opened by the candidate that took the task,
  or by one that could not be reached; it is seen, closed by a result or by the watchdog, or
  deleted with its server or its task.
* `TaskChange` and `Effect.task`, `ApprovalChange` and `Effect.approval`, `ServerChange` and
  `Effect.server` say the same for the other tables.

Each list begins with a row that the effect does not touch, so an invariant of a row is one case
analysis on its own table, and the constructors of `Effect` about other tables never come up.
-/

namespace CodeCaller

open Async

variable {env : Env} {call : HubCall} {r r' : Rows}

/-! ## Attempts -/

/-- **The life of an attempt**, one change at a time. -/
inductive AttemptChange (env : Env) (call : HubCall) (r : Rows) (id : TaskAttemptId) :
    Option TaskAttempt → Option TaskAttempt → Prop where
  | kept (row : Option TaskAttempt) : AttemptChange env call r id row row
  | touched {attempt : TaskAttempt} {ref : TaskRef} {selects : TaskId → Bool} (date : Time)
      (hcall : call.reports = some ref) (hsel : ref.selects = some selects)
      (hof : selects attempt.taskId = true) (hactive : attempt.active = true) :
      AttemptChange env call r id (some attempt) (some (attempt.seen date))
  | settled {attempt : TaskAttempt} {socketId : ℕ} {payload : DaemonTaskResultPayload}
      {selects : TaskId → Bool} (lastSeen finished : Time)
      (hcall : call = .message socketId (.TASK_RESULT payload))
      (hsel : payload.taskId.selects = some selects) (hof : selects attempt.taskId = true)
      (hactive : attempt.active = true) :
      AttemptChange env call r id (some attempt) (some (attempt.closed payload lastSeen finished))
  | expired {attempt : TaskAttempt} (finished : Time) (hcall : call = .watchdog)
      (hactive : attempt.active = true) :
      AttemptChange env call r id (some attempt) (some (attempt.expired env finished))
  | assigned {taskId : TaskId} {serverId : ServerId} (started lastSeen : Time)
      (hcall : ∃ jobId, call = .dispatch jobId) (hcandidate : r.Candidate taskId serverId)
      (hnew : id = r.attempts.next) :
      AttemptChange env call r id none
        (some ⟨taskId, serverId, .RUNNING, none, started, lastSeen, none⟩)
  | rejected {taskId : TaskId} {serverId : ServerId} (started lastSeen finished : Time)
      (hcall : ∃ jobId, call = .dispatch jobId) (hcandidate : r.Candidate taskId serverId)
      (hnew : id = r.attempts.next) :
      AttemptChange env call r id none (some ⟨taskId, serverId, .FAILED,
        some (HubError.offline serverId).message, started, lastSeen, some finished⟩)
  | deleted {attempt : TaskAttempt} {serverId : ServerId} {server : Server}
      (hcall : call = .removeServer server.ownerId serverId)
      (hserver : r.servers serverId = some server)
      (hon : attempt.serverId = serverId ∨
        ∀ task, r.tasks attempt.taskId = some task → task.serverId = serverId) :
      AttemptChange env call r id (some attempt) none

/-- An update of the latest active attempt changes one row, or none. -/
theorem updateActive_change {selects : TaskId → Bool} {f : TaskAttempt → TaskAttempt}
    {id : TaskAttemptId}
    (hchange : ∀ attempt, selects attempt.taskId = true → attempt.active = true →
      AttemptChange env call r id (some attempt) (some (f attempt))) :
    AttemptChange env call r id (r.attempts id) (updateActive env selects f r.attempts id) := by
  rcases updateActive_cases env selects f r.attempts with
    ⟨hsame, -⟩ | ⟨found, attempt, hrow, hof, hactive, hmodify⟩
  · rw [hsame]
    exact .kept _
  · rw [hmodify, Table.modify_apply]
    split
    · next heq =>
      subst heq
      rw [hrow]
      exact hchange attempt hof hactive
    · exact .kept _

/-- A new attempt is stored at the next key. -/
theorem insert_change {attempt : TaskAttempt} {id : TaskAttemptId}
    (hchange : id = r.attempts.next → AttemptChange env call r id none (some attempt)) :
    AttemptChange env call r id (r.attempts id) (r.attempts.insert attempt id) := by
  rw [Table.insert_apply]
  split
  · next heq =>
    rw [r.attempts.fresh id heq.ge]
    exact hchange heq
  · exact .kept _

/-- The attempt the watchdog has found expires; the others are as they were. -/
theorem expire_change {found : TaskAttemptId} {attempt : TaskAttempt} {finished : Time}
    (hcall : call = .watchdog) (hrow : r.attempts found = some attempt)
    (hactive : attempt.active = true) (id : TaskAttemptId) :
    AttemptChange env call r id (r.attempts id)
      (r.attempts.modify found (TaskAttempt.expired env finished) id) := by
  rw [Table.modify_apply]
  split
  · next heq =>
    rw [heq, hrow]
    exact .expired finished hcall hactive
  · exact .kept _

/-- **Every effect changes an attempt in one of these ways.** -/
theorem Effect.attempt (h : Effect env call r r') (id : TaskAttemptId) :
    AttemptChange env call r id (r.attempts id) (r'.attempts id) := by
  cases h with
  | touched date hcall hsel =>
      exact updateActive_change fun _ hof hactive => .touched date hcall hsel hof hactive
  | settled lastSeen finished hcall hsel =>
      exact updateActive_change fun _ hof hactive =>
        .settled lastSeen finished hcall hsel hof hactive
  | failedOver lastSeen finished _ _ hcall hid =>
      have hsel := congrArg TaskRef.selects hid
      exact updateActive_change fun _ hof hactive =>
        .settled lastSeen finished hcall hsel hof hactive
  | assigned _ started lastSeen _ hcall _ _ hcandidate =>
      exact insert_change (.assigned started lastSeen ⟨_, hcall⟩ hcandidate)
  | rejected started lastSeen finished hcall _ _ hcandidate =>
      exact insert_change (.rejected started lastSeen finished ⟨_, hcall⟩ hcandidate)
  | expired _ _ _ hcall _ _ hrow _ hactive => exact expire_change hcall hrow hactive id
  | requeued _ _ _ hcall _ _ hrow _ hactive => exact expire_change hcall hrow hactive id
  | serverDeleted hcall hserver howner =>
      rw [Table.filter_apply]
      cases hrow : r.attempts id with
      | none => exact .kept none
      | some attempt =>
          rw [Option.filter_some]
          split
          · exact .kept _
          · next hon =>
            rw [← howner] at hcall
            refine .deleted hcall hserver ?_
            by_contra hoff
            obtain ⟨hserverId, htask⟩ := not_or.mp hoff
            obtain ⟨task, htask, hother⟩ := not_forall₂.mp htask
            simp [hserverId, htask, hother] at hon
  | _ => exact .kept _

/-! ## Tasks -/

/-- **The life of a task**, one change at a time. -/
inductive TaskChange (env : Env) (call : HubCall) (r : Rows) (taskId : TaskId) :
    Option Task → Option Task → Prop where
  | kept (row : Option Task) : TaskChange env call r taskId row row
  | submitted {ownerId : UserId} {dto : CreateTaskDto} {server : Server} {task : Task}
      (hcall : call = .submit ownerId dto) (hserver : r.servers dto.serverId = some server)
      (howner : server.ownerId = ownerId) (htask : task.serverId = dto.serverId)
      (hqueued : task.status = .QUEUED) (hnew : taskId = r.tasks.next) :
      TaskChange env call r taskId none (some task)
  | relabelled {task task' : Task} (hconcern : call.Concerns r taskId)
      (hserver : task'.serverId = task.serverId)
      (hstatus : task'.status = task.status ∨
        call.Writes ∧ (call.Typed → task'.status ≠ .QUEUED)) :
      TaskChange env call r taskId (some task) (some task')
  | failedOver {task task' : Task} {socketId : ℕ} {payload : DaemonTaskResultPayload}
      (hcall : call = .message socketId (.TASK_RESULT payload))
      (hid : payload.taskId = .id taskId)
      (hcapacity : TasksService.isRetryableCapacityFailure payload = true)
      (hserver : task'.serverId = task.serverId) (hqueued : task'.status = .QUEUED) :
      TaskChange env call r taskId (some task) (some task')
  | assigned {task task' : Task} (hcall : ∃ jobId, call = .dispatch jobId)
      (hcandidate : r.Candidate taskId task'.serverId) (hqueued : task.status = .QUEUED)
      (hrunning : task'.status = .RUNNING) :
      TaskChange env call r taskId (some task) (some task')
  | expired {task task' : Task} (hcall : call = .watchdog) (hrunning : task.status = .RUNNING)
      (hserver : task'.serverId = task.serverId) (hfailed : task'.status = .FAILED) :
      TaskChange env call r taskId (some task) (some task')
  | requeued {task task' : Task} (hcall : call = .watchdog) (hrunning : task.status = .RUNNING)
      (hserver : task'.serverId = task.serverId) (hqueued : task'.status = .QUEUED) :
      TaskChange env call r taskId (some task) (some task')
  | deleted {task : Task} {server : Server}
      (hcall : call = .removeServer server.ownerId task.serverId)
      (hserver : r.servers task.serverId = some server) :
      TaskChange env call r taskId (some task) none

/-- A change of one task changes that row, or none. -/
theorem modify_change {taskId : TaskId} {f : Task → Task}
    (hchange : ∀ task, r.tasks taskId = some task →
      TaskChange env call r taskId (some task) (some (f task))) (id : TaskId) :
    TaskChange env call r id (r.tasks id) (r.tasks.modify taskId f id) := by
  rw [Table.modify_apply]
  split
  · next heq =>
    rw [heq]
    cases hrow : r.tasks taskId with
    | none => exact .kept none
    | some task => exact hchange task hrow
  · exact .kept _

/-- **Every effect changes a task in one of these ways.** -/
theorem Effect.task (h : Effect env call r r') (id : TaskId) :
    TaskChange env call r id (r.tasks id) (r'.tasks id) := by
  cases h with
  | submitted date hcall hserver howner =>
      rw [Table.insert_apply]
      split
      · next heq =>
        rw [heq, r.tasks.fresh r.tasks.next le_rfl]
        exact .submitted hcall hserver howner rfl rfl rfl
      · exact .kept _
  | relabelled hconcern hserver _ hstatus =>
      exact modify_change (fun task _ => .relabelled hconcern (hserver task)
        (hstatus task)) id
  | failedOver _ _ _ _ hcall hid hcapacity =>
      refine modify_change (fun _ _ => ?_) id
      exact .failedOver hcall hid hcapacity rfl rfl
  | assigned _ _ _ _ hcall _ _ hcandidate =>
      refine modify_change (fun task hrow => .assigned ⟨_, hcall⟩ hcandidate ?_ rfl) id
      -- a candidate is one for a task that is queued
      obtain ⟨queued, -, -, hqueued, hstatus, -⟩ := hcandidate.queued
      rw [hrow] at hqueued
      cases hqueued
      exact hstatus
  | expired _ _ _ hcall htask hrunning =>
      refine modify_change (fun task hrow => ?_) id
      rw [htask] at hrow
      cases hrow
      exact .expired hcall hrunning rfl rfl
  | requeued _ _ _ hcall htask hrunning =>
      refine modify_change (fun task hrow => ?_) id
      rw [htask] at hrow
      cases hrow
      exact .requeued hcall hrunning rfl rfl
  | serverDeleted hcall hserver howner =>
      rw [Table.filter_apply]
      cases hrow : r.tasks id with
      | none => exact .kept none
      | some task =>
          rw [Option.filter_some]
          split
          · exact .kept _
          · next hon =>
            -- the task went with its server
            simp only [bne_iff_ne, ne_eq, not_not] at hon
            rw [← howner, ← hon] at hcall
            rw [← hon] at hserver
            exact .deleted hcall hserver
  | _ => exact .kept _

/-! ## Approvals -/

/-- **The life of an approval**, one change at a time. -/
inductive ApprovalChange (call : HubCall) (r : Rows) (approvalId : ApprovalId) :
    Option Approval → Option Approval → Prop where
  | kept (row : Option Approval) : ApprovalChange call r approvalId row row
  | created {approval : Approval} {socketId : ℕ} {payload : DaemonApprovalRequestPayload}
      (hcall : call = .message socketId (.APPROVAL_REQUEST payload))
      (hid : payload.taskId = .id approval.taskId) (htask : r.tasks approval.taskId ≠ none)
      (hpending : approval.status = .PENDING) (hreason : approval.reason = payload.reason)
      (hnew : approvalId = r.approvals.next) :
      ApprovalChange call r approvalId none (some approval)
  | decided {approval : Approval} {ownerId : UserId} {dto : DecideApprovalDto} (date : Time)
      (hcall : call = .decideApproval ownerId approvalId dto)
      (hpending : approval.status = .PENDING)
      (howner : r.ownerOf approval.taskId = some ownerId) :
      ApprovalChange call r approvalId (some approval) (some (approval.decided dto date))
  | deleted {approval : Approval} {serverId : ServerId} {server : Server}
      (hcall : call = .removeServer server.ownerId serverId)
      (hserver : r.servers serverId = some server)
      (htask : ∀ task, r.tasks approval.taskId = some task → task.serverId = serverId) :
      ApprovalChange call r approvalId (some approval) none

/-- **Every effect changes an approval in one of these ways.** -/
theorem Effect.approval (h : Effect env call r r') (id : ApprovalId) :
    ApprovalChange call r id (r.approvals id) (r'.approvals id) := by
  cases h with
  | approvalCreated date hcall hid htask =>
      rw [Table.insert_apply]
      split
      · next heq =>
        rw [heq, r.approvals.fresh r.approvals.next le_rfl]
        refine .created hcall hid ?_ rfl rfl rfl
        rw [htask]
        exact nofun
      · exact .kept _
  | approvalDecided date hcall happroval hpending howner =>
      rw [Table.modify_apply]
      split
      · next heq =>
        rw [heq, happroval]
        exact .decided date hcall hpending howner
      · exact .kept _
  | serverDeleted hcall hserver howner =>
      rw [Table.filter_apply]
      cases hrow : r.approvals id with
      | none => exact .kept none
      | some approval =>
          rw [Option.filter_some]
          split
          · exact .kept _
          · next hon =>
            rw [← howner] at hcall
            refine .deleted hcall hserver fun task htask => ?_
            simpa [htask] using hon
  | _ => exact .kept _

/-! ## Servers -/

/-- **The life of a server**, one change at a time. -/
inductive ServerChange (call : HubCall) (r : Rows) (serverId : ServerId) :
    Option Server → Option Server → Prop where
  | kept (row : Option Server) : ServerChange call r serverId row row
  | added {server : Server} (huser : call.user = some server.ownerId)
      (hnew : serverId = r.servers.next) : ServerChange call r serverId none (some server)
  | marked {server server' : Server} (huser : call.user = none)
      (howner : server'.ownerId = server.ownerId) :
      ServerChange call r serverId (some server) (some server')
  | deleted {server : Server} (hcall : call = .removeServer server.ownerId serverId) :
      ServerChange call r serverId (some server) none

/-- **Every effect changes a server in one of these ways.** -/
theorem Effect.server (h : Effect env call r r') (id : ServerId) :
    ServerChange call r id (r.servers id) (r'.servers id) := by
  cases h with
  | serverAdded _ huser =>
      rw [Table.insert_apply]
      split
      · next heq =>
        rw [heq, r.servers.fresh r.servers.next le_rfl]
        exact .added huser rfl
      · exact .kept _
  | serverMarked hcall howner =>
      rw [Table.modify_apply]
      split
      · next heq =>
        rw [heq]
        cases r.servers _ with
        | none => exact .kept none
        | some server => exact .marked hcall.user (howner server)
      · exact .kept _
  | serverDeleted hcall hserver howner =>
      rw [Table.filter_apply]
      cases hrow : r.servers id with
      | none => exact .kept none
      | some server =>
          rw [Option.filter_some]
          split
          · exact .kept _
          · next hon =>
            simp only [bne_iff_ne, ne_eq, not_not] at hon
            subst hon
            rw [hserver] at hrow
            cases hrow
            rw [← howner] at hcall
            exact .deleted hcall
  | _ => exact .kept _

end CodeCaller
