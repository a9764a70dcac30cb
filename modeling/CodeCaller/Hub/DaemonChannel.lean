import CodeCaller.Hub.TenantIsolation

/-!
# Isolation of the daemon channel

The gateway authenticates a socket when it connects, and keeps the server and its owner in
`socket.data`.  A heartbeat is for that server; the handlers of the other messages see only the
payload.  What a message can change is decided by the `taskId` it carries, so the channel isolates
owners exactly as far as daemons send the tasks of their own.

### Main definitions

* `HubCall.Targets`: the stored task a message reaches.  A `taskId` that is a string names it.  One
  that is no string is rejected by some queries and ignored by others: `findFirst` with `taskId:
  undefined` finds the latest active attempt of any task.
* `HubCall.OwnTargets`: the tasks reached are the owner's of the socket.
* `HubCall.Confined`: what such a message leaves alone.

### Main results

* `daemon_channel_confined`: with `OwnTargets`, in every reachable state.
* `daemon_channel_not_confined`: without it, a daemon ends the task of somebody else, and so does a
  socket that has not been accepted yet.

A message about a task that is not stored is the delicate case: the handlers touch the attempt
before they look for the task, so `Touches` describes what is left when the task turns out to be
missing.
-/

namespace CodeCaller

open Async

variable {env : Env} {h : Hub} {socketId : ℕ} {inbound : DaemonInbound}

/-! ## What a message is about -/

/-- **The tasks a message reaches**: the one its `taskId` names, or the one whose
latest active attempt a `taskId` that is no string selects. -/
def HubCall.Targets (env : Env) (h : Hub) (call : HubCall) (taskId : TaskId) : Prop :=
  match call.reports with
  | some (.id other) => other = taskId
  | some (.filter selects) => ∃ id attempt,
    latestActive env h.attempts selects = some (id, attempt) ∧ attempt.taskId = taskId
  | _ => False

/-- **The message stays with the owner of its socket**: the stored tasks it
reaches are on servers of the owner the socket was authenticated for. -/
def HubCall.OwnTargets (env : Env) (h : Hub) (socket : DaemonSocket) (call : HubCall) : Prop :=
  ∀ taskId owner, call.Targets env h taskId → h.ownerOf taskId = some owner →
    ∃ serverId, socket.data = some (serverId, owner)

/-- **What a message on a socket leaves alone**: the rows of everyone but the
owner the socket was authenticated for, and everything if it was not. -/
structure HubCall.Confined (env : Env) (h : Hub) (socket : DaemonSocket) (call : HubCall) :
    Prop where
  others : ∀ serverId owner other, socket.data = some (serverId, owner) → other ≠ owner →
    Rows.SameFor other h.rows (h.after env call).rows
  unauthenticated : socket.data = none → h.after env call = h

/-! ## Messages about no stored task -/

/-- An update of the latest active attempt that a `taskId` selects, and of
nothing else. -/
def Touches (env : Env) (ref : TaskRef) (h h' : Hub) : Prop :=
  ∃ selects id attempt f, ref.selects = some selects ∧
    latestActive env h.attempts selects = some (id, attempt) ∧
    h'.rows = { h.rows with attempts := h.attempts.modify id f } ∧
    ∀ attempt : TaskAttempt, (f attempt).taskId = attempt.taskId

theorem updateActive_of_some {selects : TaskId → Bool} {f : TaskAttempt → TaskAttempt}
    {attempts : Table TaskAttempt} {id : TaskAttemptId} {attempt : TaskAttempt}
    (hlatest : latestActive env attempts selects = some (id, attempt)) :
    updateActive env selects f attempts = attempts.modify id f := by
  unfold updateActive
  rw [hlatest]

/-- At most the attempt the `taskId` selects is seen. -/
theorem touchRunningAttempt_touches (env : Env) (ref : TaskRef) (h : Hub) :
    Relation.ReflGen (Touches env ref) h ((TasksService.touchRunningAttempt env ref).run h).2 := by
  cases hsel : ref.selects with
  | none => rw [touchRunningAttempt_run_invalid hsel]
  | some selects =>
      cases hlatest : latestActive env h.attempts selects with
      | none =>
          unfold TasksService.touchRunningAttempt Prisma.taskAttemptFindActive
          simp only [hsel, Proc.run_bind, Proc.run_read, hlatest]
          exact .refl
      | some found =>
          obtain ⟨reads, hrun⟩ := @touchRunningAttempt_run env h _ _ hsel
          rw [hrun, updateActive_of_some hlatest]
          exact .single ⟨selects, found.1, found.2, _, hsel, hlatest, rfl, fun _ => rfl⟩

/-- At most the attempt the `taskId` selects is closed. -/
theorem finishRunningAttempt_touches (env : Env) (ref : TaskRef) (status : TaskAttemptStatus)
    (reason : Option JsString) (h : Hub) :
    Relation.ReflGen (Touches env ref) h
      ((TasksService.finishRunningAttempt env ref status reason).run h).2 := by
  cases hsel : ref.selects with
  | none => rw [finishRunningAttempt_run_invalid hsel]
  | some selects =>
      cases hlatest : latestActive env h.attempts selects with
      | none =>
          unfold TasksService.finishRunningAttempt Prisma.taskAttemptFindActive
          simp only [hsel, Proc.run_bind, Proc.run_read, hlatest]
          exact .refl
      | some found =>
          obtain ⟨reads, hrun⟩ := @finishRunningAttempt_run env h _ _ status reason hsel
          rw [hrun, updateActive_of_some hlatest]
          exact .single ⟨selects, found.1, found.2, _, hsel, hlatest, rfl, fun _ => rfl⟩

/-- The tasks are not among what is touched. -/
theorem Touches.tasks {ref : TaskRef} {h h' : Hub} (ht : Relation.ReflGen (Touches env ref) h h') :
    h'.tasks = h.tasks := by
  cases ht with
  | refl => rfl
  | single hstep =>
      obtain ⟨_, _, _, _, _, _, hrows, -⟩ := hstep
      exact congrArg Rows.tasks hrows

/-- A status for a task that is not stored changes nothing. -/
theorem updateStatus_unstored {ref : TaskRef} {status : StatusRef} {result : Option Json}
    (htask : ∀ taskId, ref = .id taskId → h.tasks taskId = none) :
    ∃ error, (TasksService.updateStatus env ref status result).run h = (.error error, h) := by
  unfold TasksService.updateStatus
  cases ref with
  | filter selects => exact ⟨_, rfl⟩
  | invalid => exact ⟨_, rfl⟩
  | id taskId =>
      rw [Proc.run_bind_of_ok (show (Prisma.key (.id taskId)).run h = (.ok taskId, h) from rfl)]
      dsimp only
      split
      · exact ⟨_, rfl⟩
      · exact ⟨_, Proc.run_bind_of_error (taskUpdate_run_none (htask taskId rfl))⟩

/-- An attempt is updated, and then a status for a task that is not stored. -/
theorem then_updateStatus_unstored {ref : TaskRef} {status : StatusRef} {result : Option Json}
    {p : HubM Unit} {f : TaskId × Task × Server → HubM Unit}
    (hp : Relation.ReflGen (Touches env ref) h (p.run h).2)
    (htask : ∀ taskId, ref = .id taskId → h.tasks taskId = none) :
    ((p >>= fun _ => TasksService.updateStatus env ref status result >>= f).run h).2 =
      (p.run h).2 := by
  rw [Proc.run_bind]
  cases hrun : p.run h with
  | mk outcome h₁ =>
    rw [hrun] at hp
    cases outcome with
    | error error => rfl
    | ok value =>
        obtain ⟨error, hupdate⟩ := @updateStatus_unstored env h₁ ref status result
          fun taskId hid => by
            rw [show h₁.tasks = h.tasks from Touches.tasks hp, htask taskId hid]
        dsimp only
        rw [Proc.run_bind_of_error hupdate]

/-- **A message about no stored task** updates at most the attempt its `taskId`
selects. -/
theorem after_message_unstored {ref : TaskRef}
    (hreports : HubCall.reports (.message socketId inbound) = some ref)
    (htask : ∀ taskId, ref = .id taskId → h.tasks taskId = none) :
    Relation.ReflGen (Touches env ref) h (h.after env (.message socketId inbound)) := by
  have hfound : ∀ taskId, ref = .id taskId → h.taskWithServer taskId = none := fun taskId hid => by
    unfold Hub.taskWithServer
    rw [htask taskId hid]
    rfl
  have hfinal : ∀ p : HubM Unit, ((do p; return Response.done : HubM Response).run h).2 =
      (p.run h).2 := fun p => by
    rw [Proc.run_bind]
    cases hrun : p.run h with
    | mk outcome h₁ => cases outcome <;> rfl
  -- a message touches the attempts at most, and then finds no task
  unfold Hub.after perform DaemonGateway.onMessage
  rw [hfinal]
  cases inbound with
  | HEARTBEAT => cases hreports
  | TASK_STATUS_UPDATE payload =>
      cases hreports
      have htouch := touchRunningAttempt_touches env payload.taskId h
      exact (then_updateStatus_unstored htouch htask).symm ▸ htouch
  | TASK_LOG payload =>
      cases hreports
      dsimp only
      unfold TasksService.handleDaemonTaskLog Prisma.taskFindUniqueWithServer
      cases hid : payload.taskId with
      | filter selects => exact .refl
      | invalid => exact .refl
      | id taskId =>
          simp only [Prisma.key, Proc.run_bind, Proc.run_pure, Proc.run_read, hfound taskId hid]
          exact .refl
  | TASK_RESULT payload =>
      cases hreports
      dsimp only
      unfold TasksService.handleDaemonTaskResult
      split
      · unfold TasksService.handleRetryableCapacityFailure Prisma.taskFindUniqueWithServer
        cases hid : payload.taskId with
        | filter selects => exact .refl
        | invalid => exact .refl
        | id taskId =>
            simp only [Prisma.key, Proc.run_bind, Proc.run_pure, Proc.run_read, hfound taskId hid]
            exact .refl
      · have hfinish := finishRunningAttempt_touches env payload.taskId
          (if payload.status = .status .COMPLETED then .SUCCEEDED else .FAILED)
          (if payload.status = .status .FAILED then some (js "Daemon reported task failure.")
            else none) h
        exact (then_updateStatus_unstored hfinish htask).symm ▸ hfinish
  | APPROVAL_REQUEST payload =>
      cases hreports
      dsimp only
      unfold ApprovalsService.handleDaemonApprovalRequest Prisma.taskFindUniqueWithServer
      cases hid : payload.taskId with
      | filter selects => exact .refl
      | invalid => exact .refl
      | id taskId =>
          simp only [Prisma.key, Proc.run_bind, Proc.run_pure, Proc.run_read, hfound taskId hid]
          exact .refl

/-! ## Heartbeats -/

/-- Rows that differ in servers of the same owners only. -/
theorem Rows.SameFor.of_servers {r r' : Rows} {owner : UserId} (htasks : r'.tasks = r.tasks)
    (hattempts : r'.attempts = r.attempts) (happrovals : r'.approvals = r.approvals)
    (howner : ∀ taskId, r'.ownerOf taskId = r.ownerOf taskId) : Rows.SameFor owner r r' where
  tasks := by
    funext id
    rw [Rows.tasksOf, Rows.tasksOf, htasks, howner]
  attempts := by
    funext id
    simp only [Rows.attemptsOf, hattempts, howner]
  approvals := by
    funext id
    simp only [Rows.approvalsOf, happrovals, howner]

/-- A change of a server that keeps its owner keeps the owners of tasks. -/
theorem ownerOf_modify_servers {r : Rows} {serverId : ServerId} {f : Server → Server}
    (howner : ∀ server, (f server).ownerId = server.ownerId) (taskId : TaskId) :
    Rows.ownerOf { r with servers := r.servers.modify serverId f } taskId = r.ownerOf taskId := by
  unfold Rows.ownerOf
  dsimp only
  congr 1
  funext task
  rw [Table.modify_apply]
  split
  · next heq =>
    rw [heq, Option.map_map]
    exact congrFun (congrArg _ (funext howner)) _
  · rfl

/-- **A heartbeat is for the server of its socket**: no task, attempt or approval
is changed, and nothing if the socket has no server. -/
theorem heartbeat_confined {socket : DaemonSocket} (hsocket : h.sockets socketId = some socket) :
    HubCall.Confined env h socket (.message socketId .HEARTBEAT) := by
  have hdata : (h.sockets socketId).bind (·.data) = socket.data := by rw [hsocket]; rfl
  constructor
  · intro serverId owner other hsome _
    rw [hsome] at hdata
    unfold Hub.after perform DaemonGateway.onMessage DaemonGateway.onHeartbeat
      ServersService.markHeartbeat Prisma.serverUpdate now
    simp only [Proc.run_bind, Proc.run_take, Proc.run_atomically, hdata, id]
    cases hserver : h.servers serverId with
    | none => exact .of_servers rfl rfl rfl fun _ => rfl
    | some server =>
        refine .of_servers rfl rfl rfl (@ownerOf_modify_servers h.rows serverId _ ?_)
        exact fun _ => rfl
  · intro hnone
    rw [hnone] at hdata
    unfold Hub.after perform DaemonGateway.onMessage DaemonGateway.onHeartbeat
    simp only [Proc.run_bind, Proc.run_take, hdata, id]
    rfl

/-! ## Confinement -/

/-- An update of an attempt at a task of somebody else. -/
theorem Touches.same_for {ref : TaskRef} {h' : Hub} {other : UserId} (ht : Touches env ref h h')
    (hother : ∀ selects id attempt, ref.selects = some selects →
      latestActive env h.attempts selects = some (id, attempt) →
      h.ownerOf attempt.taskId ≠ some other) : Rows.SameFor other h.rows h'.rows := by
  obtain ⟨selects, id, attempt, f, hsel, hlatest, hrows, hkeeps⟩ := ht
  have hrow : h.attempts id = some attempt := (latestActive_some hlatest).1
  have hforeign : (h.rows.ownerOf attempt.taskId == some other) = false :=
    beq_false_of_ne (hother selects id attempt hsel hlatest)
  rw [hrows]
  refine ⟨rfl, funext fun id' => ?_, rfl⟩
  unfold Rows.attemptsOf
  change ((h.attempts.modify id f) id').filter (fun attempt =>
    h.rows.ownerOf attempt.taskId == some other) = (h.attempts id').filter _
  rw [Table.modify_apply]
  split
  · next heq =>
    simp only [heq, hrow, Option.map_some, Option.filter_some, hkeeps, hforeign,
      Bool.false_eq_true, if_false]
  · rfl

/-- **Daemon channel isolation.**  In every run, a message that stays with the
owner of its socket changes no row of another owner, and on a socket without an
accepted key it changes nothing. -/
theorem daemon_channel_confined {first : Hub} {calls : List HubCall} (hstart : first.Fresh)
    (hruns : (hubMachine env fun _ => True).Runs first calls) {socket : DaemonSocket}
    (hvisit : (h, .message socketId inbound) ∈ (hubMachine env fun _ => True).visits first calls)
    (hsocket : h.sockets socketId = some socket)
    (hown : HubCall.OwnTargets env h socket (.message socketId inbound)) :
    HubCall.Confined env h socket (.message socketId inbound) := by
  have hsound : h.rows.Sound :=
    reachable_sound ((Machine.Reachable.of_start hstart).visits hruns hvisit)
  cases hreports : HubCall.reports (.message socketId inbound) with
  | none =>
      cases inbound with
      | HEARTBEAT => exact heartbeat_confined hsocket
      | _ => cases hreports
  | some ref =>
      -- the owner of the attempt a message updates is that of the socket
      have hattempt : ∀ selects id attempt, ref.selects = some selects →
          latestActive env h.attempts selects = some (id, attempt) →
          ∃ serverId owner, socket.data = some (serverId, owner) ∧
            h.ownerOf attempt.taskId = some owner := by
        intro selects id attempt hsel hlatest
        obtain ⟨server, -, howner⟩ := hsound.attempt_owner (latestActive_some hlatest).1
        refine Exists.imp (fun serverId hdata => ⟨_, hdata, howner⟩)
          (hown attempt.taskId server.ownerId ?_ howner)
        unfold HubCall.Targets
        rw [hreports]
        cases ref with
        | id taskId =>
            cases hsel
            exact (beq_iff_eq.mp (latestActive_some hlatest).2.1).symm
        | filter selects' =>
            cases hsel
            exact ⟨id, attempt, hlatest, rfl⟩
        | invalid => cases hsel
      by_cases hstored : ∃ taskId, ref = .id taskId ∧ h.tasks taskId ≠ none
      · obtain ⟨taskId, rfl, htask⟩ := hstored
        obtain ⟨task, htask⟩ := Option.ne_none_iff_exists'.mp htask
        obtain ⟨server, -, howner⟩ := hsound.owned htask
        obtain ⟨serverId, hdata⟩ := hown taskId server.ownerId
          (by unfold HubCall.Targets; rw [hreports]) howner
        refine ⟨fun serverId' owner other hdata' hother => ?_, fun hnone => ?_⟩
        · rw [hdata] at hdata'
          cases hdata'
          refine after_same_for hsound ⟨fun {taskId'} howns hconcerns => ?_, nofun⟩
          obtain ⟨selects, hsel, hof⟩ := hconcerns.2 _ hreports
          cases hsel
          rw [beq_iff_eq.mp hof, Hub.rows_ownerOf, show h.ownerOf taskId = _ from howner] at howns
          exact hother (Option.some.inj howns).symm
        · rw [hdata] at hnone
          cases hnone
      · have htask : ∀ taskId, ref = .id taskId → h.tasks taskId = none := fun taskId hid =>
          not_not.mp fun hne => hstored ⟨taskId, hid, hne⟩
        rcases (Relation.reflGen_iff _ _ _).mp (@after_message_unstored env _ _ _ _ hreports htask)
          with hsame | htouch
        · refine ⟨fun serverId owner other _ _ => ?_, fun _ => hsame⟩
          rw [hsame]
          exact .refl other h.rows
        · refine ⟨fun serverId owner other hdata hother => ?_, fun hnone => ?_⟩
          · refine htouch.same_for fun selects id attempt hsel hlatest howns => ?_
            obtain ⟨serverId', owner', hdata', howner⟩ := hattempt selects id attempt hsel hlatest
            rw [hdata] at hdata'
            cases hdata'
            rw [howner] at howns
            exact hother (Option.some.inj howns).symm
          · obtain ⟨selects, id, attempt, _, hsel, hlatest, -⟩ := htouch
            obtain ⟨_, _, hdata, -⟩ := hattempt selects id attempt hsel hlatest
            rw [hnone] at hdata
            cases hdata

/-- The daemon of user 0 reports the result of its own task. -/
theorem daemon_channel_confined_own :
    let calls := sampleConnects ++ [.submit 0 ⟨0, .CODEX, sampleInput⟩, .dispatch 0]
    let h := (hubMachine Env.sample fun _ => True).exec Hub.sample calls
    let result := DaemonInbound.TASK_RESULT ⟨.id 0, .status .COMPLETED, none, none⟩
    Rows.SameFor 1 h.rows (h.after Env.sample (.message 0 result)).rows := by
  intro calls h result
  have hruns : (hubMachine Env.sample fun _ => True).Runs Hub.sample
      (calls ++ [.message 0 result]) := by decide
  have hvisit : (h, HubCall.message 0 result) ∈ (hubMachine Env.sample fun _ => True).visits
      Hub.sample (calls ++ [.message 0 result]) :=
    (Machine.mem_visits_iff _).mpr ⟨calls, [], rfl, rfl⟩
  have hsocket : h.sockets 0 = some ⟨some (js "a"), some (0, 0), some 0⟩ := by rfl
  refine (daemon_channel_confined Hub.sample_fresh hruns hvisit hsocket ?_).others 0 0 1 rfl
    (by decide)
  rintro taskId owner rfl howner
  have hzero : h.ownerOf 0 = some 0 := by decide
  rw [hzero] at howner
  cases howner
  exact ⟨0, rfl⟩

/-- **A daemon reaches the tasks of other owners**: on the socket of user 1, a
result for the task of user 0 ends that task; and a socket without an accepted
key does the same. -/
theorem daemon_channel_not_confined :
    let calls := sampleConnects ++
      [.submit 0 ⟨0, .CODEX, sampleInput⟩, .dispatch 0, .openSocket none]
    let h := (hubMachine Env.sample fun _ => True).exec Hub.sample calls
    let result := DaemonInbound.TASK_RESULT ⟨.id 0, .status .COMPLETED, none, none⟩
    (hubMachine Env.sample fun _ => True).Runs Hub.sample
      (calls ++ [.message 2 result]) ∧
    (hubMachine Env.sample fun _ => True).Runs Hub.sample
      (calls ++ [.message 3 result]) ∧
    (∃ socket, h.sockets 2 = some socket ∧ socket.data = some (2, 1) ∧
      ¬HubCall.Confined Env.sample h socket (.message 2 result)) ∧
    ∃ socket, h.sockets 3 = some socket ∧ socket.data = none ∧
      ¬HubCall.Confined Env.sample h socket (.message 3 result) := by
  intro calls h result
  refine ⟨by decide, by decide, ⟨_, rfl, rfl, fun hconfined => ?_⟩,
    ⟨_, rfl, rfl, fun hconfined => ?_⟩⟩
  · have hsame := congrFun (hconfined.others 2 1 0 rfl (by decide)).tasks 0
    have hstatus : ((h.after Env.sample (.message 2 result)).rows.tasksOf 0 0).map (·.status) =
        some .COMPLETED := by decide
    have hbefore : (h.rows.tasksOf 0 0).map (·.status) = some .RUNNING := by decide
    rw [hsame, hbefore] at hstatus
    cases hstatus
  · have hsame := hconfined.unauthenticated rfl
    have hstatus : ((h.after Env.sample (.message 3 result)).tasks 0).map (·.status) =
        some .COMPLETED := by decide
    have hbefore : (h.tasks 0).map (·.status) = some .RUNNING := by decide
    rw [hsame, hbefore] at hstatus
    cases hstatus

end CodeCaller