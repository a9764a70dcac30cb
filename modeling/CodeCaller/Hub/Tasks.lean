import CodeCaller.Hub.Workers

/-!
# `tasks`

`TasksService` and `TasksProcessor`: submission and cancellation, the handlers of daemon events,
the dispatch of a queued task to the first candidate that can be reached, and the watchdog.

### Main definitions

* `TasksService.submit`, `cancel`, `findOneForOwner`, `findAllForOwner`: the operations of a user.
* `TasksService.handleDaemonTaskStatus`, `handleDaemonTaskLog`, `handleDaemonTaskResult`: what a
  daemon reports.  A result of `isRetryableCapacityFailure` goes to
  `handleRetryableCapacityFailure`, which puts the task back into the queue if some candidate is
  left.
* `TasksProcessor.processDispatch`: one job.  `dispatchLoop` opens an attempt for a candidate,
  tries it, and goes on to the next one if anything was thrown.
* `TasksProcessor.scanStuckTasksOnce`: one scan of the watchdog.

### What is load-bearing

**The order of the nodes.**  Each `await` is a node, and what a handler read before one may have
changed after it.  The log handler adds a chunk to the logs it has read, not to the logs that are
there; the processor looks at the status of a task once, before all candidates; the watchdog reads
all rows first and then deals with one after the other.  The races of the later modules are these
three, and they are visible here as a `let` that is used after another `←`.

**Which attempt is closed.**  `finishRunningAttempt` and `touchRunningAttempt` take the latest
active attempt of the task.  They are not told which attempt the daemon speaks of, since the
messages of the contract name the task only.

**What is not checked.**  `updateStatus` writes the status it is given over any other, so a
terminal status is final only as far as the callers see to it.
-/

namespace CodeCaller

open Async

variable (env : Env)

/-- `CreateTaskDto`. -/
structure CreateTaskDto where
  serverId : ServerId
  workerType : WorkerType
  input : Json

/-- How the reason of an attempt says that its worker had no capacity. -/
def RETRYABLE_CAPACITY_FAILURE_PREFIX : JsString := js "CAPACITY_EXHAUSTED"

/-! ## The queue -/

/-- `dispatchQueue.add('dispatch', { taskId }, { attempts: 5, ... })`. -/
def enqueueDispatch (taskId : TaskId) : HubM Unit :=
  .atomically fun h =>
    let job : DispatchJob :=
      { taskId := some taskId, attemptsMade := 0, attempts := 5, state := .waiting }
    (.ok (), { h with jobs := h.jobs.insert job })

/-! ## Failure reasons -/

/-- `retryExcludedServerIds`: the servers an attempt timed out on, or whose
attempt failed with a reason that starts with the capacity prefix.  The service
and the processor hold one copy of this query each. -/
def spentAttempt (attempt : TaskAttempt) : Bool :=
  attempt.status == .TIMED_OUT ||
    (attempt.status == .FAILED && match attempt.failureReason with
      | some reason => reason.startsWith RETRYABLE_CAPACITY_FAILURE_PREFIX
      | none => false)

/-- Each server once, as `new Set` makes them. -/
def retryExcludedServerIds (taskId : TaskId) : HubM (List ServerId) :=
  .read fun h =>
    ((env.rowOrder (h.attempts.toList.filter fun row =>
      row.2.taskId == taskId && spentAttempt row.2)).map fun row => row.2.serverId).dedup

namespace TasksService

/-! ## `TasksService`: configuration -/

/-- `positiveIntFromEnv`; an empty variable counts as unset.  `Number.parseInt` rounds a number
beyond `2 ^ 53`, and from about `1.8e308` on it is `Infinity`, which is not finite and gives the
fallback; here the number is exact. -/
def positiveIntFromEnv (name : JsString) (fallback : ℕ) : ℕ :=
  match env.processEnv name with
  | none => fallback
  | some value =>
    if value.isEmpty then fallback
    else match value.parseInt10 with
      | some parsed => if parsed > 0 then parsed.toNat else fallback
      | none => fallback

/-- A quarter of an hour, unless the environment says otherwise. -/
def watchdogTimeoutMs : ℕ :=
  positiveIntFromEnv env (js "TASK_WATCHDOG_TIMEOUT_MS") (15 * 60 * 1000)

/-- How often a task is put back before it fails. -/
def watchdogMaxRequeues : ℕ :=
  positiveIntFromEnv env (js "TASK_WATCHDOG_MAX_REQUEUES") 2

/-- The watchdog job is repeated: adding it again under its id changes
nothing. -/
def ensureWatchdogScheduled : HubM Unit :=
  .atomically fun h => (.ok (), { h with watchdogScheduled := true })

def requeueTask (taskId : TaskId) : HubM Unit := enqueueDispatch taskId

/-! ## `TasksService`: attempts and status -/

/-- A sign of life: the latest active attempt is `RUNNING` and was seen now. -/
def touchRunningAttempt (taskId : TaskRef) : HubM Unit := do
  match ← Prisma.taskAttemptFindActive env taskId with
  | none => return
  | some attemptId =>
    let date ← now env
    Prisma.taskAttemptUpdate attemptId fun attempt =>
      { attempt with status := .RUNNING, lastSeenAt := date }

/-- `failureReason` is left alone when it is `undefined`. -/
def finishRunningAttempt (taskId : TaskRef) (status : TaskAttemptStatus)
    (failureReason : Option JsString) : HubM Unit := do
  match ← Prisma.taskAttemptFindActive env taskId with
  | none => return
  | some attemptId =>
    let lastSeen ← now env
    let finished ← now env
    Prisma.taskAttemptUpdate attemptId fun attempt =>
      { attempt with
        status
        failureReason := match failureReason with
          | some reason => some reason
          | none => attempt.failureReason
        lastSeenAt := lastSeen
        finishedAt := some finished }

/-- `updateStatus`: a `status` or `result` that is `undefined` is left alone. -/
def updateStatus (taskId : TaskRef) (status : StatusRef) (result : Option Json) :
    HubM (TaskId × Task × Server) := do
  let id ← Prisma.key taskId
  if status = .invalid then
    throw .validation
  let task ← Prisma.taskUpdate env id fun task =>
    { task with
      status := match status with
        | .status value => value
        | .undefined | .invalid => task.status
      result := match result with
        | some value => some value
        | none => task.result }
  let server ← Prisma.serverOf task
  RealtimeService.notifyUser server.ownerId (.TASK_UPDATED id task)
  return (id, task, server)

/-- `updateTaskAndNotify`. -/
def updateTaskAndNotify (taskId : TaskId) (status : TaskStatus) (result : Option Json)
    (logs : JsString) : HubM (Task × Server) := do
  let task ← Prisma.taskUpdate env taskId fun task =>
    { task with
      status
      result := match result with
        | some value => some value
        | none => task.result
      logs }
  let server ← Prisma.serverOf task
  RealtimeService.notifyUser server.ownerId (.TASK_UPDATED taskId task)
  return (task, server)

/-- A task belongs to the owner of the server it is on at the moment. -/
def getOwnedTask (ownerId : UserId) (taskId : TaskId) : HubM Task := do
  match ← Prisma.taskFindUniqueWithServer taskId with
  | none => throw ⟨.notFound, js "작업을 찾을 수 없습니다."⟩
  | some (task, server) =>
    if server.ownerId ≠ ownerId then
      throw ⟨.forbidden, js "해당 작업에 접근할 권한이 없습니다."⟩
    return task

/-! ## `TasksService`: REST -/

/-- The job is added after the row is there, and carries nothing but its id. -/
def submit (ownerId : UserId) (dto : CreateTaskDto) : HubM (TaskId × Task) := do
  let _ ← ServersService.findOneForOwner ownerId dto.serverId
  let (id, task) ← Prisma.taskCreate env dto.serverId dto.workerType dto.input
  enqueueDispatch id
  ensureWatchdogScheduled
  return (id, task)

def findAllForOwner (ownerId : UserId) : HubM (List (TaskId × Task)) :=
  .read fun h => orderByDesc env (·.createdAt)
    (h.tasks.toList.filter fun row =>
      match h.servers row.2.serverId with
      | some server => server.ownerId == ownerId
      | none => false)

def findOneForOwner (ownerId : UserId) (taskId : TaskId) : HubM (TaskId × Task) := do
  let task ← getOwnedTask ownerId taskId
  return (taskId, task)

/-- The daemon is told first; if it cannot be reached, the exception leaves the task as it was. -/
def cancel (ownerId : UserId) (taskId : TaskId) : HubM (TaskId × Task) := do
  let task ← getOwnedTask ownerId taskId
  let adapter ← WorkerRegistry.get task.workerType
  adapter.cancelTask taskId
  let (id, updated, _) ← updateStatus env (.id taskId) (.status .CANCELLED) none
  return (id, updated)

/-! ## `TasksService`: daemon events -/

/-- The attempt is touched even if the status turns out to be invalid. -/
def handleDaemonTaskStatus (payload : DaemonTaskStatusPayload) : HubM Unit := do
  touchRunningAttempt env payload.taskId
  let _ ← updateStatus env payload.taskId payload.status none

/-- The new logs are those of the first read and the chunk: a chunk that was stored in between is
overwritten. -/
def handleDaemonTaskLog (payload : DaemonTaskLogPayload) : HubM Unit := do
  let id ← Prisma.key payload.taskId
  match ← Prisma.taskFindUniqueWithServer id with
  | none => return
  | some (task, server) =>
    touchRunningAttempt env (.id id)
    let updated ← Prisma.taskUpdate env id fun row =>
      { row with logs := task.logs ++ payload.chunk }
    RealtimeService.notifyUser server.ownerId (.TASK_UPDATED id updated)

/-- A failure counts as retryable unless it says `retryable: false`. -/
def isRetryableCapacityFailure (payload : DaemonTaskResultPayload) : Bool :=
  payload.status == .status .FAILED && match payload.failure with
    | some failure => failure.category == .CAPACITY_EXHAUSTED && failure.retryable != some false
    | none => false

/-- `failure?.detail ? ' detail=' + failure.detail.slice(0, 500) : ''`. -/
def detailText (failure : Option DaemonTaskFailurePayload) : JsString :=
  match failure.bind (·.detail) with
  | some detail => if detail.isEmpty then [] else js " detail=" ++ detail.sliceFront 500
  | none => []

/-- It starts with the capacity prefix, so the server is excluded from then on. -/
def formatStructuredFailureReason (payload : DaemonTaskResultPayload) : JsString :=
  let message := (payload.failure.bind (·.message)).getD (js "Retryable worker capacity failure.")
  RETRYABLE_CAPACITY_FAILURE_PREFIX ++ (js ": " ++ message ++ detailText payload.failure)

/-- The candidates are those the task has left after the attempt was closed. -/
def handleRetryableCapacityFailure (payload : DaemonTaskResultPayload) : HubM Unit := do
  let id ← Prisma.key payload.taskId
  match ← Prisma.taskFindUniqueWithServer id with
  | none => return
  | some (task, _) =>
    finishRunningAttempt env (.id id) .FAILED (some (formatStructuredFailureReason payload))
    let excludedServerIds ← retryExcludedServerIds env id
    let candidates ← WorkerRegistry.getDispatchCandidates env task.workerType task.serverId
      excludedServerIds
    let logLine := js "\n[hub] Retryable capacity failure from server " ++
      JsString.ofNat task.serverId ++ js ": " ++
      (payload.failure.bind (·.message)).getD (js "capacity exhausted") ++ js "\n"
    match candidates with
    | [] =>
      let (_, server) ← updateTaskAndNotify env id .FAILED payload.result
        (task.logs ++ logLine ++ js ("[hub] Capacity failover exhausted: no remaining online " ++
          "compatible worker candidates.\n"))
      NotificationsService.sendPush env server.ownerId (js "작업 실패")
        (js "작업(" ++ JsString.ofNat id ++ js ")이 작업자 용량 소진 후 실패했습니다.")
    | first :: _ =>
      let _ ← updateTaskAndNotify env id .QUEUED none
        (task.logs ++ logLine ++ js "[hub] Requeued after capacity failure; next candidate: " ++
          first.serverName ++ js "/" ++ first.profileName ++ js ".\n")
      requeueTask id

/-- The attempt is closed before the status of the result is checked. -/
def handleDaemonTaskResult (payload : DaemonTaskResultPayload) : HubM Unit := do
  if isRetryableCapacityFailure payload then
    handleRetryableCapacityFailure env payload
    return
  finishRunningAttempt env payload.taskId
    (if payload.status = .status .COMPLETED then .SUCCEEDED else .FAILED)
    (if payload.status = .status .FAILED then some (js "Daemon reported task failure.") else none)
  let (id, _, server) ← updateStatus env payload.taskId payload.status payload.result
  let title := if payload.status = .status .COMPLETED then js "작업 완료" else js "작업 실패"
  NotificationsService.sendPush env server.ownerId title
    (js "작업(" ++ JsString.ofNat id ++ js ")이 " ++ title ++ js "되었습니다.")

end TasksService

namespace TasksProcessor

/-! ## `TasksProcessor`: dispatch -/

def formatFailoverLog (failures : List JsString) : JsString :=
  js "\n[hub] Dispatch failover exhausted:\n" ++
    JsString.join (failures.map fun failure => js "- " ++ failure) (js "\n") ++ js "\n"

/-- The task is read again for its worker type, the input is the one the job has read. -/
def dispatchToCandidate (taskId : TaskId) (input : Json) (candidate : WorkerDispatchCandidate) :
    HubM Unit := do
  match ← Prisma.taskFindUnique taskId with
  | none => throw .recordNotFound
  | some task =>
    let adapter ← WorkerRegistry.get task.workerType
    adapter.submitTask taskId candidate.serverId input

/-- The body of the `try` for one candidate: send the task and record where it
went. -/
def tryCandidate (taskId : TaskId) (input : Json) (attemptId : TaskAttemptId)
    (candidate : WorkerDispatchCandidate) : HubM Unit := do
  dispatchToCandidate taskId input candidate
  let _ ← Prisma.taskUpdate env taskId fun row =>
    { row with serverId := candidate.serverId, status := .RUNNING }
  let date ← now env
  Prisma.taskAttemptUpdate attemptId fun attempt =>
    { attempt with status := .RUNNING, lastSeenAt := date }

/-- The `catch` for one candidate. -/
def recordFailure (attemptId : TaskAttemptId) (error : HubError) : HubM Unit := do
  let finished ← now env
  let lastSeen ← now env
  Prisma.taskAttemptUpdate attemptId fun attempt =>
    { attempt with
      status := .FAILED
      failureReason := some error.message
      finishedAt := some finished
      lastSeenAt := lastSeen }

/-- The loop over the candidates: `none` after a candidate took the task, else
the failures of all of them. -/
def dispatchLoop (taskId : TaskId) (input : Json) :
    List WorkerDispatchCandidate → List JsString → HubM (Option (List JsString))
  | [], failures => pure (some failures)
  | candidate :: rest, failures => do
    let (attemptId, _) ← Prisma.taskAttemptCreate env taskId candidate.serverId .DISPATCHING
    let failure ← tryCatch
      (do tryCandidate env taskId input attemptId candidate
          pure none)
      (fun error => do
        recordFailure env attemptId error
        pure (some (candidate.serverName ++ js "/" ++ candidate.profileName ++ js ": " ++
          error.message)))
    match failure with
    | none => pure none
    | some failure => dispatchLoop taskId input rest (failures ++ [failure])

/-- `process` for a `dispatch` job. -/
def processDispatch (taskId : Option TaskId) : HubM Unit := do
  match taskId with
  | none => return
  | some taskId =>
    match ← Prisma.taskFindUnique taskId with
    | none => return
    | some task =>
      if task.status ≠ .QUEUED then
        return
      let excludedServerIds ← retryExcludedServerIds env taskId
      let candidates ← WorkerRegistry.getDispatchCandidates env task.workerType task.serverId
        excludedServerIds
      if candidates.isEmpty then
        throw ⟨.error, js "No online " ++ task.workerType.text ++
          js " worker candidates for task " ++ JsString.ofNat taskId ++ js "."⟩
      match ← dispatchLoop env taskId task.input candidates [] with
      | none => return
      | some failures =>
        let _ ← Prisma.taskUpdate env taskId fun row =>
          { row with logs := task.logs ++ formatFailoverLog failures }
        throw ⟨.error, js "Task " ++ JsString.ofNat taskId ++
          js " dispatch failed on all candidates: " ++ JsString.join failures (js " | ")⟩

/-! ## `TasksProcessor`: the watchdog -/

/-- The rows `scanStuckTasksOnce` starts from, each with its latest attempt. -/
def stuckTasks (h : Hub) (staleBefore : ℤ) :
    List ((TaskId × Task) × Option (TaskAttemptId × TaskAttempt)) :=
  (env.rowOrder (h.tasks.toList.filter fun row =>
    row.2.status == .RUNNING && decide ((row.2.updatedAt : ℤ) < staleBefore))).map
      fun row => (row, latestAttempt env h.attempts row.1)

/-- What the watchdog writes into the attempts it gives up. -/
def watchdogReason : JsString :=
  js "No daemon update for " ++ JsString.ofNat (TasksService.watchdogTimeoutMs env) ++ js "ms."

/-- The watchdog on one task whose latest attempt is stale. -/
def timeOutTask (taskId : TaskId) (task : Task) (attemptId : TaskAttemptId)
    (attempt : TaskAttempt) : HubM Unit := do
  let timedOutCount ← Proc.read fun h =>
    (h.attempts.toList.filter fun row =>
      row.2.taskId == taskId && row.2.status == .TIMED_OUT).length
  let finished ← now env
  Prisma.taskAttemptUpdate attemptId fun attempt =>
    { attempt with
      status := .TIMED_OUT
      failureReason := some (watchdogReason env)
      finishedAt := some finished }
  if timedOutCount ≥ TasksService.watchdogMaxRequeues env then
    let _ ← Prisma.taskUpdate env taskId fun row =>
      { row with
        status := .FAILED
        logs := task.logs ++
          js "\n[hub] Watchdog failed task after repeated stale RUNNING attempts: " ++
          watchdogReason env ++ js "\n" }
  else
    let _ ← Prisma.taskUpdate env taskId fun row =>
      { row with
        status := .QUEUED
        logs := task.logs ++ js "\n[hub] Watchdog requeued stale RUNNING task from server " ++
          JsString.ofNat attempt.serverId ++ js ": " ++ watchdogReason env ++ js "\n" }
    TasksService.requeueTask taskId

/-- The loop of `scanStuckTasksOnce`: a task is skipped unless its latest
attempt is active and stale. -/
def scanLoop (staleBefore : ℤ) :
    List ((TaskId × Task) × Option (TaskAttemptId × TaskAttempt)) → ℕ → HubM ℕ
  | [], handled => pure handled
  | (_, none) :: rest, handled => scanLoop staleBefore rest handled
  | ((taskId, task), some (attemptId, attempt)) :: rest, handled =>
    if !attempt.active || decide ((attempt.lastSeenAt : ℤ) ≥ staleBefore) then
      scanLoop staleBefore rest handled
    else do
      timeOutTask env taskId task attemptId attempt
      scanLoop staleBefore rest (handled + 1)

/-- How many tasks were taken from their server. -/
def scanStuckTasksOnce : HubM ℕ := do
  let date ← now env
  let staleBefore : ℤ := (date : ℤ) - TasksService.watchdogTimeoutMs env
  let runningTasks ← Proc.read fun h => stuckTasks env h staleBefore
  scanLoop env staleBefore runningTasks 0

end TasksProcessor

end CodeCaller
