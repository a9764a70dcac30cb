import CodeCaller.Crypto
import CodeCaller.Events
import CodeCaller.Library.Proc
import CodeCaller.Library.Table
import Mathlib.Data.List.Sort
import Mathlib.Data.List.Dedup

/-!
# The state of the Hub and its database operations

`Hub` is everything the handlers of the Hub share: the tables, the `task-dispatch` queue, the
sockets of the `/daemon` namespace, and what was sent out so far.  `Env` is what the code takes
from its surroundings: the clock, the environment variables, the random source, and the choices a
database and a JavaScript engine are free to make.

The operations of `PrismaService` are awaited operations on this state.  They fail as the database
does: on a missing row, a second approval of one task, a reference to a row that does not exist, or
an argument of the wrong type.  Each is one node of a program, so it takes effect at once; a
service that makes two of them can be interrupted between them.

### Design

**Ghost fields.**  `emitted` and `notified` are not in the code: they record every message to a
daemon room and every notice to a user, and no modelled function reads them.  `reads` and `draws`
count the readings of the clock and the uses of the random source, which makes `Env` a pure
function of them.

**Order of rows.**  A query without `orderBy` returns its rows in an order that `Env.rowOrder`
chooses, of which it is known that it permutes and nothing more.  So no result depends on an order
that the code does not fix.

**Nothing is rolled back.**  A handler that throws leaves what its earlier nodes have done.  The
code has one `$transaction`, in the approval of a registration, and that is one node here.
-/

namespace CodeCaller

open Async

/-! ## Surroundings -/

/-- **What the Hub takes from its surroundings.**  `rowOrder` is the order in
which the database returns the rows a query selects and does not order, and
`sort` is the sorting algorithm of the JavaScript engine; all that is known of
either is that it permutes. -/
structure Env where
  /-- The `n`-th reading of the clock, by `new Date()` or by the database. -/
  clock : ℕ → Time
  rowOrder : {ρ : Type} → List (ℕ × ρ) → List (ℕ × ρ)
  rowOrder_perm : ∀ {ρ : Type} (rows : List (ℕ × ρ)), (rowOrder rows).Perm rows
  sort : {α : Type} → (α → α → ℤ) → List α → List α
  sort_perm : ∀ {α : Type} (compare : α → α → ℤ) (items : List α),
    (sort compare items).Perm items
  localeCompare : JsString → JsString → ℤ
  /-- `process.env`. -/
  processEnv : JsString → Option JsString
  /-- Whether Firebase was initialised when the module started. -/
  fcmReady : Bool
  crypto : NodeCrypto

/-! ## Errors -/

/-- The exception a handler throws: those of NestJS, and those of Prisma by
their cause. -/
inductive HubErrorKind where
  | notFound | forbidden | badRequest | unauthorized | serviceUnavailable | error
  | recordNotFound | uniqueConstraint | foreignKeyConstraint | validation
deriving DecidableEq, Repr

/-- The exception and its message. -/
structure HubError where
  kind : HubErrorKind
  message : JsString

/-- Prisma's `P2025`. -/
def HubError.recordNotFound : HubError := ⟨.recordNotFound, js "Record not found."⟩
/-- Prisma's `P2002`. -/
def HubError.uniqueConstraint : HubError := ⟨.uniqueConstraint, js "Unique constraint failed."⟩
/-- Prisma's `P2003`. -/
def HubError.foreignKeyConstraint : HubError :=
  ⟨.foreignKeyConstraint, js "Foreign key constraint failed."⟩
/-- Prisma's `PrismaClientValidationError`. -/
def HubError.validation : HubError := ⟨.validation, js "Invalid argument."⟩

/-! ## State -/

/-- Where a dispatch job is in the queue. -/
inductive JobState where
  | waiting | completed | failed
deriving DecidableEq, Repr

/-- A job of the `task-dispatch` queue: `data.taskId`, the attempts made and
allowed. -/
structure DispatchJob where
  taskId : Option TaskId
  attemptsMade : ℕ
  attempts : ℕ
  state : JobState

/-- A connected socket of the `/daemon` namespace: the key of its handshake,
`socket.data` and the room it joined. -/
structure DaemonSocket where
  apiKey : Option JsString
  data : Option (ServerId × UserId)
  room : Option ServerId

/-- A message emitted to the room of a server. -/
structure Emission where
  serverId : ServerId
  message : DaemonOutbound

/-- A multicast handed to Firebase. -/
structure Push where
  tokens : List JsString
  title : JsString
  body : JsString

/-- **The shared state of the Hub.**  `emitted` and `notified` record all that
was ever sent to a daemon room and to a user's app; `reads` and `draws` count
the readings of the clock and the uses of the random source. -/
structure Hub where
  users : Table User
  servers : Table Server
  workerProfiles : Table WorkerProfile
  registrations : Table ServerRegistrationRequest
  tasks : Table Task
  attempts : Table TaskAttempt
  approvals : Table Approval
  jobs : Table DispatchJob
  watchdogScheduled : Bool
  pushTokens : Table PushToken
  sockets : Table DaemonSocket
  emitted : List Emission
  notified : List (UserId × AppOutbound)
  pushes : List Push
  reads : ℕ
  draws : ℕ

/-- A program of the Hub. -/
abbrev HubM (α : Type) := Proc Hub HubError α

/-- `new Date()`. -/
def now (env : Env) : HubM Time :=
  .take (fun h => env.clock h.reads) fun h => { h with reads := h.reads + 1 }

/-- One use of the random source. -/
def draw : HubM ℕ :=
  .take (fun h => h.draws) fun h => { h with draws := h.draws + 1 }

/-- The owner of the server a task is on. -/
def Hub.ownerOf (h : Hub) (taskId : TaskId) : Option UserId :=
  (h.tasks taskId).bind fun task => (h.servers task.serverId).map (·.ownerId)

/-! ## Queries -/

/-- `orderBy: { key: 'desc' }` over the rows a query selected. -/
def orderByDesc {ρ : Type} (env : Env) (key : ρ → ℕ) (rows : List (ℕ × ρ)) : List (ℕ × ρ) :=
  (env.rowOrder rows).insertionSort fun a b => key b.2 ≤ key a.2

/-- What a `where: { taskId }` clause of `findFirst` selects; `none` where the
query is rejected. -/
def TaskRef.selects : TaskRef → Option (TaskId → Bool)
  | .id taskId => some fun other => other == taskId
  | .filter selects => some selects
  | .invalid => none

/-- The latest active attempt among those a condition on the task selects. -/
def latestActive (env : Env) (attempts : Table TaskAttempt) (selects : TaskId → Bool) :
    Option (TaskAttemptId × TaskAttempt) :=
  (orderByDesc env (·.startedAt)
    (attempts.toList.filter fun row => selects row.2.taskId && row.2.active)).head?

/-- The latest attempt of a task: `attempts: { orderBy: { startedAt: 'desc' },
take: 1 }`. -/
def latestAttempt (env : Env) (attempts : Table TaskAttempt) (taskId : TaskId) :
    Option (TaskAttemptId × TaskAttempt) :=
  (orderByDesc env (·.startedAt)
    (attempts.toList.filter fun row => row.2.taskId == taskId)).head?

/-- The task with its server, as `include: { server }` reads them. -/
def Hub.taskWithServer (h : Hub) (taskId : TaskId) : Option (Task × Server) :=
  (h.tasks taskId).bind fun task => (h.servers task.serverId).map fun server => (task, server)

namespace Prisma

variable (env : Env)

/-- A key off the wire, as `where: { id }` of `findUnique` and `update` takes
it. -/
def key : TaskRef → HubM TaskId
  | .id taskId => pure taskId
  | .filter _ | .invalid => throw .validation

/-- `task.findUnique({ where: { id } })`. -/
def taskFindUnique (taskId : TaskId) : HubM (Option Task) :=
  .read fun h => h.tasks taskId

/-- `task.findUnique({ where: { id }, include: { server } })`. -/
def taskFindUniqueWithServer (taskId : TaskId) : HubM (Option (Task × Server)) :=
  .read fun h => h.taskWithServer taskId

/-- `task.create({ data })`; `status`, `logs` and the times are defaults. -/
def taskCreate (serverId : ServerId) (workerType : WorkerType) (input : Json) :
    HubM (TaskId × Task) :=
  .atomically fun h =>
    match h.servers serverId with
    | none => (.error .foreignKeyConstraint, h)
    | some _ =>
      let task : Task :=
        { serverId, workerType, status := .QUEUED, input, result := none, logs := [],
          createdAt := env.clock h.reads, updatedAt := env.clock h.reads }
      (.ok (h.tasks.next, task), { h with tasks := h.tasks.insert task, reads := h.reads + 1 })

/-- `task.update({ where: { id }, data })`; `@updatedAt` is set to the time of
the update. -/
def taskUpdate (taskId : TaskId) (data : Task → Task) : HubM Task :=
  .atomically fun h =>
    match h.tasks taskId with
    | none => (.error .recordNotFound, h)
    | some task =>
      let updated := { data task with updatedAt := env.clock h.reads }
      if updated.serverId ≠ task.serverId ∧ h.servers updated.serverId = none then
        (.error .foreignKeyConstraint, h)
      else
        (.ok updated,
          { h with tasks := h.tasks.modify taskId fun _ => updated, reads := h.reads + 1 })

/-- The server of a task, as an `update` with `include: { server }` returns
it. -/
def serverOf (task : Task) : HubM Server := do
  match ← Proc.read fun h => h.servers task.serverId with
  | some server => pure server
  | none => throw .recordNotFound

/-- `taskAttempt.create({ data })`; the times are defaults. -/
def taskAttemptCreate (taskId : TaskId) (serverId : ServerId) (status : TaskAttemptStatus) :
    HubM (TaskAttemptId × TaskAttempt) :=
  .atomically fun h =>
    match h.tasks taskId, h.servers serverId with
    | some _, some _ =>
      let attempt : TaskAttempt :=
        { taskId, serverId, status, failureReason := none, startedAt := env.clock h.reads,
          lastSeenAt := env.clock h.reads, finishedAt := none }
      (.ok (h.attempts.next, attempt),
        { h with attempts := h.attempts.insert attempt, reads := h.reads + 1 })
    | _, _ => (.error .foreignKeyConstraint, h)

/-- `taskAttempt.update({ where: { id }, data })`. -/
def taskAttemptUpdate (attemptId : TaskAttemptId) (data : TaskAttempt → TaskAttempt) :
    HubM Unit :=
  .atomically fun h =>
    match h.attempts attemptId with
    | none => (.error .recordNotFound, h)
    | some _ => (.ok (), { h with attempts := h.attempts.modify attemptId data })

/-- `taskAttempt.findFirst({ where: { taskId, status: { in: [...] } }, orderBy:
{ startedAt: 'desc' } })`. -/
def taskAttemptFindActive (taskId : TaskRef) : HubM (Option TaskAttemptId) :=
  match taskId.selects with
  | none => throw .validation
  | some selects => .read fun h => (latestActive env h.attempts selects).map (·.1)

/-- `approval.create({ data })`; `taskId` is unique. -/
def approvalCreate (taskId : TaskId) (reason : Option JsString) : HubM (ApprovalId × Approval) :=
  .atomically fun h =>
    match h.tasks taskId with
    | none => (.error .foreignKeyConstraint, h)
    | some _ =>
      if h.approvals.toList.any fun row => row.2.taskId == taskId then
        (.error .uniqueConstraint, h)
      else
        let approval : Approval :=
          { taskId, status := .PENDING, requestedAt := env.clock h.reads, decidedAt := none,
            reason }
        (.ok (h.approvals.next, approval),
          { h with approvals := h.approvals.insert approval, reads := h.reads + 1 })

/-- `approval.update({ where: { id }, data })`. -/
def approvalUpdate (approvalId : ApprovalId) (data : Approval → Approval) : HubM Approval :=
  .atomically fun h =>
    match h.approvals approvalId with
    | none => (.error .recordNotFound, h)
    | some approval =>
      (.ok (data approval),
        { h with approvals := h.approvals.modify approvalId fun _ => data approval })

/-- `server.update({ where: { id }, data })`. -/
def serverUpdate (serverId : ServerId) (data : Server → Server) : HubM Unit :=
  .atomically fun h =>
    match h.servers serverId with
    | none => (.error .recordNotFound, h)
    | some _ => (.ok (), { h with servers := h.servers.modify serverId data })

/-- `serverRegistrationRequest.update({ where: { id }, data })`. -/
def registrationUpdate (requestId : RegistrationId)
    (data : ServerRegistrationRequest → ServerRegistrationRequest) :
    HubM ServerRegistrationRequest :=
  .atomically fun h =>
    match h.registrations requestId with
    | none => (.error .recordNotFound, h)
    | some request =>
      (.ok (data request),
        { h with registrations := h.registrations.modify requestId fun _ => data request })

end Prisma

end CodeCaller
