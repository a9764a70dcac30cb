import CodeCaller.Hub.Realtime
import Mathlib.Data.List.Lex

/-!
# `workers`

The registry that picks the servers a task may be dispatched to, and the one adapter it knows,
which turns task operations into messages to a daemon.

### Main definitions

* `CodexAdapter.submitTask`, `cancelTask`: the two messages a task operation sends.
* `WorkerRegistry.get`: the adapter of a worker type.  The code registers one, so a task of another
  type is refused at the first operation that needs an adapter.
* `WorkerRegistry.getDispatchCandidates`: the enabled profiles of the provider on the `ONLINE`
  servers of the owner that are not excluded, in the order of the query, then sorted by
  `compareCandidates`.

### Sorting

`compareCandidates` answers `-1` whenever the left candidate is on the preferred server, also when
the right one is too, so it is not an order.  What `Array.prototype.sort` makes of such a
comparison is not specified; the model therefore leaves the algorithm to `Env.sort`, of which it is
only known that it permutes.  A result about the order has to say for which comparisons, or for
which lists, the algorithm does not matter.
-/

namespace CodeCaller

open Async

variable (env : Env)

/-! ## `CodexAdapter` -/

namespace CodexAdapter

def workerType : WorkerType := .CODEX

/-- The server is the one of the candidate, not the one of the task. -/
def submitTask (taskId : TaskId) (serverId : ServerId) (input : Json) : HubM Unit :=
  RealtimeService.dispatchToServer serverId (.TASK_SUBMIT taskId input)

def findTaskOrThrow (taskId : TaskId) : HubM Task := do
  match ← Prisma.taskFindUnique taskId with
  | some task => return task
  | none =>
    throw ⟨.notFound, js "작업(" ++ JsString.ofNat taskId ++ js ")을 찾을 수 없습니다."⟩

/-- The server is the one the task is on at that moment. -/
def cancelTask (taskId : TaskId) : HubM Unit := do
  let task ← findTaskOrThrow taskId
  RealtimeService.dispatchToServer task.serverId (.TASK_CANCEL taskId)

end CodexAdapter

/-- `AIWorkerAdapter`, the operations the task services call. -/
structure AIWorkerAdapter where
  submitTask : TaskId → ServerId → Json → HubM Unit
  cancelTask : TaskId → HubM Unit

/-! ## `WorkerRegistry` -/

/-- One profile of one server. -/
structure WorkerDispatchCandidate where
  serverId : ServerId
  serverName : JsString
  provider : WorkerProvider
  profileName : JsString

/-- The exception for a worker type without an adapter. -/
def HubError.unsupported (workerType : WorkerType) : HubError :=
  ⟨.badRequest, js "지원하지 않는 워커 타입입니다: " ++ workerType.text⟩

namespace WorkerRegistry

/-- The adapter of a worker type: only `CODEX` is registered. -/
def get (workerType : WorkerType) : HubM AIWorkerAdapter :=
  if workerType = CodexAdapter.workerType then
    pure ⟨CodexAdapter.submitTask, CodexAdapter.cancelTask⟩
  else throw (HubError.unsupported workerType)

/-- `CLAUDE` and `GEMINI` have providers, though no adapter. -/
def providerForWorkerType : WorkerType → WorkerProvider
  | .CODEX => .CODEX
  | .CLAUDE => .CLAUDE_CODE
  | .GEMINI => .GEMINI

/-- The comparison `getDispatchCandidates` sorts by. -/
def compareCandidates (preferredServerId : ServerId) (left right : WorkerDispatchCandidate) : ℤ :=
  if left.serverId = preferredServerId then -1
  else if right.serverId = preferredServerId then 1
  else env.localeCompare left.serverName right.serverName

/-- `orderBy: [{ serverId: 'asc' }, { profileName: 'asc' }]`. -/
def profileBefore (a b : WorkerProfile × Server) : Prop :=
  a.1.serverId < b.1.serverId ∨
    a.1.serverId = b.1.serverId ∧ (a.1.profileName.map (·.toNat) ≤ b.1.profileName.map (·.toNat))

instance : DecidableRel profileBefore := fun a b => by
  unfold profileBefore; infer_instance

/-- The `where` clause on a profile and its server. -/
def compatible (ownerId : UserId) (provider : WorkerProvider) (excludedServerIds : List ServerId)
    (profile : WorkerProfile) (server : Server) : Bool :=
  profile.enabled && profile.provider == provider && server.ownerId == ownerId &&
    server.status == .ONLINE && !excludedServerIds.contains profile.serverId

/-- `workerProfile.findMany` with its server included. -/
def profilesFor (h : Hub) (ownerId : UserId) (provider : WorkerProvider)
    (excludedServerIds : List ServerId) : List (WorkerProfile × Server) :=
  ((env.rowOrder h.workerProfiles.toList).filterMap fun row =>
    (h.servers row.2.serverId).bind fun server =>
      if compatible ownerId provider excludedServerIds row.2 server then some (row.2, server)
      else none).insertionSort profileBefore

/-- One candidate per matching profile. -/
def toCandidate (row : WorkerProfile × Server) : WorkerDispatchCandidate :=
  { serverId := row.1.serverId, serverName := row.2.name, provider := row.1.provider,
    profileName := row.1.profileName }

/-- The owner is the owner of the preferred server, the one the task was submitted to or last ran
on. -/
def getDispatchCandidates (workerType : WorkerType) (preferredServerId : ServerId)
    (excludedServerIds : List ServerId) : HubM (List WorkerDispatchCandidate) := do
  let _ ← get workerType
  let provider := providerForWorkerType workerType
  match ← Proc.read fun h => h.servers preferredServerId with
  | none =>
    throw ⟨.badRequest,
      js "서버(" ++ JsString.ofNat preferredServerId ++ js ")를 찾을 수 없습니다."⟩
  | some preferredServer =>
    let profiles ← Proc.read fun h =>
      profilesFor env h preferredServer.ownerId provider excludedServerIds
    return env.sort (compareCandidates env preferredServerId) (profiles.map toCandidate)

end WorkerRegistry

end CodeCaller
