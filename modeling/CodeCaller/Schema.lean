import CodeCaller.Library.JsString

/-!
# The data model

The enumerations and the tables of `prisma/schema.prisma`, as far as the modelled services read or
write them.  A structure here is one row; the table it is stored in is a field of the Hub, and the
relations between tables are keys that a row holds.

* Row identifiers are the generated keys of the tables, so a row does not repeat its own.  The code
  uses random UUIDs; nothing depends on more than that two rows never have one key, which the
  tables guarantee by construction.
* Times are milliseconds, as `Date.getTime()` gives them.
* `Option` stands for a nullable column, and an enumeration of the schema is an inductive type with
  the constructors of the schema.

### What is left out

`capabilities` of a worker profile, `createdAt` of the rows that are never listed by it and the ids
a row repeats are read by no modelled function.  The user's password hash is read by the login
only, and stands in the state of `AuthService`.

### What is load-bearing

`Task.serverId` is the only way from a task to its owner: the schema stores no owner with a task,
so every statement about whose task it is goes through the server, and a task changes hands exactly
if it is moved to a server of somebody else.
-/

namespace CodeCaller

open Async

/-- The ids of the rows are the keys of their tables, in the order of creation. -/
abbrev UserId := ℕ
abbrev ServerId := ℕ
abbrev TaskId := ℕ
abbrev TaskAttemptId := ℕ
abbrev ApprovalId := ℕ
abbrev RegistrationId := ℕ
/-- Milliseconds, as `Date.now()` gives them. -/
abbrev Time := ℕ

/-- A JSON value: what a task takes as input and a daemon reports as result. -/
inductive Json where
  | null
  | bool (value : Bool)
  | number (literal : JsString)
  | string (value : JsString)
  | array (items : List Json)
  | object (members : List (JsString × Json))

/-- What the sample tasks are submitted with. -/
def sampleInput : Json := .object [(js "prompt", .string (js "do"))]

/-- `enum OsType`. -/
inductive OsType where
  | UBUNTU | WINDOWS | MACOS
deriving DecidableEq, Repr

/-- `enum ServerStatus`; a server is `OFFLINE` until its daemon connects. -/
inductive ServerStatus where
  | ONLINE | OFFLINE
deriving DecidableEq, Repr

/-- What a task asks for; of these only Codex has an adapter. -/
inductive WorkerType where
  | CODEX | CLAUDE | GEMINI
deriving DecidableEq, Repr

/-- `enum TaskStatus`. -/
inductive TaskStatus where
  | QUEUED | RUNNING | AWAITING_APPROVAL | COMPLETED | FAILED | CANCELLED
deriving DecidableEq, Repr

/-- `enum TaskAttemptStatus`: an attempt is on one server. -/
inductive TaskAttemptStatus where
  | DISPATCHING | RUNNING | SUCCEEDED | FAILED | TIMED_OUT
deriving DecidableEq, Repr

/-- `enum ApprovalStatus`; only a `PENDING` approval is decided. -/
inductive ApprovalStatus where
  | PENDING | APPROVED | REJECTED
deriving DecidableEq, Repr

/-- `enum PushPlatform`. -/
inductive PushPlatform where
  | ANDROID | IOS
deriving DecidableEq, Repr

/-- `enum ServerRegistrationStatus`.  `CREDENTIAL_DELIVERED` follows `APPROVED` when the daemon has
fetched its key. -/
inductive ServerRegistrationStatus where
  | PENDING | APPROVED | REJECTED | EXPIRED | CREDENTIAL_DELIVERED
deriving DecidableEq, Repr

/-- What a worker profile offers; a profile is matched to a worker type by its provider. -/
inductive WorkerProvider where
  | CODEX | CLAUDE_CODE | ANTIGRAVITY | OPENCODE | GEMINI
deriving DecidableEq, Repr

/-- The text of a worker type in an error message. -/
def WorkerType.text : WorkerType → JsString
  | CODEX => js "CODEX"
  | CLAUDE => js "CLAUDE"
  | GEMINI => js "GEMINI"

/-- The states a task is meant to end in. -/
def TaskStatus.terminal : TaskStatus → Bool
  | COMPLETED | FAILED | CANCELLED => true
  | QUEUED | RUNNING | AWAITING_APPROVAL => false

/-- `status: { in: ['DISPATCHING', 'RUNNING'] }`. -/
def TaskAttemptStatus.active : TaskAttemptStatus → Bool
  | DISPATCHING | RUNNING => true
  | SUCCEEDED | FAILED | TIMED_OUT => false

/-- A user, with the one field that others look for: the password is in the row that `AuthService`
reads. -/
structure User where
  email : JsString

/-- A machine of a user.  `status` is written by connections and heartbeats, and only the hash of
the API key is stored. -/
structure Server where
  ownerId : UserId
  name : JsString
  osType : OsType
  tailscaleIp : JsString
  apiKeyHash : JsString
  status : ServerStatus
  lastHeartbeatAt : Option Time
  createdAt : Time

/-- A request of a daemon for a server of its own.  The three `apiKey` columns are the envelope of
the key, sealed when the request is approved. -/
structure ServerRegistrationRequest where
  ownerId : UserId
  name : JsString
  osType : OsType
  tailscaleIp : JsString
  fingerprint : JsString
  verificationCode : JsString
  requestSecretHash : JsString
  status : ServerRegistrationStatus
  expiresAt : Time
  serverId : Option ServerId
  apiKeyCiphertext : Option JsString
  apiKeyIv : Option JsString
  apiKeyAuthTag : Option JsString
  createdAt : Time

/-- What a server can run. -/
structure WorkerProfile where
  serverId : ServerId
  provider : WorkerProvider
  profileName : JsString
  enabled : Bool

/-- A task, on the server it was submitted to or moved to.  `logs` grows by the chunks the daemon
reports. -/
structure Task where
  serverId : ServerId
  workerType : WorkerType
  status : TaskStatus
  input : Json
  result : Option Json
  logs : JsString
  createdAt : Time
  updatedAt : Time

/-- One try to run a task on one server.  It is closed if `finishedAt` is set. -/
structure TaskAttempt where
  taskId : TaskId
  serverId : ServerId
  status : TaskAttemptStatus
  failureReason : Option JsString
  startedAt : Time
  lastSeenAt : Time
  finishedAt : Option Time

/-- The question of a task whether it may go on; a task has one at most, since `taskId` is unique.
-/
structure Approval where
  taskId : TaskId
  status : ApprovalStatus
  requestedAt : Time
  decidedAt : Option Time
  reason : Option JsString

/-- A device of a user; `token` is stored encrypted. -/
structure PushToken where
  userId : UserId
  token : JsString
  platform : PushPlatform

/-- An attempt that is being dispatched or is running. -/
def TaskAttempt.active (attempt : TaskAttempt) : Bool := attempt.status.active

end CodeCaller
