import CodeCaller.Schema

/-!
# The event contract

The messages of `realtime/events.ts`, in both directions: what a daemon sends, what the Hub sends
to a daemon, and what it tells the apps.

The payload types of that file are not checked at run time: the gateway hands on whatever arrives.
So a message is modelled as it can be sent.  A `taskId` may be any value, and a Prisma `where`
clause reads a missing one as "no condition" and an object as a filter; a `status` may be missing,
which an update leaves out, or none of the enumeration, which the update rejects.

`DaemonInbound.Typed` says that a message has the type the file declares for it.  It is decidable,
so a run of typed messages can be evaluated.

### What is load-bearing

The difference between the two readings of a `taskId`.  Most results are about runs of typed
messages; what holds of any message at all is stated without `Typed`, and `TaskRef` is where the
two part.
-/

namespace CodeCaller

open Async

/-- **A `taskId` off the wire**, by what a Prisma query makes of it. -/
inductive TaskRef where
  /-- A string: the key of a row. -/
  | id (taskId : TaskId)
  /-- `undefined` or a filter object: a condition on `findFirst`, not a key. -/
  | filter (selects : TaskId → Bool)
  /-- A value no query accepts. -/
  | invalid

/-- A `status` off the wire: a member of the enumeration, `undefined` (which an
update leaves out), or a value the update rejects. -/
inductive StatusRef where
  | status (status : TaskStatus)
  | undefined
  | invalid
deriving DecidableEq

/-- `failure.category`. -/
inductive FailureCategory where
  | CAPACITY_EXHAUSTED | PROCESS_ERROR | UNKNOWN
deriving DecidableEq, Repr

/-- `DaemonTaskFailurePayload`: what the daemon thinks of a failure.  The Hub looks at the category
and whether it may be retried. -/
structure DaemonTaskFailurePayload where
  category : FailureCategory
  retryable : Option Bool
  message : Option JsString
  detail : Option JsString

/-- `DaemonTaskStatusPayload`. -/
structure DaemonTaskStatusPayload where
  taskId : TaskRef
  status : StatusRef

/-- `DaemonTaskLogPayload`: a chunk of the output. -/
structure DaemonTaskLogPayload where
  taskId : TaskRef
  chunk : JsString

/-- `DaemonTaskResultPayload`: how the child of a task has ended. -/
structure DaemonTaskResultPayload where
  taskId : TaskRef
  status : StatusRef
  failure : Option DaemonTaskFailurePayload
  result : Option Json

/-- `DaemonApprovalRequestPayload`: a prompt was found in the output. -/
structure DaemonApprovalRequestPayload where
  taskId : TaskRef
  reason : Option JsString

/-- `DAEMON_INBOUND`: the messages of a daemon. -/
inductive DaemonInbound where
  | HEARTBEAT
  | TASK_STATUS_UPDATE (payload : DaemonTaskStatusPayload)
  | TASK_LOG (payload : DaemonTaskLogPayload)
  | TASK_RESULT (payload : DaemonTaskResultPayload)
  | APPROVAL_REQUEST (payload : DaemonApprovalRequestPayload)

/-- `DAEMON_OUTBOUND`: the messages to a daemon. -/
inductive DaemonOutbound where
  | TASK_SUBMIT (taskId : TaskId) (input : Json)
  | TASK_CANCEL (taskId : TaskId)
  | APPROVAL_DECISION (taskId : TaskId) (approved : Bool) (reason : Option JsString)

/-- The task a message to a daemon is about. -/
def DaemonOutbound.taskId : DaemonOutbound → TaskId
  | TASK_SUBMIT taskId _ => taskId
  | TASK_CANCEL taskId => taskId
  | APPROVAL_DECISION taskId _ _ => taskId

/-- `APP_OUTBOUND`: the messages to the mobile app, with the row they carry. -/
inductive AppOutbound where
  | TASK_UPDATED (taskId : TaskId) (task : Task)
  | APPROVAL_PENDING (approvalId : ApprovalId) (approval : Approval)
  | APPROVAL_RESOLVED (approvalId : ApprovalId) (approval : Approval)

/-- A status a daemon may report: `'RUNNING' | 'AWAITING_APPROVAL' | 'COMPLETED'
| 'FAILED' | 'CANCELLED'`. -/
def StatusRef.Reportable : StatusRef → Prop
  | status s => s ≠ .QUEUED
  | undefined | invalid => False

/-- A status a result may carry: `'COMPLETED' | 'FAILED'`. -/
def StatusRef.Result : StatusRef → Prop
  | status s => s = .COMPLETED ∨ s = .FAILED
  | undefined | invalid => False

/-- `taskId: string`. -/
def TaskRef.IsId : TaskRef → Prop
  | id _ => True
  | filter _ | invalid => False

/-- **The payload types of `events.ts`.** -/
def DaemonInbound.Typed : DaemonInbound → Prop
  | HEARTBEAT => True
  | TASK_STATUS_UPDATE payload => payload.taskId.IsId ∧ payload.status.Reportable
  | TASK_LOG payload => payload.taskId.IsId
  | TASK_RESULT payload => payload.taskId.IsId ∧ payload.status.Result
  | APPROVAL_REQUEST payload => payload.taskId.IsId ∧ payload.reason.isSome

instance : DecidablePred StatusRef.Reportable
  | .status s => inferInstanceAs (Decidable (s ≠ .QUEUED))
  | .undefined | .invalid => inferInstanceAs (Decidable False)

instance : DecidablePred StatusRef.Result
  | .status s => inferInstanceAs (Decidable (s = .COMPLETED ∨ s = .FAILED))
  | .undefined | .invalid => inferInstanceAs (Decidable False)

instance : DecidablePred TaskRef.IsId
  | .id _ => inferInstanceAs (Decidable True)
  | .filter _ | .invalid => inferInstanceAs (Decidable False)

instance : DecidablePred DaemonInbound.Typed
  | .HEARTBEAT => inferInstanceAs (Decidable True)
  | .TASK_STATUS_UPDATE payload =>
    inferInstanceAs (Decidable (payload.taskId.IsId ∧ payload.status.Reportable))
  | .TASK_LOG payload => inferInstanceAs (Decidable payload.taskId.IsId)
  | .TASK_RESULT payload =>
    inferInstanceAs (Decidable (payload.taskId.IsId ∧ payload.status.Result))
  | .APPROVAL_REQUEST payload =>
    inferInstanceAs (Decidable (payload.taskId.IsId ∧ payload.reason.isSome))

end CodeCaller
