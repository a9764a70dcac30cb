import CodeCaller.Hub.Realtime

/-!
# `approvals`

`ApprovalsService`: a daemon asks for approval of a task, the owner decides, and the decision is
sent to the server the task is on.

The approval of a task is unique: `approvalCreate` fails on a second one, whatever became of the
first.  A decision is three steps with other calls between them: the approval is read, and checked
to be pending and the owner's; it is updated by its id, without a second look at its status; then
the task is updated, whatever its status is by then.  Last, the daemon is told, and a failure to
reach it is caught, so the decision stands in any case.
-/

namespace CodeCaller

open Async

variable (env : Env)

/-- `DecideApprovalDto`. -/
structure DecideApprovalDto where
  approve : Bool
  reason : Option JsString

namespace ApprovalsService

/-- The approval, its task and the server of the task, as `include` reads
them. -/
def approvalWithTask (h : Hub) (approvalId : ApprovalId) : Option (Approval × Task × Server) :=
  (h.approvals approvalId).bind fun approval =>
    (h.taskWithServer approval.taskId).map fun row => (approval, row.1, row.2)

/-- `listForOwner`; the status of the query is missing, a member of the
enumeration, or a value the query rejects. -/
def listForOwner (ownerId : UserId) (status : Option (Option ApprovalStatus)) :
    HubM (List (ApprovalId × Approval × Task)) :=
  match status with
  | some none => throw .validation
  | _ => .read fun h =>
    (orderByDesc env (fun row => row.1.requestedAt) (h.approvals.toList.filterMap fun row =>
      (h.taskWithServer row.2.taskId).bind fun found =>
        if found.2.ownerId = ownerId ∧ (status = none ∨ status = some (some row.2.status)) then
          some (row.1, (row.2, found.1))
        else none)).map fun row => (row.1, row.2.1, row.2.2)

/-- The answer is the approval as it was written, which another decision may have written since. -/
def decide (ownerId : UserId) (approvalId : ApprovalId) (dto : DecideApprovalDto) :
    HubM (ApprovalId × Approval) := do
  match ← Proc.read fun h => approvalWithTask h approvalId with
  | none => throw ⟨.notFound, js "승인 요청을 찾을 수 없습니다."⟩
  | some (approval, task, server) =>
    if server.ownerId ≠ ownerId then
      throw ⟨.forbidden, js "해당 승인 요청에 접근할 권한이 없습니다."⟩
    if approval.status ≠ .PENDING then
      throw ⟨.badRequest, js "이미 처리된 승인 요청입니다."⟩
    let decidedStatus : ApprovalStatus := if dto.approve then .APPROVED else .REJECTED
    let date ← now env
    let updatedApproval ← Prisma.approvalUpdate approvalId fun row =>
      { row with
        status := decidedStatus
        decidedAt := some date
        reason := match dto.reason with
          | some reason => some reason
          | none => row.reason }
    let _ ← Prisma.taskUpdate env approval.taskId fun row =>
      { row with status := if dto.approve then .RUNNING else .CANCELLED }
    tryCatch
      (RealtimeService.dispatchToServer task.serverId
        (.APPROVAL_DECISION approval.taskId dto.approve dto.reason))
      (fun _ => pure ())
    RealtimeService.notifyUser ownerId (.APPROVAL_RESOLVED approvalId updatedApproval)
    return (approvalId, updatedApproval)

/-- A task the Hub does not know is ignored; the second request for one task is an error of the
database, and the task stays as it is. -/
def handleDaemonApprovalRequest (payload : DaemonApprovalRequestPayload) : HubM Unit := do
  let taskId ← Prisma.key payload.taskId
  match ← Prisma.taskFindUniqueWithServer taskId with
  | none => return
  | some (_, server) =>
    let (approvalId, approval) ← Prisma.approvalCreate env taskId payload.reason
    let _ ← Prisma.taskUpdate env taskId fun row => { row with status := .AWAITING_APPROVAL }
    RealtimeService.notifyUser server.ownerId (.APPROVAL_PENDING approvalId approval)
    NotificationsService.sendPush env server.ownerId (js "승인 필요") (payload.reason.getD [])

end ApprovalsService

end CodeCaller
