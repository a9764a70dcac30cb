import CodeCaller.Hub.Isolation
import CodeCaller.Fleet.Execution

/-!
# Isolation under interleaving

The separation of tenants is not a property of whole calls only.  Between any two nodes of a call
others run, the rows it has looked up may be gone by the time it writes, and the servers its tasks
were on may have changed: still no node of a request touches a row of another user, and no node of
a handler touches a row of a user who has entrusted the daemon with nothing.

`Hub.Isolation` is the same property of uninterrupted calls, by way of effects.  Here it is proved
by way of deeds: `task_changed`, `attempt_changed` and `approval_changed` say why a row may change,
and `HubCall.Spares` that none of these reasons is about the owner.  The history turns "was the
owner's when the call looked" into "is the owner's now" (`HubCall.Spares.entitled`).

For messages of daemons nothing is assumed about what they say.  That they only speak about tasks
entrusted to them is a result about the daemons (`Fleet.Execution`), and `Fleet.Trusted.spares`
uses it.
-/

namespace CodeCaller

open Async

variable {env : Env} {call : HubCall} {past : Past} {r r' : Rows} {seen : List Hub} {h h' : Hub}
  {owner : UserId}

/-! ## What a write may change -/

namespace Write

/-- **A row of a task changes** if it is new, deleted, of a task the call may write to, or of one
the queue is at work on. -/
theorem task_changed (hw : Write env call past r r') (taskId : TaskId) :
    r'.tasks taskId = r.tasks taskId ∨ r.tasks taskId = none ∨ r'.tasks taskId = none ∨
      call.Entitled past taskId ∨ call.Queued := by
  cases hw with
  | serverDeleted =>
      dsimp only
      rw [Table.filter_apply]
      cases r.tasks taskId with
      | none => exact .inl rfl
      | some task =>
          rw [Option.filter_some]
          split
          · exact .inl rfl
          · exact .inr (.inr (.inl rfl))
  | taskCreated =>
      dsimp only
      rw [Table.insert_apply]
      split
      · next heq => exact .inr (.inl (heq ▸ r.tasks.fresh _ le_rfl))
      · exact .inl rfl
  | taskWritten hentitled =>
      dsimp only
      rw [Table.modify_apply]
      split
      · next heq => exact .inr (.inr (.inr (.inl (heq ▸ hentitled))))
      · exact .inl rfl
  | taskMoved hcall => exact .inr (.inr (.inr (.inr (.inl ⟨_, hcall⟩))))
  | _ => exact .inl rfl

/-- **A row of an attempt changes** with its server or its task, by a message that selects its
task, or by the queue. -/
theorem attempt_changed (hw : Write env call past r r') (id : TaskAttemptId) :
    r'.attempts id = r.attempts id ∨ call.Queued ∨
      (∃ ref selects, call.reports = some ref ∧ ref.selects = some selects ∧
        Saw past fun h => ∃ attempt, h.attempts id = some attempt ∧
          selects attempt.taskId = true) ∨
      ∃ ownerId serverId, call = .removeServer ownerId serverId ∧
        (Saw past fun h => h.ServerOf serverId ownerId) ∧ r'.attempts id = none ∧
        ∀ attempt, r.attempts id = some attempt → attempt.serverId = serverId ∨
          ∀ task, r.tasks attempt.taskId = some task → task.serverId = serverId := by
  cases hw with
  | @serverDeleted ownerId serverId hcall howner =>
      cases hrow : r.attempts id with
      | none =>
          left
          dsimp only
          rw [Table.filter_apply, hrow]
          rfl
      | some attempt =>
          by_cases hkeep : (attempt.serverId != serverId &&
              (r.tasks attempt.taskId).any fun task => task.serverId != serverId) = true
          · left
            dsimp only
            rw [Table.filter_apply, hrow, Option.filter_some, if_pos hkeep]
          · refine .inr (.inr (.inr ⟨ownerId, serverId, hcall, howner, ?_, fun other hother => ?_⟩))
            · dsimp only
              rw [Table.filter_apply, hrow, Option.filter_some, if_neg hkeep]
            · cases hother
              by_contra hboth
              obtain ⟨hoff, htask⟩ := not_or.mp hboth
              refine hkeep (Bool.and_eq_true_iff.mpr ⟨bne_iff_ne.mpr hoff, ?_⟩)
              obtain ⟨task, hstored, helsewhere⟩ := not_forall₂.mp htask
              rw [hstored]
              exact bne_iff_ne.mpr helsewhere
  | attemptCreated hcall => exact .inr (.inl (.inl ⟨_, hcall⟩))
  | @attemptWritten other f huser hselected hqueued =>
      by_cases heq : id = other
      · subst heq
        cases href : call.reports with
        | none => exact .inr (.inl (hqueued href))
        | some ref =>
            obtain ⟨selects, hsel, hsaw⟩ := hselected ref href
            exact .inr (.inr (.inl ⟨ref, selects, rfl, hsel, hsaw⟩))
      · left
        dsimp only
        rw [Table.modify_apply, if_neg heq]
  | _ => exact .inl rfl

/-- **A row of an approval changes** with its task, by a request for it, or by a decision of the
user of the task. -/
theorem approval_changed (hw : Write env call past r r') (id : ApprovalId) :
    r'.approvals id = r.approvals id ∨
      (r.approvals id = none ∧ ∃ approval' taskId, r'.approvals id = some approval' ∧
        approval'.taskId = taskId ∧ call.reports = some (.id taskId)) ∨
      (∃ ownerId dto taskId, call = .decideApproval ownerId id dto ∧
        Saw past fun h => h.AskedOf id ownerId taskId) ∨
      ∃ ownerId serverId, call = .removeServer ownerId serverId ∧
        (Saw past fun h => h.ServerOf serverId ownerId) ∧ r'.approvals id = none ∧
        ∀ approval, r.approvals id = some approval →
          ∀ task, r.tasks approval.taskId = some task → task.serverId = serverId := by
  cases hw with
  | @serverDeleted ownerId serverId hcall howner =>
      cases hrow : r.approvals id with
      | none =>
          left
          dsimp only
          rw [Table.filter_apply, hrow]
          rfl
      | some approval =>
          by_cases hkeep : ((r.tasks approval.taskId).any fun task => task.serverId != serverId) =
              true
          · left
            dsimp only
            rw [Table.filter_apply, hrow, Option.filter_some, if_pos hkeep]
          · refine .inr (.inr (.inr ⟨ownerId, serverId, hcall, howner, ?_,
              fun other hother task hstored => ?_⟩))
            · dsimp only
              rw [Table.filter_apply, hrow, Option.filter_some, if_neg hkeep]
            · cases hother
              by_contra helsewhere
              refine hkeep ?_
              rw [hstored]
              exact bne_iff_ne.mpr helsewhere
  | @approvalCreated socketId payload approval hcall hid =>
      by_cases heq : id = r.approvals.next
      · refine .inr (.inl ⟨heq ▸ r.approvals.fresh _ le_rfl, approval, _, ?_, rfl, ?_⟩)
        · dsimp only
          rw [Table.insert_apply, if_pos heq]
        · rw [hcall, ← hid]
          rfl
      · left
        dsimp only
        rw [Table.insert_apply, if_neg heq]
  | @approvalDecided ownerId approvalId dto taskId date hcall hasked =>
      by_cases heq : id = approvalId
      · subst heq
        exact .inr (.inr (.inl ⟨ownerId, dto, taskId, hcall, hasked⟩))
      · left
        dsimp only
        rw [Table.modify_apply, if_neg heq]
  | _ => exact .inl rfl

end Write

/-! ## Calls that spare an owner -/

/-- **A call spares an owner**: it is not a request of the owner, its message selects no task that
has ever been the owner's, and it does not come from the queue. -/
structure HubCall.Spares (call : HubCall) (seen : List Hub) (owner : UserId) : Prop where
  user : call.user ≠ some owner
  reports : ∀ ref selects taskId, call.reports = some ref → ref.selects = some selects →
    selects taskId = true → ∀ g ∈ seen, g.ownerOf taskId ≠ some owner
  queued : ¬call.Queued

section Spares

variable (hl : Archive seen h) (hwithin : Within past seen) (hspares : call.Spares seen owner)

include hl hwithin hspares

/-- The tasks of the owner are not those the call may write to. -/
theorem HubCall.Spares.entitled {taskId : TaskId} (hentitled : call.Entitled past taskId) :
    h.ownerOf taskId ≠ some owner := by
  intro howner
  cases huser : call.user with
  | some user =>
      obtain ⟨g, hg, howns⟩ := hwithin.saw (hentitled.user user huser)
      obtain rfl := hl.owners g hg h hl.here taskId user owner howns howner
      exact hspares.user huser
  | none =>
      cases href : call.reports with
      | none => exact hspares.queued (hentitled.queued huser href)
      | some ref =>
          obtain ⟨selects, hsel, hof⟩ := hentitled.reports ref href
          exact hspares.reports ref selects taskId href hsel hof h hl.here howner

/-- A server of the owner is not deleted. -/
theorem HubCall.Spares.server {ownerId : UserId} {serverId : ServerId}
    (hcall : call = .removeServer ownerId serverId)
    (hsaw : Saw past fun h => h.ServerOf serverId ownerId) {g : Hub}
    (hg : g ∈ seen) : ¬g.ServerOf serverId owner := by
  intro hserver
  obtain ⟨g', hg', hserver'⟩ := hwithin.saw hsaw
  obtain rfl := hl.serverOf hg hg' hserver hserver'
  exact hspares.user (by rw [hcall]; rfl)

variable (hw : Write env call past h.rows h'.rows) (hl' : Archive (seen ++ [h']) h')

include hw hl'

/-- **The tasks of the owner stay those of the owner.** -/
theorem Write.spares_owner (taskId : TaskId) :
    h'.ownerOf taskId = some owner ↔ h.ownerOf taskId = some owner := by
  have hhere : h ∈ seen ++ [h'] := List.mem_append_left _ hl.here
  constructor
  · intro howner
    obtain ⟨task', -, hrow', -⟩ := ownerOf_some (r := h'.rows) howner
    cases hrow : h.tasks taskId with
    | some task =>
        obtain ⟨before, hbefore, -⟩ := hl.owned hl.here hrow
        rw [hl'.owners h hhere h' hl'.here taskId before owner hbefore howner] at hbefore
        exact hbefore
    | none =>
        obtain ⟨ownerId, dto, hcall, -, hsaw⟩ := hw.new_task hrow hrow'
        obtain ⟨g, hg, hserver⟩ := hwithin.saw hsaw
        obtain ⟨owner', howner', hserver'⟩ := hl'.owned hl'.here hrow'
        rw [howner] at howner'
        cases howner'
        obtain rfl := hl'.serverOf (List.mem_append_left _ hg) hl'.here hserver hserver'
        exact absurd (by rw [hcall]; rfl) hspares.user
  · intro howner
    obtain ⟨task, server, hrow, hserver, rfl⟩ := ownerOf_some (r := h.rows) howner
    have hstored : h.rows.tasks taskId ≠ none := by
      rw [hrow]
      exact Option.some_ne_none task
    rcases hw.task_kept hstored with hkept | ⟨ownerId, other, hother, hcall, hsaw, -⟩
    · obtain ⟨task', hrow'⟩ := Option.ne_none_iff_exists'.mp hkept
      obtain ⟨after, hafter, -⟩ := hl'.owned hl'.here hrow'
      rw [← hl'.owners h hhere h' hl'.here taskId _ after howner hafter] at hafter
      exact hafter
    · obtain rfl := Option.some.inj (hrow.symm.trans hother)
      exact absurd ⟨server, hserver, rfl⟩ (hspares.server hl hwithin hcall hsaw hl.here)

/-- A task of the owner is as it was. -/
theorem Write.spares_task {taskId : TaskId} (howner : h.ownerOf taskId = some owner) :
    h'.tasks taskId = h.tasks taskId := by
  obtain ⟨task, -, hrow, -⟩ := ownerOf_some (r := h.rows) howner
  obtain ⟨task', -, hrow', -⟩ := ownerOf_some (r := h'.rows)
    ((Write.spares_owner hl hwithin hspares hw hl' taskId).mpr howner)
  rcases hw.task_changed taskId with hsame | hnone | hnone | hentitled | hqueued
  · exact hsame
  · exact absurd (hrow.symm.trans hnone) (Option.some_ne_none task)
  · exact absurd (hrow'.symm.trans hnone) (Option.some_ne_none task')
  · exact absurd howner (hspares.entitled hl hwithin hentitled)
  · exact absurd hqueued hspares.queued

/-- So are its attempts, none added and none removed. -/
theorem Write.spares_attempt {id : TaskAttemptId} {attempt : TaskAttempt}
    (howner : h.ownerOf attempt.taskId = some owner) :
    h'.attempts id = some attempt ↔ h.attempts id = some attempt := by
  rcases hw.attempt_changed id with hsame | hqueued | ⟨ref, selects, href, hsel, hsaw⟩ |
    ⟨ownerId, serverId, hcall, hsaw, hgone, hon⟩
  · rw [show h'.attempts id = h.attempts id from hsame]
  · exact absurd hqueued hspares.queued
  · -- the attempt that was found is at the task it is at now
    obtain ⟨g, hg, found, hfound, hof⟩ := hwithin.saw hsaw
    have hcontra : ∀ g' ∈ seen ++ [h'], g'.attempts id = some attempt → False :=
      fun g' hg' hrow => by
        have hagree : found.taskId = attempt.taskId := congrArg Prod.fst
          (hl'.attempts.agrees g (List.mem_append_left _ hg) g' hg' id found attempt hfound hrow)
        exact hspares.reports ref selects found.taskId href hsel hof h hl.here (hagree ▸ howner)
    exact ⟨fun hrow => (hcontra h' hl'.here hrow).elim,
      fun hrow => (hcontra h (List.mem_append_left _ hl.here) hrow).elim⟩
  · refine ⟨fun hrow => absurd (hrow.symm.trans hgone) (Option.some_ne_none _), fun hrow => ?_⟩
    have hspared : ∀ serverId', serverId' = serverId → ¬h.ServerOf serverId' owner :=
      fun serverId' heq => by
        rw [heq]
        exact hspares.server hl hwithin hcall hsaw hl.here
    rcases hon attempt hrow with hattempt | htask
    · obtain ⟨server, hserver, howns⟩ := (hl.linked h hl.here).attempt_owner id attempt hrow
      rw [Hub.rows_ownerOf, howner] at howns
      exact absurd ⟨server, hserver, (Option.some.inj howns).symm⟩ (hspared _ hattempt)
    · obtain ⟨task, server, hstored, hserver, howns⟩ := ownerOf_some (r := h.rows) howner
      exact absurd ⟨server, hserver, howns⟩ (hspared _ (htask task hstored))

/-- And its approval. -/
theorem Write.spares_approval {id : ApprovalId} {approval : Approval}
    (howner : h.ownerOf approval.taskId = some owner) :
    h'.approvals id = some approval ↔ h.approvals id = some approval := by
  rcases hw.approval_changed id with hsame | ⟨hnone, approval', taskId, hrow', rfl, href⟩ |
    ⟨ownerId, dto, taskId, hcall, hsaw⟩ | ⟨ownerId, serverId, hcall, hsaw, hgone, hon⟩
  · rw [show h'.approvals id = h.approvals id from hsame]
  · refine ⟨fun hrow => ?_, fun hrow => absurd (hrow.symm.trans hnone) (Option.some_ne_none _)⟩
    obtain rfl := Option.some.inj (hrow.symm.trans hrow')
    exact absurd howner (hspares.reports _ _ _ href rfl (beq_self_eq_true _) h hl.here)
  · obtain ⟨g, hg, ⟨asked, hasked, rfl⟩, howns⟩ := hwithin.saw hsaw
    have hcontra : ∀ g' ∈ seen ++ [h'], g'.approvals id = some approval → False :=
      fun g' hg' hrow => by
        have hagree : asked.taskId = approval.taskId :=
          hl'.approvals.agrees g (List.mem_append_left _ hg) g' hg' id asked approval hasked hrow
        rw [hagree] at howns
        obtain rfl := hl.owners g hg h hl.here _ ownerId owner howns howner
        exact hspares.user (by rw [hcall]; rfl)
    exact ⟨fun hrow => (hcontra h' hl'.here hrow).elim,
      fun hrow => (hcontra h (List.mem_append_left _ hl.here) hrow).elim⟩
  · refine ⟨fun hrow => absurd (hrow.symm.trans hgone) (Option.some_ne_none _), fun hrow => ?_⟩
    obtain ⟨task, server, hstored, hserver, howns⟩ := ownerOf_some (r := h.rows) howner
    rw [← hon approval hrow task hstored] at hsaw hcall
    exact absurd ⟨server, hserver, howns⟩ (hspares.server hl hwithin hcall hsaw hl.here)

/-- **A write of a call that spares an owner leaves the rows of the owner alone.** -/
theorem Write.same_for : Rows.SameFor owner h.rows h'.rows where
  tasks := by
    funext id
    refine Option.ext fun task => ?_
    simp only [Rows.tasksOf, Option.filter_eq_some_iff, beq_iff_eq, Hub.rows_ownerOf,
      Write.spares_owner hl hwithin hspares hw hl']
    refine and_congr_left fun howner => ?_
    rw [show h'.rows.tasks id = h.rows.tasks id from
      Write.spares_task hl hwithin hspares hw hl' howner]
  attempts := by
    funext id
    refine Option.ext fun attempt => ?_
    simp only [Rows.attemptsOf, Option.filter_eq_some_iff, beq_iff_eq, Hub.rows_ownerOf,
      Write.spares_owner hl hwithin hspares hw hl']
    exact and_congr_left fun howner => Write.spares_attempt hl hwithin hspares hw hl' howner
  approvals := by
    funext id
    refine Option.ext fun approval => ?_
    simp only [Rows.approvalsOf, Option.filter_eq_some_iff, beq_iff_eq, Hub.rows_ownerOf,
      Write.spares_owner hl hwithin hspares hw hl']
    exact and_congr_left fun howner => Write.spares_approval hl hwithin hspares hw hl' howner

end Spares

/-- **What a call does leaves the rows of an owner alone that it spares.** -/
theorem Deed.same_for (hl : Archive seen h) (hwithin : Within past seen)
    (hspares : call.Spares seen owner) (hdeed : Deed env call past h h') :
    Rows.SameFor owner h.rows h'.rows := by
  cases hdeed with
  | quiet hrows =>
      rw [hrows]
      exact .refl owner _
  | notified _ hrows =>
      rw [hrows]
      exact .refl owner _
  | wrote hwritten _ hkept =>
      exact Write.same_for hl hwithin hspares hwritten (hl.written hwithin hwritten hkept)

/-- A request writes to no server of another user. -/
theorem Write.same_servers {user : UserId} (hl : Archive seen h) (hwithin : Within past seen)
    (huser : call.user = some user) (hother : owner ≠ user)
    (hw : Write env call past h.rows r') : r'.serversOf owner = h.rows.serversOf owner := by
  cases hw with
  | serverAdded profiles howner =>
      funext id
      unfold Rows.serversOf
      dsimp only
      rw [Table.insert_apply]
      split
      · next heq =>
        rw [huser] at howner
        rw [heq, h.rows.servers.fresh _ le_rfl, Option.filter_some, if_neg]
        · rfl
        · intro howns
          exact hother ((Option.some.inj howner).trans (beq_iff_eq.mp howns)).symm
      · rfl
  | serverMarked hsignalled =>
      rcases hsignalled with ⟨socketId, ownerId, rfl, -⟩ | ⟨socketId, ownerId, rfl | rfl, -⟩ <;>
        cases huser
  | @serverDeleted ownerId serverId hcall hsaw =>
      funext id
      refine Option.ext fun server => ?_
      simp only [Rows.serversOf, Table.filter_apply, Option.filter_eq_some_iff, bne_iff_ne, ne_eq,
        beq_iff_eq, and_assoc]
      refine and_congr_right fun hrow => and_iff_right_of_imp fun howns => ?_
      rintro rfl
      obtain ⟨g, hg, hserver⟩ := hwithin.saw hsaw
      have hsame : ownerId = owner := hl.serverOf hg hl.here hserver ⟨server, hrow, howns⟩
      rw [hcall] at huser
      cases huser
      exact hother hsame.symm
  | _ => rfl

/-! ## Runs -/

/-- A request spares every other user. -/
theorem HubCall.spares_of_user {user : UserId} (huser : call.user = some user)
    (hother : owner ≠ user) : call.Spares seen owner where
  user heq := by
    rw [huser] at heq
    exact hother (Option.some.inj heq).symm
  reports ref selects taskId href := by
    cases call with
    | message => cases huser
    | _ => cases href
  queued := by
    rintro (⟨jobId, rfl⟩ | rfl) <;> cases huser

variable {n : ℕ} {detectors : Detectors} {F : Fleet n} {told : ℕ}

/-- **A message spares the owners who have not entrusted its daemon with anything.** -/
theorem Fleet.Trusted.spares (hF : F.Trusted env told seen) {i : ℕ} {served : Served n}
    {socketId : ℕ} {inbound : DaemonInbound} (hserved : F.calls[i]? = some served)
    (hcall : served.call = .message socketId inbound)
    (hkey : ∀ d runner, served.origin = some (d, runner) → ¬F.KeyOf env seen d owner) :
    served.call.Spares seen owner := by
  rw [hcall]
  refine ⟨nofun, fun ref selects taskId href hsel hof g hg howner => ?_, ?_⟩
  · have hinbound : inbound.ref = some ref := by cases inbound <;> exact href
    rcases hF.calls i served socketId inbound hserved hcall with
      hnone | ⟨d, runner, horigin, habout⟩
    · rw [hnone] at hinbound
      cases hinbound
    · obtain ⟨about, input, rfl, ownerId, hsubmitted, hhas⟩ := habout ref hinbound
      cases hsel
      obtain rfl : taskId = about := beq_iff_eq.mp hof
      obtain ⟨input', hsubmitted'⟩ := hF.tenanted.submitted hg howner
      obtain ⟨rfl, -⟩ := hF.tenanted.recorded.submitted_unique hsubmitted hsubmitted'
      exact hkey d runner horigin hhas
  · rintro (⟨jobId, heq⟩ | heq) <;> cases heq

/-- **Calls are isolated at every node.**  In whatever state a run has reached, the next node of a
request of a user leaves the servers, tasks, attempts and approvals of all other users as they
are; the next node of the handler of a message leaves the tasks, attempts and approvals of a user
as they are if the daemon that sent it has the key of no server of that user. -/
theorem Fleet.calls_isolated {F : Fleet n} (hstart : F.Initial) {actions : List (Action n)}
    (hruns : (fleetMachine n env detectors).Runs F actions) {i : ℕ} {served : Served n}
    (hlive : ((fleetMachine n env detectors).exec F actions).pool.live i = true)
    (hserved : ((fleetMachine n env detectors).exec F actions).calls[i]? = some served) :
    (∀ user owner, served.call.user = some user → owner ≠ user →
      Rows.SameFor owner ((fleetMachine n env detectors).exec F actions).hub.rows
          (((fleetMachine n env detectors).exec F actions).pool.step i).shared.rows ∧
        (((fleetMachine n env detectors).exec F actions).pool.step i).shared.rows.serversOf owner =
          ((fleetMachine n env detectors).exec F actions).hub.rows.serversOf owner) ∧
      ∀ socketId inbound owner, served.call = .message socketId inbound →
        (∀ d runner, served.origin = some (d, runner) →
          ¬((fleetMachine n env detectors).exec F actions).KeyOf env
            (((fleetMachine n env detectors).states F actions).map Fleet.hub) d owner) →
        Rows.SameFor owner ((fleetMachine n env detectors).exec F actions).hub.rows
          (((fleetMachine n env detectors).exec F actions).pool.step i).shared.rows := by
  have hlast := hstart.trusted_run hruns
  obtain ⟨found, thread, hfound, -, hwithin, hdeed⟩ := hlast.tenanted.recorded.deed hlive
  obtain rfl := Option.some.inj (hserved.symm.trans hfound)
  have harchive := hlast.tenanted.recorded.archive
  refine ⟨fun user owner huser hother => ⟨?_, ?_⟩, fun socketId inbound owner hcall hkey => ?_⟩
  · exact hdeed.same_for harchive hwithin (HubCall.spares_of_user huser hother)
  · cases hdeed with
    | quiet hrows => rw [hrows]
    | notified _ hrows => rw [hrows]
    | wrote hwritten => exact hwritten.same_servers harchive hwithin huser hother
  · exact hdeed.same_for harchive hwithin (hlast.spares hserved hcall hkey)

/-- User 0 submits a task: the first node of the request leaves the rows of user 1. -/
theorem Fleet.calls_isolated_submit :
    let F := (fleetMachine 1 Env.sample .silent).exec .sample
      [.call (.submit 0 ⟨0, .CODEX, sampleInput⟩)]
    Rows.SameFor 1 F.hub.rows (F.pool.step 0).shared.rows :=
  ((Fleet.calls_isolated Fleet.sample_initial (show (fleetMachine 1 Env.sample .silent).Runs .sample
    [.call (.submit 0 ⟨0, .CODEX, sampleInput⟩)] by decide) (by decide) rfl).1
      0 1 rfl
      (by decide)).1

end CodeCaller
