import CodeCaller.Hub.ApprovalRuns
import CodeCaller.Library.Pool

/-!
# Concurrent decisions on one approval

`decide` reads the approval, checks that it is pending, and updates it by its id alone: between the
query and the update another call can pass the same check.  A pool of `decide` calls on one
approval agrees exactly when that does not happen: no call of the owner runs its query while
another one is between its query and its update.

The call that passes the check runs as if it were alone (`Progress`), because every other call is
refused by its first node; so the final state is the one `decide_run` describes.

### The pieces

* `DecisionPool.Exclusive`: the condition on a schedule, on the state and the pasts at each of its
  steps.  It does not speak of what the calls come to.
* `DecisionPool.Agreed`: at most one call succeeded, and the approval, the task and the messages
  are as it decided.
* `Contest`: what a pool looks like under an exclusive schedule, with its winner, if there is one
  already.  `Contest.step` is one node, `Contest.agreed` the end.
* `Contest.disagrees`: at the first step that is not exclusive a second call passes the check, and
  from there on nothing can keep either from succeeding.  Hence the equivalence.
-/

namespace CodeCaller

open Async

/-- A call of `decide`: its user and the decision. -/
structure Decision where
  ownerId : UserId
  dto : DecideApprovalDto

namespace Decision

/-- The call on an approval. -/
def program (env : Env) (approvalId : ApprovalId) (d : Decision) :
    HubM (ApprovalId × Approval) :=
  ApprovalsService.decide env d.ownerId approvalId d.dto

/-- What is left of a call that has updated the approval. -/
def resolve (env : Env) (approvalId : ApprovalId) (d : Decision) (taskId : TaskId)
    (serverId : ServerId) (updatedApproval : Approval) : HubM (ApprovalId × Approval) := do
  let _ ← Prisma.taskUpdate env taskId fun row =>
    { row with status := if d.dto.approve then .RUNNING else .CANCELLED }
  tryCatch
    (RealtimeService.dispatchToServer serverId
      (.APPROVAL_DECISION taskId d.dto.approve d.dto.reason))
    (fun _ => pure ())
  RealtimeService.notifyUser d.ownerId (.APPROVAL_RESOLVED approvalId updatedApproval)
  return (approvalId, updatedApproval)

/-- What is left of a call that passed the checks and read the clock. -/
def commit (env : Env) (approvalId : ApprovalId) (d : Decision) (taskId : TaskId)
    (serverId : ServerId) (date : Time) : HubM (ApprovalId × Approval) := do
  let updatedApproval ← Prisma.approvalUpdate approvalId (Approval.decided d.dto date)
  d.resolve env approvalId taskId serverId updatedApproval

end Decision

/-- A pool of `decide` calls. -/
abbrev DecisionPool := Pool Hub HubError (ApprovalId × Approval)

/-- Pools of `decide` calls under schedules. -/
abbrev decisionMachine : Machine DecisionPool ℕ :=
  Pool.machine Hub HubError (ApprovalId × Approval)

/-- The calls on one approval before any of them runs. -/
def decisionPool (env : Env) (h : Hub) (approvalId : ApprovalId) (decisions : List Decision) :
    DecisionPool :=
  Pool.start h (decisions.map (Decision.program env approvalId))

/-- Whether a call has passed its checks and not updated the approval yet: it ran
its query, or its query and its reading of the clock, and goes on. -/
def DecisionPool.undecided (P : DecisionPool) (i : ℕ) : Bool :=
  P.live i && P.threads[i]?.any fun thread => thread.past.length == 1 || thread.past.length == 2

/-- **The condition on a schedule**: where a call of the owner runs its query, no
call is between its query and its update. -/
def DecisionPool.Exclusive (ownerId : UserId) (decisions : List Decision) (P : DecisionPool)
    (i : ℕ) : Prop :=
  (P.threads[i]?.map (·.past.length)) = some 0 →
    (decisions[i]?.map (·.ownerId)) = some ownerId →
    ∀ j < P.threads.length, DecisionPool.undecided P j = false

instance (ownerId : UserId) (decisions : List Decision) (P : DecisionPool) (i : ℕ) :
    Decidable (DecisionPool.Exclusive ownerId decisions P i) :=
  inferInstanceAs (Decidable ((P.threads[i]?.map (·.past.length)) = some 0 →
    (decisions[i]?.map (·.ownerId)) = some ownerId →
    ∀ j < P.threads.length, DecisionPool.undecided P j = false))

/-- **Decisions agree**: one call at most succeeded, and the approval, its task and
every message sent since are as that call decided. -/
structure DecisionPool.Agreed (h : Hub) (approvalId : ApprovalId) (taskId : TaskId)
    (decisions : List Decision) (P : DecisionPool) : Prop where
  once : ∀ i j first second, P.outcome? i = some (.ok first) →
    P.outcome? j = some (.ok second) → i = j
  agree : ∀ (i : ℕ) (d : Decision) answer, decisions[i]? = some d →
    P.outcome? i = some (.ok answer) →
    (P.shared.approvals approvalId).map (·.status) =
        some (if d.dto.approve then .APPROVED else .REJECTED) ∧
      (P.shared.tasks taskId).map (·.status) =
        some (if d.dto.approve then .RUNNING else .CANCELLED) ∧
      ∃ sent, P.shared.emitted = h.emitted ++ sent ∧ ∀ emission ∈ sent,
        emission.message = .APPROVAL_DECISION taskId d.dto.approve d.dto.reason

section Calls

variable {env : Env} {h : Hub} {approvalId : ApprovalId} {d : Decision}

/-! ## One call -/

/-- The query of a call that may decide. -/
theorem Decision.step_accepted {approval : Approval} {task : Task}
    (happroval : h.approvals approvalId = some approval) (hpending : approval.status = .PENDING)
    (htask : h.tasks approval.taskId = some task)
    (howner : h.ownerOf approval.taskId = some d.ownerId) :
    (d.program env approvalId).step? h =
      some (now env >>= d.commit env approvalId approval.taskId task.serverId, h) := by
  obtain ⟨task', server, htask', hserver, hsame⟩ := ownerOf_some (r := h.rows) howner
  obtain rfl : task = task' := Option.some.inj (htask.symm.trans htask')
  have hfound : ApprovalsService.approvalWithTask h approvalId = some (approval, task, server) := by
    unfold ApprovalsService.approvalWithTask Hub.taskWithServer
    rw [happroval, Option.bind_some, htask, Option.bind_some,
      show h.servers task.serverId = some server from hserver]
    rfl
  unfold Decision.program ApprovalsService.decide
  refine (Proc.step?_bind (q := .ret (ApprovalsService.approvalWithTask h approvalId)) rfl).trans ?_
  rw [hfound]
  refine congrArg (fun p => some (p, h)) ?_
  change (if server.ownerId ≠ d.ownerId then _ else _) = _
  rw [if_neg (not_not.mpr hsame), if_neg (not_not.mpr hpending)]
  rfl

/-- The query of a call that may not. -/
theorem Decision.step_refused (hnot : ¬h.CanDecide d.ownerId approvalId) :
    ∃ error, (d.program env approvalId).step? h = some (.fail error, h) := by
  unfold Decision.program ApprovalsService.decide
  rw [Proc.step?_bind (q := .ret (ApprovalsService.approvalWithTask h approvalId)) rfl]
  cases hfound : ApprovalsService.approvalWithTask h approvalId with
  | none => exact ⟨_, rfl⟩
  | some found =>
      obtain ⟨approval, task, server⟩ := found
      obtain ⟨happroval, htask, hserver⟩ := approvalWithTask_some hfound
      by_cases hforeign : server.ownerId ≠ d.ownerId
      · exact ⟨_, congrArg (fun p => some (p, h)) (if_pos hforeign)⟩
      · by_cases hdecided : approval.status ≠ .PENDING
        · refine ⟨_, congrArg (fun p => some (p, h)) ((if_neg hforeign).trans (if_pos hdecided))⟩
        · refine absurd ⟨approval, happroval, not_not.mp hdecided, ?_⟩ hnot
          rw [← not_not.mp hforeign]
          exact ownerOf_of_rows (r := h.rows) htask hserver

/-- The update of a call that passed the checks. -/
theorem Decision.step_commit {taskId : TaskId} {serverId : ServerId} {date : Time}
    {approval : Approval} (happroval : h.approvals approvalId = some approval) :
    (d.commit env approvalId taskId serverId date).step? h =
      some (d.resolve env approvalId taskId serverId (approval.decided d.dto date), { h with
        approvals := h.approvals.modify approvalId (Approval.decided d.dto date) }) := by
  have hnode : (Prisma.approvalUpdate approvalId (Approval.decided d.dto date)).step? h =
      some (.ret (approval.decided d.dto date), { h with
        approvals := h.approvals.modify approvalId (Approval.decided d.dto date) }) :=
    Proc.step?_atomically (approvalUpdate_run happroval)
  exact (Proc.step?_bind hnode).trans rfl

/-- The rest of the call changes its task and sends. -/
theorem Decision.resolve_guarantees {G : Hub → Hub → Prop} {taskId : TaskId}
    {serverId : ServerId} {updatedApproval : Approval} (refl : ∀ h, G h h)
    (htask : ∀ h f reads, G h { h with tasks := h.tasks.modify taskId f, reads })
    (hsent : ∀ h emitted notified, G h { h with emitted, notified }) :
    (d.resolve env approvalId taskId serverId updatedApproval).Guarantees G := by
  unfold Decision.resolve
  refine Proc.Guarantees.bind (Proc.guarantees_atomically fun h => ?_) fun _ =>
    Proc.Guarantees.bind (Proc.Guarantees.tryCatch ?_ fun _ => Proc.guarantees_pure _) fun _ =>
    Proc.Guarantees.bind (Proc.guarantees_modify fun h => hsent h _ _) fun _ =>
      Proc.guarantees_pure _
  · cases h.tasks taskId with
    | none => exact refl h
    | some task =>
        dsimp only
        split
        · exact refl h
        · exact htask h _ _
  · refine (Proc.guarantees_read refl _).bind fun online => ?_
    exact Proc.Guarantees.ite (fun _ => Proc.guarantees_throw _) fun _ =>
      Proc.guarantees_modify fun h => hsent h _ _

/-- No approval and no task is added or deleted. -/
def SameKeys (h h' : Hub) : Prop :=
  (∀ id, (h'.approvals id).isSome = (h.approvals id).isSome) ∧
    ∀ id, (h'.tasks id).isSome = (h.tasks id).isSome

/-- The protocol of a call that keeps the rows, and its success. -/
abbrev keepsKeys : Unit → (Hub → Hub) → Hub → Unit → Prop :=
  Proc.moves fun _ s s' _ => SameKeys s s'

abbrev Succeeds (_ : Unit) (_ : Hub) (outcome : Except HubError (ApprovalId × Approval)) : Prop :=
  ∃ answer, outcome = .ok answer

theorem SameKeys.refl (h : Hub) : SameKeys h h := ⟨fun _ => rfl, fun _ => rfl⟩

theorem SameKeys.trans {h₁ h₂ h₃ : Hub} (h₁₂ : SameKeys h₁ h₂) (h₂₃ : SameKeys h₂ h₃) :
    SameKeys h₁ h₃ :=
  ⟨fun id => (h₂₃.1 id).trans (h₁₂.1 id), fun id => (h₂₃.2 id).trans (h₁₂.2 id)⟩

/-- The rest of a call adds and deletes nothing. -/
theorem Decision.commit_keys {taskId : TaskId} {serverId : ServerId} {date : Time} :
    (d.commit env approvalId taskId serverId date).Guarantees SameKeys := by
  refine Proc.Guarantees.bind (Proc.guarantees_atomically fun h => ?_) fun _ =>
    Decision.resolve_guarantees SameKeys.refl
      (fun h f _ => ⟨fun _ => rfl, Table.isSome_modify h.tasks taskId f⟩)
      fun h _ _ => SameKeys.refl h
  cases h.approvals approvalId with
  | none => exact SameKeys.refl h
  | some approval => exact ⟨Table.isSome_modify h.approvals approvalId _, fun _ => rfl⟩

/-- Nor does the whole call. -/
theorem Decision.program_keys : (d.program env approvalId).Guarantees SameKeys := by
  unfold Decision.program ApprovalsService.decide
  refine (Proc.guarantees_read SameKeys.refl _).bind fun found => ?_
  cases found with
  | none => exact Proc.guarantees_throw _
  | some found =>
      refine Proc.Guarantees.ite (fun _ => Proc.guarantees_throw _) fun _ =>
        Proc.Guarantees.ite (fun _ => Proc.guarantees_throw _) fun _ => ?_
      exact Proc.Guarantees.bind (Proc.guarantees_take fun h => SameKeys.refl h) fun date =>
        Decision.commit_keys

/-- **How far the call that passed the checks has come**: it runs as if it were
alone. -/
inductive Progress (env : Env) (h : Hub) (approvalId : ApprovalId) (approval : Approval)
    (task : Task) (d : Decision) : Thread Hub HubError (ApprovalId × Approval) → Hub → Prop where
  | checked (past : List (Hub × Hub)) (hlength : past.length = 1) :
      Progress env h approvalId approval task d
        ⟨now env >>= d.commit env approvalId approval.taskId task.serverId, past⟩ h
  | timed (past : List (Hub × Hub)) (hlength : past.length = 2) :
      Progress env h approvalId approval task d
        ⟨d.commit env approvalId approval.taskId task.serverId (env.clock h.reads), past⟩
        { h with reads := h.reads + 1 }
  | decided {program : HubM (ApprovalId × Approval)} (past : List (Hub × Hub)) {shared : Hub}
      (hlength : 3 ≤ past.length)
      (hrun : program.run shared = (d.program env approvalId).run h)
      (happroval : shared.approvals approvalId =
        some (approval.decided d.dto (env.clock h.reads)))
      (hkeeps : program.Guarantees fun h h' => h'.approvals = h.approvals) :
      Progress env h approvalId approval task d ⟨program, past⟩ shared

section Progress

variable {approval : Approval} {task : Task} {thread : Thread Hub HubError (ApprovalId × Approval)}
  {shared : Hub}

/-- Whatever is left of the call, its outcome is that of the whole call alone. -/
theorem Progress.run (happroval : h.approvals approvalId = some approval)
    (hpending : approval.status = .PENDING) (htask : h.tasks approval.taskId = some task)
    (howner : h.ownerOf approval.taskId = some d.ownerId)
    (hprogress : Progress env h approvalId approval task d thread shared) :
    thread.program.run shared = (d.program env approvalId).run h := by
  have hchecked := Proc.run_of_step?
    (@Decision.step_accepted env _ _ _ _ _ happroval hpending htask howner)
  cases hprogress with
  | checked past hlength => exact hchecked
  | timed past hlength => exact (Proc.run_of_step? rfl).trans hchecked
  | decided past hlength hrun => exact hrun

/-- The call that passed the checks has not written yet, or the approval is
decided. -/
theorem Progress.open_or_decided
    (hprogress : Progress env h approvalId approval task d thread shared) :
    ((thread.program.outcome?.isNone &&
        (thread.past.length == 1 || thread.past.length == 2)) = true ∧
      shared.approvals = h.approvals ∧ ∀ taskId, shared.ownerOf taskId = h.ownerOf taskId) ∨
    ∃ decided, shared.approvals approvalId = some decided ∧ decided.status ≠ .PENDING := by
  cases hprogress with
  | checked past hone => exact .inl ⟨by rw [hone]; rfl, rfl, fun _ => rfl⟩
  | timed past htwo => exact .inl ⟨by rw [htwo]; rfl, rfl, fun _ => rfl⟩
  | decided past _ _ hdecided =>
      refine .inr ⟨_, hdecided, ?_⟩
      change (if d.dto.approve = true then ApprovalStatus.APPROVED else .REJECTED) ≠ .PENDING
      split <;> exact nofun

/-- The call that passed the checks makes progress. -/
theorem Progress.step (happroval : h.approvals approvalId = some approval)
    (hpending : approval.status = .PENDING) (htask : h.tasks approval.taskId = some task)
    (howner : h.ownerOf approval.taskId = some d.ownerId)
    (hprogress : Progress env h approvalId approval task d thread shared)
    {program : HubM (ApprovalId × Approval)} {shared' : Hub}
    (hnode : thread.program.step? shared = some (program, shared')) :
    Progress env h approvalId approval task d
      ⟨program, thread.past ++ [(shared, shared')]⟩ shared' := by
  have hrun : program.run shared' = (d.program env approvalId).run h :=
    (Proc.run_of_step? hnode).trans (hprogress.run happroval hpending htask howner)
  have hlength : (thread.past ++ [(shared, shared')]).length = thread.past.length + 1 := by simp
  cases hprogress with
  | checked past hone =>
      cases hnode
      exact .timed _ (by rw [hlength, hone])
  | timed past htwo =>
      rw [@Decision.step_commit _ { h with reads := h.reads + 1 } _ _ _ _ _ _ happroval] at hnode
      cases hnode
      refine .decided _ (by rw [hlength, htwo]) hrun ?_ ?_
      · rw [Table.modify_apply, if_pos rfl, show h.approvals approvalId = some approval from
          happroval]
        rfl
      · exact Decision.resolve_guarantees (fun _ => rfl) (fun _ _ _ => rfl) fun _ _ _ => rfl
  | decided past hthree _ hdecided hkeeps =>
      obtain ⟨hsame, hrest⟩ := hkeeps.step hnode
      refine .decided _ (by rw [hlength]; exact Nat.le_succ_of_le hthree) hrun ?_ hrest
      rw [hsame]
      exact hdecided

end Progress

end Calls

/-! ## The pool -/

/-- **What a pool of decisions looks like** while its schedule is exclusive: every
call but the winner has not started, or was refused. -/
structure Contest (env : Env) (h : Hub) (approvalId : ApprovalId) (approval : Approval)
    (task : Task) (ownerId : UserId) (decisions : List Decision) (winner : Option ℕ)
    (P : DecisionPool) : Prop where
  length : P.threads.length = decisions.length
  others : ∀ (i : ℕ) (d : Decision) thread, winner ≠ some i → decisions[i]? = some d →
    P.threads[i]? = some thread →
    thread = ⟨d.program env approvalId, []⟩ ∨ ∃ error, thread.program = .fail error
  before : winner = none → P.shared = h
  after : ∀ i, winner = some i → ∃ d thread, decisions[i]? = some d ∧ d.ownerId = ownerId ∧
    P.threads[i]? = some thread ∧ Progress env h approvalId approval task d thread P.shared

section Pool

variable {env : Env} {h : Hub} {approvalId : ApprovalId} {approval : Approval} {task : Task}
  {ownerId : UserId} {decisions : List Decision} {winner : Option ℕ} {P : DecisionPool} {i : ℕ}

/-- At the beginning nobody has started, and nobody has won. -/
theorem contest_start :
    Contest env h approvalId approval task ownerId decisions none
      (decisionPool env h approvalId decisions) where
  length := by simp [decisionPool, Pool.start]
  others i d thread _ hd hthread := by
    unfold decisionPool Pool.start at hthread
    simp only [List.map_map, List.getElem?_map, hd, Option.map_some, Option.some.injEq] at hthread
    exact .inl hthread.symm
  before _ := rfl
  after i hi := by cases hi

/-- A call of the pool that is live and not the winner has not started. -/
theorem Contest.fresh (hcontest : Contest env h approvalId approval task ownerId decisions winner P)
    (hother : winner ≠ some i) (hlive : P.live i = true) :
    ∃ d : Decision, decisions[i]? = some d ∧
      P.threads[i]? = some ⟨d.program env approvalId, []⟩ := by
  obtain ⟨thread, hthread, hopen⟩ := Pool.live_iff.mp hlive
  obtain ⟨hlt, -⟩ := List.getElem?_eq_some_iff.mp hthread
  rw [hcontest.length] at hlt
  have hd : decisions[i]? = some decisions[i] := List.getElem?_eq_getElem hlt
  refine ⟨decisions[i], hd, ?_⟩
  rcases hcontest.others i _ thread hother hd hthread with rfl | ⟨error, hfail⟩
  · exact hthread
  · rw [hfail] at hopen
    cases hopen

/-- A call that the schedule runs exclusively, and that does not win, is refused. -/
theorem Contest.refuses (happroval : h.approvals approvalId = some approval)
    (howner : h.ownerOf approval.taskId = some ownerId)
    (hcontest : Contest env h approvalId approval task ownerId decisions winner P) {d : Decision}
    (hd : decisions[i]? = some d) (hthread : P.threads[i]? = some ⟨d.program env approvalId, []⟩)
    (hexclusive : DecisionPool.Exclusive ownerId decisions P i)
    (hloses : ¬(winner = none ∧ d.ownerId = ownerId)) :
    ¬P.shared.CanDecide d.ownerId approvalId := by
  rintro ⟨found, hfound, hpending, hof⟩
  cases hwinner : winner with
  | none =>
      rw [hcontest.before hwinner] at hfound hof
      obtain rfl : approval = found := Option.some.inj (happroval.symm.trans hfound)
      exact hloses ⟨hwinner, Option.some.inj (hof.symm.trans howner)⟩
  | some w =>
      obtain ⟨d', thread, -, -, hw, hprogress⟩ := hcontest.after w hwinner
      rcases hprogress.open_or_decided with ⟨hopen, happrovals, hof'⟩ | ⟨decided, hdecided, hnot⟩
      · -- the winner is between its query and its update: the call is of another user
        rw [happrovals] at hfound
        obtain rfl : approval = found := Option.some.inj (happroval.symm.trans hfound)
        have hsame : d.ownerId = ownerId := Option.some.inj
          (hof.symm.trans ((hof' _).trans howner))
        obtain ⟨hlt, -⟩ := List.getElem?_eq_some_iff.mp hw
        have hfree := hexclusive (by rw [hthread]; rfl) (by rw [hd, ← hsame]; rfl) w hlt
        unfold DecisionPool.undecided Pool.live at hfree
        rw [hw] at hfree
        exact absurd hopen (Bool.eq_false_iff.mp hfree)
      · obtain rfl : decided = found := Option.some.inj (hdecided.symm.trans hfound)
        exact hnot hpending

/-- **One node of an exclusive schedule**: the winner makes progress, another call
is refused, or a call of the owner wins. -/
theorem Contest.step (happroval : h.approvals approvalId = some approval)
    (hpending : approval.status = .PENDING) (htask : h.tasks approval.taskId = some task)
    (howner : h.ownerOf approval.taskId = some ownerId)
    (hcontest : Contest env h approvalId approval task ownerId decisions winner P)
    (hlive : P.live i = true) (hexclusive : DecisionPool.Exclusive ownerId decisions P i) :
    ∃ winner', Contest env h approvalId approval task ownerId decisions winner' (P.step i) := by
  by_cases hwinner : winner = some i
  · -- the winner goes on: for the others nothing changes
    obtain ⟨d, thread, hd, hof, hthread, hprogress⟩ := hcontest.after i hwinner
    subst hof
    obtain ⟨thread', program, shared, hthread', hnode, -⟩ := Pool.step_of_live hlive
    obtain rfl : thread = thread' := Option.some.inj (hthread.symm.trans hthread')
    obtain ⟨hshared, hself⟩ := Pool.step_self hthread hnode
    refine ⟨winner, ⟨Pool.step_length.trans hcontest.length, fun j d' other hj hd' hother => ?_,
      fun hnone => ?_, fun j hj => ?_⟩⟩
    · have hne : j ≠ i := fun heq => hj (hwinner.trans (congrArg some heq.symm))
      rw [Pool.step_other hne] at hother
      exact hcontest.others j d' other hj hd' hother
    · rw [hwinner] at hnone
      cases hnone
    · obtain rfl : i = j := Option.some.inj (hwinner.symm.trans hj)
      refine ⟨d, _, hd, rfl, hself, ?_⟩
      rw [hshared]
      exact hprogress.step happroval hpending htask howner hnode
  · -- another call has not started yet, as the schedule is exclusive
    obtain ⟨d, hd, hthread⟩ := hcontest.fresh hwinner hlive
    by_cases hwins : winner = none ∧ d.ownerId = ownerId
    · obtain ⟨hnone, hof⟩ := hwins
      have hbefore := hcontest.before hnone
      subst hof hbefore
      obtain ⟨hshared, hself⟩ := Pool.step_self hthread
        (Decision.step_accepted happroval hpending htask howner)
      refine ⟨some i, ⟨Pool.step_length.trans hcontest.length, fun j d' other hj hd' hother => ?_,
        nofun, fun j hj => ?_⟩⟩
      · have hne : j ≠ i := fun heq => hj (congrArg some heq.symm)
        rw [Pool.step_other hne] at hother
        exact hcontest.others j d' other (by rw [hnone]; exact nofun) hd' hother
      · obtain rfl : i = j := Option.some.inj hj
        refine ⟨d, _, hd, rfl, hself, ?_⟩
        rw [hshared]
        exact .checked _ rfl
    · -- it is too late, or not of the owner: it ends at its first node
      obtain ⟨error, hnode⟩ := @Decision.step_refused env _ _ d
        (hcontest.refuses happroval howner hd hthread hexclusive hwins)
      obtain ⟨hshared, hself⟩ := Pool.step_self hthread hnode
      refine ⟨winner, ⟨Pool.step_length.trans hcontest.length, fun j d' other hj hd' hother => ?_,
        fun hnone => hshared.trans (hcontest.before hnone), fun j hj => ?_⟩⟩
      · by_cases heq : j = i
        · subst heq
          rw [hself, Option.some.injEq] at hother
          exact .inr ⟨error, congrArg Thread.program hother.symm⟩
        · rw [Pool.step_other heq] at hother
          exact hcontest.others j d' other hj hd' hother
      · have hne : j ≠ i := fun heq => hwinner (hj.trans (congrArg some heq))
        obtain ⟨d', thread, hd', hof, hthread', hprogress⟩ := hcontest.after j hj
        refine ⟨d', thread, hd', hof, ?_, ?_⟩
        · rw [Pool.step_other hne]
          exact hthread'
        · rw [hshared]
          exact hprogress

/-- A finished pool of one winner agrees. -/
theorem Contest.agreed (happroval : h.approvals approvalId = some approval)
    (hpending : approval.status = .PENDING) (htask : h.tasks approval.taskId = some task)
    (howner : h.ownerOf approval.taskId = some ownerId)
    (hcontest : Contest env h approvalId approval task ownerId decisions winner P) :
    DecisionPool.Agreed h approvalId approval.taskId decisions P := by
  have hwins : ∀ i answer, P.outcome? i = some (.ok answer) → winner = some i := by
    intro i answer houtcome
    obtain ⟨thread, hthread, hended⟩ := Option.bind_eq_some_iff.mp houtcome
    obtain ⟨hlt, -⟩ := List.getElem?_eq_some_iff.mp hthread
    rw [hcontest.length] at hlt
    by_contra hother
    rcases hcontest.others i _ thread hother (List.getElem?_eq_getElem hlt) hthread with
      rfl | ⟨error, hfail⟩
    · cases hended
    · rw [hfail] at hended
      cases hended
  constructor
  · intro i j first second hi hj
    exact Option.some.inj ((hwins i _ hi).symm.trans (hwins j _ hj))
  · intro i d answer hd houtcome
    obtain ⟨d', thread, hd', rfl, hthread, hprogress⟩ := hcontest.after i (hwins i _ houtcome)
    obtain rfl : d = d' := Option.some.inj (hd.symm.trans hd')
    unfold Pool.outcome? at houtcome
    rw [hthread] at houtcome
    obtain ⟨h', hrun, hrows⟩ := @decide_run env h _ _ d.dto _ _ happroval hpending htask howner
    have hend := (Proc.run_of_outcome? houtcome).symm.trans
      ((hprogress.run happroval hpending htask howner).trans hrun)
    obtain rfl : P.shared = h' := congrArg Prod.snd hend
    refine ⟨?_, ?_, _, congrArg Rows.emitted hrows, ?_⟩
    · rw [show P.shared.approvals = _ from congrArg Rows.approvals hrows, Table.modify_apply,
        if_pos rfl, happroval]
      rfl
    · rw [show P.shared.tasks = _ from congrArg Rows.tasks hrows, Table.modify_apply,
        if_pos rfl, htask]
      rfl
    · intro emission hsent
      split at hsent
      · obtain rfl := List.mem_singleton.mp hsent
        rfl
      · cases hsent

/-! ## Two calls that pass the checks -/

/-- A call that passed the checks succeeds, whatever the others do to the rows that
are there. -/
theorem commit_succeeds {d : Decision} {taskId : TaskId} {serverId : ServerId}
    (happroval : (h.approvals approvalId).isSome = true) (htask : (h.tasks taskId).isSome = true)
    {date : Time} :
    (d.commit env approvalId taskId serverId date).Follows SameKeys
      keepsKeys Succeeds
      () h := by
  unfold Decision.commit Decision.resolve
  refine .bind SameKeys.refl (Proc.follows_atomically_moves fun h₁ h₀₁ => ?_)
  obtain ⟨found, hfound⟩ := Option.isSome_iff_exists.mp ((h₀₁.1 approvalId).trans happroval)
  have hupdate : SameKeys h₁ { h₁ with
      approvals := h₁.approvals.modify approvalId (Approval.decided d.dto date) } :=
    ⟨Table.isSome_modify _ _ _, fun _ => rfl⟩
  refine ⟨(), _, _, approvalUpdate_run hfound, hupdate, fun h₂ h₁₂ => ?_⟩
  refine .bind SameKeys.refl (Proc.follows_atomically_moves fun h₃ h₂₃ => ?_)
  have h₀₃ := (h₀₁.trans hupdate).trans (h₁₂.trans h₂₃)
  obtain ⟨stored, hstored⟩ := Option.isSome_iff_exists.mp ((h₀₃.2 taskId).trans htask)
  refine ⟨(), _, _, taskUpdate_run hstored rfl, ⟨fun _ => rfl, Table.isSome_modify _ _ _⟩,
    fun h₄ _ => ?_⟩
  -- the rest sends, and does not throw
  refine .bind SameKeys.refl (.tryCatch SameKeys.refl (.bind SameKeys.refl ?_))
  refine Proc.follows_read fun h₅ _ => ⟨(), SameKeys.refl h₅, fun h₆ _ => ?_⟩
  have hnotify : ∀ s, (do
      RealtimeService.notifyUser d.ownerId
        (.APPROVAL_RESOLVED approvalId (found.decided d.dto date))
      return (approvalId, found.decided d.dto date) : HubM (ApprovalId × Approval)).Follows SameKeys
        keepsKeys
        Succeeds () s := fun s =>
    Proc.Follows.bind SameKeys.refl (Proc.follows_modify fun s' _ =>
      ⟨(), SameKeys.refl s', fun _ _ => Proc.follows_pure fun _ _ => ⟨_, rfl⟩⟩)
  exact .ite (fun _ => Proc.follows_throw fun _ _ => Proc.follows_pure fun s _ => hnotify s)
    fun _ => Proc.follows_modify fun h₇ _ => ⟨(), SameKeys.refl h₇, fun s _ => hnotify s⟩

/-- What a call that passed the checks starts with: it reads the clock. -/
theorem accepted_succeeds {d : Decision} {taskId : TaskId} {serverId : ServerId}
    (happroval : (h.approvals approvalId).isSome = true)
    (htask : (h.tasks taskId).isSome = true) :
    (now env >>= d.commit env approvalId taskId serverId).Follows SameKeys
      keepsKeys Succeeds
      () h :=
  .bind SameKeys.refl (Proc.follows_take fun h₁ h₀₁ =>
    ⟨(), SameKeys.refl h₁, fun _ h₁₂ => commit_succeeds
      (((h₀₁.trans h₁₂).1 approvalId).trans happroval) (((h₀₁.trans h₁₂).2 taskId).trans htask)⟩)

/-- Before the winner's update, its success is certain and another call of the
owner passes the checks as well. -/
theorem Progress.opens (happroval : h.approvals approvalId = some approval)
    (hpending : approval.status = .PENDING) (htask : h.tasks approval.taskId = some task)
    (howner : h.ownerOf approval.taskId = some ownerId) {d : Decision}
    {thread : Thread Hub HubError (ApprovalId × Approval)} {shared : Hub}
    (hprogress : Progress env h approvalId approval task d thread shared)
    (hlength : (thread.past.length == 1 || thread.past.length == 2) = true) :
    SameKeys h shared ∧
      thread.program.Follows SameKeys keepsKeys
        Succeeds () shared ∧
      ∀ other : Decision, other.ownerId = ownerId →
        (other.program env approvalId).step? shared =
          some (now env >>= other.commit env approvalId approval.taskId task.serverId, shared) := by
  have hasked : (h.approvals approvalId).isSome = true := by rw [happroval]; rfl
  have hstored : (h.tasks approval.taskId).isSome = true := by rw [htask]; rfl
  cases hprogress with
  | checked past =>
      refine ⟨SameKeys.refl h, accepted_succeeds hasked hstored, fun other hof => ?_⟩
      exact Decision.step_accepted happroval hpending htask (howner.trans (congrArg some hof.symm))
  | timed past =>
      refine ⟨⟨fun _ => rfl, fun _ => rfl⟩, ?_, fun other hof => ?_⟩
      · exact @commit_succeeds env { h with reads := h.reads + 1 } approvalId d approval.taskId
          task.serverId hasked hstored _
      · exact @Decision.step_accepted env { h with reads := h.reads + 1 } approvalId other approval
          task happroval hpending htask (howner.trans (congrArg some hof.symm))
  | decided past hthree =>
      simp only [Bool.or_eq_true, beq_iff_eq] at hlength
      omega

/-- **Two calls that pass the checks disagree**: both succeed. -/
theorem Contest.disagrees (happroval : h.approvals approvalId = some approval)
    (hpending : approval.status = .PENDING) (htask : h.tasks approval.taskId = some task)
    (howner : h.ownerOf approval.taskId = some ownerId)
    (hcontest : Contest env h approvalId approval task ownerId decisions winner P)
    (hlive : P.live i = true) (hraces : ¬DecisionPool.Exclusive ownerId decisions P i)
    {schedule : List ℕ}
    (hruns : decisionMachine.Runs (P.step i) schedule)
    (hfinished : (decisionMachine.exec (P.step i) schedule).finished = true) {taskId : TaskId} :
    ¬DecisionPool.Agreed h approvalId taskId decisions
      (decisionMachine.exec (P.step i) schedule) := by
  unfold DecisionPool.Exclusive at hraces
  push Not at hraces
  obtain ⟨hfresh, hof, j, hj, hopen⟩ := hraces
  obtain ⟨hopenj, hlengthj⟩ := Bool.and_eq_true_iff.mp (Bool.eq_true_of_not_eq_false hopen)
  -- the call in between is the winner
  obtain rfl : winner = some j := by
    by_contra hother
    obtain ⟨d, -, hthread⟩ := hcontest.fresh hother hopenj
    rw [hthread] at hlengthj
    cases hlengthj
  obtain ⟨first, thread, hfirst, hfirstof, hthread, hprogress⟩ := hcontest.after j rfl
  have hne : j ≠ i := by
    rintro rfl
    rw [hthread] at hfresh hlengthj
    rw [Option.map_some, Option.some.injEq] at hfresh
    rw [Option.any_some, hfresh] at hlengthj
    cases hlengthj
  obtain ⟨second, hsecond, hself⟩ := hcontest.fresh (fun heq => hne (Option.some.inj heq)) hlive
  rw [hsecond, Option.map_some, Option.some.injEq] at hof
  rw [hthread] at hlengthj
  obtain ⟨hkeys, hfollows, haccepts⟩ :=
    hprogress.opens happroval hpending htask howner hlengthj
  obtain ⟨hshared, hnext⟩ := Pool.step_self hself (haccepts second hof)
  have hasked : (h.approvals approvalId).isSome = true := by rw [happroval]; rfl
  have hstored : (h.tasks approval.taskId).isSome = true := by rw [htask]; rfl
  -- from here on the two calls run to success, whatever the others do
  have hpool : (P.step i).Follows SameKeys (fun _ => keepsKeys)
      (fun k _ _ outcome => k = i ∨ k = j → ∃ answer, outcome = .ok answer) fun _ => () := by
    intro k other hother
    rw [hshared]
    by_cases hki : k = i
    · subst hki
      rw [hnext, Option.some.injEq] at hother
      rw [← hother]
      exact (accepted_succeeds ((hkeys.1 _).trans hasked) ((hkeys.2 _).trans hstored)).mono
        fun _ _ _ h _ => h
    · rw [Pool.step_other hki] at hother
      by_cases hkj : k = j
      · subst hkj
        obtain rfl : thread = other := Option.some.inj (hthread.symm.trans hother)
        exact hfollows.mono fun _ _ _ h _ => h
      · obtain ⟨hlt, -⟩ := List.getElem?_eq_some_iff.mp hother
        rw [hcontest.length] at hlt
        have hkeeps : other.program.Guarantees SameKeys := by
          rcases hcontest.others k _ other (fun heq => hkj (Option.some.inj heq).symm)
            (List.getElem?_eq_getElem hlt) hother with rfl | ⟨error, hfail⟩
          · exact Decision.program_keys
          · rw [hfail]
            exact Proc.guarantees_throw error
        exact hkeeps.follows @SameKeys.trans (fun _ h s => ⟨h s, h s⟩)
          fun _ _ _ hk => absurd hk (not_or.mpr ⟨hki, hkj⟩)
  obtain ⟨_, hend, -⟩ := hpool.exec (I := fun _ _ => True) (C := fun _ _ => True) SameKeys.refl
    @SameKeys.trans (fun _ _ _ _ _ h => h) (fun _ _ _ _ _ _ _ _ _ _ _ => trivial) hruns
    (fun _ _ => trivial) trivial
  have hlength := @Pool.exec_length _ _ _ (P.step i) schedule
  obtain ⟨hlti, -⟩ := List.getElem?_eq_some_iff.mp hself
  rw [Pool.step_length] at hlength
  obtain ⟨outcome, hi, hsucceeds⟩ := hend.outcome SameKeys.refl hfinished (hlength ▸ hlti)
  obtain ⟨answer, rfl⟩ := hsucceeds (.inl rfl)
  obtain ⟨outcome', hj', hsucceeds'⟩ := hend.outcome SameKeys.refl hfinished (hlength ▸ hj)
  obtain ⟨answer', rfl⟩ := hsucceeds' (.inr rfl)
  exact fun hagreed => hne (hagreed.once j i _ _ hj' hi)

/-- **Concurrent decisions agree exactly under exclusive schedules**: where no call
of the owner runs its query while another call is between its query and its
update, one call at most succeeds and everything is as it decided; under every
other schedule two calls succeed. -/
theorem decisions_agree_iff (happroval : h.approvals approvalId = some approval)
    (hpending : approval.status = .PENDING)
    (howner : h.ownerOf approval.taskId = some ownerId) {schedule : List ℕ}
    (hruns : decisionMachine.Runs (decisionPool env h approvalId decisions) schedule)
    (hfinished : (decisionMachine.exec (decisionPool env h approvalId decisions)
      schedule).finished = true) :
    DecisionPool.Agreed h approvalId approval.taskId decisions
        (decisionMachine.exec (decisionPool env h approvalId decisions) schedule) ↔
      ∀ visit ∈ decisionMachine.visits (decisionPool env h approvalId decisions) schedule,
        DecisionPool.Exclusive ownerId decisions visit.1 visit.2 := by
  obtain ⟨task, -, htask, -, -⟩ := ownerOf_some (r := h.rows) howner
  have hstep : ∀ (P : DecisionPool) (i : ℕ),
      (∃ winner, Contest env h approvalId approval task ownerId decisions winner P) →
      P.live i = true → DecisionPool.Exclusive ownerId decisions P i →
      ∃ winner, Contest env h approvalId approval task ownerId decisions winner (P.step i) := by
    rintro P i ⟨winner, hcontest⟩ hlive hexclusive
    exact hcontest.step happroval hpending htask howner hlive hexclusive
  constructor
  · intro hagreed
    by_contra hraces
    obtain ⟨front, i, back, rfl, hfront, hrace⟩ := Machine.exists_first_visit hraces
    obtain ⟨hruns, hlive, hrest⟩ := by
      simpa only [Machine.runs_append, Machine.runs_cons] using hruns
    obtain ⟨winner, hcontest⟩ :=
      Machine.exec_invariant ⟨none, contest_start⟩ hstep hruns hfront
    rw [Machine.exec_append, Machine.exec_cons] at hfinished hagreed
    exact hcontest.disagrees happroval hpending htask howner hlive hrace hrest hfinished hagreed
  · intro hexclusive
    obtain ⟨winner, hcontest⟩ :=
      Machine.exec_invariant ⟨none, contest_start⟩ hstep hruns hexclusive
    exact hcontest.agreed happroval hpending htask howner

end Pool

/-- The calls that leave task 0 waiting for its owner, user 0. -/
def sampleWaiting : List HubCall :=
  sampleConnects ++ [.submit 0 ⟨0, .CODEX, sampleInput⟩, .dispatch 0,
    .message 0 (.APPROVAL_REQUEST ⟨.id 0, some (js "rm")⟩)]

/-- One after the other: the approval is accepted, the rejection that follows is
refused. -/
theorem decisions_agree_in_turn :
    let decisions : List Decision := [⟨0, ⟨true, none⟩⟩, ⟨0, ⟨false, none⟩⟩]
    let h := (hubMachine Env.sample HubCall.Typed).exec Hub.sample sampleWaiting
    DecisionPool.Agreed h 0 0 decisions
      (decisionMachine.exec (decisionPool Env.sample h 0 decisions) [0, 0, 0, 0, 0, 0, 0, 1]) := by
  intro decisions h
  obtain ⟨approval, happroval⟩ : ∃ approval, h.approvals 0 = some approval :=
    Option.isSome_iff_exists.mp (by decide)
  have hkept : (h.approvals 0).map (fun row => (row.status, row.taskId)) = some (.PENDING, 0) := by
    decide
  rw [happroval, Option.map_some, Option.some.injEq, Prod.mk.injEq] at hkept
  have howner : h.ownerOf approval.taskId = some 0 := by
    rw [hkept.2]
    decide
  have hagreed := (@decisions_agree_iff Env.sample h 0 approval 0 decisions happroval hkept.1
    howner [0, 0, 0, 0, 0, 0, 0, 1] (by decide) (by decide)).mpr
    (by decide)
  rw [hkept.2] at hagreed
  exact hagreed

/-- **A rejection overtakes an approval**: both calls find the approval pending, and
both succeed. -/
theorem decisions_disagree :
    let decisions : List Decision := [⟨0, ⟨true, none⟩⟩, ⟨0, ⟨false, none⟩⟩]
    let h := (hubMachine Env.sample HubCall.Typed).exec Hub.sample sampleWaiting
    let schedule := [0, 1, 0, 0, 0, 0, 0, 0, 1, 1, 1, 1, 1, 1]
    (hubMachine Env.sample HubCall.Typed).Reachable h ∧
      (h.approvals 0).map (fun row => (row.status, row.taskId)) = some (.PENDING, 0) ∧
      (h.tasks 0).map (·.status) = some .AWAITING_APPROVAL ∧ h.ownerOf 0 = some 0 ∧
      decisionMachine.Runs (decisionPool Env.sample h 0 decisions) schedule ∧
      (decisionMachine.exec (decisionPool Env.sample h 0 decisions) schedule).finished = true ∧
      ¬DecisionPool.Agreed h 0 0 decisions
        (decisionMachine.exec (decisionPool Env.sample h 0 decisions) schedule) := by
  intro decisions h schedule
  refine ⟨(Machine.Reachable.of_start Hub.sample_fresh).exec (by decide),
    by decide, by decide, by decide, by decide,
    by decide, fun hagreed => ?_⟩
  have hboth : ∀ i < 2, ((decisionMachine.exec (decisionPool Env.sample h 0 decisions)
      schedule).outcome? i).any (fun outcome => outcome.toOption.isSome) = true := by
    decide
  have hsucceeds : ∀ i < 2, ∃ answer, (decisionMachine.exec (decisionPool Env.sample h 0 decisions)
      schedule).outcome? i = some (.ok answer) := by
    intro i hi
    obtain ⟨outcome, houtcome, hok⟩ := (Option.any_eq_true _ _).mp (hboth i hi)
    cases outcome with
    | ok answer => exact ⟨answer, houtcome⟩
    | error error => cases hok
  obtain ⟨first, hfirst⟩ := hsucceeds 0 (by decide)
  obtain ⟨second, hsecond⟩ := hsucceeds 1 (by decide)
  cases hagreed.once 0 1 first second hfirst hsecond

end CodeCaller
