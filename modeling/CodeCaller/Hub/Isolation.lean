import CodeCaller.Hub.Integrity

/-!
# Isolation of owners

A call leaves the tasks, attempts and approvals of an owner alone when it concerns none of the
tasks of that owner.  For a request of another user that is always so; for a message of a daemon it
is what its `taskId` selects that decides, because the gateway does not pass on the socket.

`SameFor owner r r'` compares the rows of an owner as functions of the key, so it says that none
was changed, none removed and none added.  `HubCall.Foreign` is the condition, and it is preserved
by the effects of a foreign call (`Effect.foreign`), which is what makes it usable along a chain:
an effect might have given the owner a task that the next one then changes.
-/

namespace CodeCaller

open Async

variable {env : Env} {call : HubCall} {r r' : Rows} {owner : UserId}

/-! ## The rows of an owner -/

namespace Rows

/-- The tasks of an owner. -/
def tasksOf (r : Rows) (owner : UserId) (id : TaskId) : Option Task :=
  (r.tasks id).filter fun _ => r.ownerOf id == some owner

/-- The attempts at the tasks of an owner. -/
def attemptsOf (r : Rows) (owner : UserId) (id : TaskAttemptId) : Option TaskAttempt :=
  (r.attempts id).filter fun attempt => r.ownerOf attempt.taskId == some owner

/-- The approvals of the tasks of an owner. -/
def approvalsOf (r : Rows) (owner : UserId) (id : ApprovalId) : Option Approval :=
  (r.approvals id).filter fun approval => r.ownerOf approval.taskId == some owner

/-- The servers of an owner. -/
def serversOf (r : Rows) (owner : UserId) (id : ServerId) : Option Server :=
  (r.servers id).filter fun server => server.ownerId == owner

/-- **The tasks, attempts and approvals of an owner are the same**, none changed,
none removed, none added. -/
structure SameFor (owner : UserId) (r r' : Rows) : Prop where
  tasks : r'.tasksOf owner = r.tasksOf owner
  attempts : r'.attemptsOf owner = r.attemptsOf owner
  approvals : r'.approvalsOf owner = r.approvalsOf owner

theorem SameFor.refl (owner : UserId) (r : Rows) : SameFor owner r r := ⟨rfl, rfl, rfl⟩

theorem SameFor.trans {r'' : Rows} (h : SameFor owner r r') (h' : SameFor owner r' r'') :
    SameFor owner r r'' :=
  ⟨h'.tasks.trans h.tasks, h'.attempts.trans h.attempts, h'.approvals.trans h.approvals⟩

end Rows

/-- **A call that is not about the tasks of an owner.** -/
structure HubCall.Foreign (call : HubCall) (r : Rows) (owner : UserId) : Prop where
  concerns : ∀ {taskId}, r.ownerOf taskId = some owner → ¬call.Concerns r taskId
  submits : ∀ {dto}, call ≠ .submit owner dto

/-! ## Ownership through an effect -/

/-- A task that was not there belongs to the user who submitted it. -/
theorem Effect.new_task (h : Effect env call r r') {taskId : TaskId} {task' : Task}
    (hnone : r.tasks taskId = none) (htask' : r'.tasks taskId = some task') :
    ∃ ownerId dto, call = .submit ownerId dto ∧ r'.ownerOf taskId = some ownerId := by
  have hchange := h.task taskId
  rw [hnone, htask'] at hchange
  cases hchange with
  | submitted hcall hserver howner hserverId =>
      rcases h.deletes_or_keeps with ⟨_, _, hremove, -⟩ | hkeeps
      · rw [hcall] at hremove
        cases hremove
      · obtain ⟨server', hserver', heq⟩ := hkeeps.server hserver
        rw [← hserverId] at hserver'
        exact ⟨_, _, hcall, by rw [ownerOf_of_rows htask' hserver', heq, howner]⟩

/-- A foreign call does not give tasks to an owner, nor take them. -/
theorem Effect.owns_iff (h : Effect env call r r') (hs : r.Sound) (hf : call.Foreign r owner)
    (taskId : TaskId) : r'.ownerOf taskId = some owner ↔ r.ownerOf taskId = some owner := by
  constructor
  · intro howns
    obtain ⟨task', -, htask', -⟩ := ownerOf_some howns
    cases htask : r.tasks taskId with
    | some task =>
        obtain ⟨server, -, hbefore⟩ := hs.owned htask
        rcases h.keeps_owner hbefore with hafter | ⟨-, hgone⟩
        · rw [hbefore, ← hafter, howns]
        · rw [htask'] at hgone
          cases hgone
    | none =>
        obtain ⟨ownerId, dto, hcall, howner⟩ := h.new_task htask htask'
        rw [howns] at howner
        cases howner
        exact absurd hcall hf.submits
  · intro howns
    rcases h.keeps_owner howns with hafter | ⟨-, hgone⟩
    · exact hafter
    · obtain ⟨task, server, htask, hserver, rfl⟩ := ownerOf_some howns
      have hchange := h.task taskId
      rw [htask, hgone] at hchange
      cases hchange with
      | deleted hcall hon =>
          rw [hserver] at hon
          cases hon
          exact absurd (concerns_owned (by rw [hcall]; rfl) (by rw [hcall]; rfl) howns)
            (hf.concerns howns)

/-- A foreign call stays foreign. -/
theorem Effect.foreign (h : Effect env call r r') (hs : r.Sound) (hf : call.Foreign r owner) :
    call.Foreign r' owner where
  concerns {taskId} howns hconcerns := by
    have hbefore := (h.owns_iff hs hf taskId).mp howns
    refine hf.concerns hbefore ⟨fun user huser => ?_, hconcerns.2⟩
    rw [hbefore, ← howns]
    exact hconcerns.1 user huser
  submits := hf.submits

/-! ## Rows through an effect -/

/-- A foreign call does not change a task of the owner. -/
theorem Effect.task_of (h : Effect env call r r') (hf : call.Foreign r owner) {taskId : TaskId}
    (howns : r.ownerOf taskId = some owner) : r'.tasks taskId = r.tasks taskId := by
  obtain ⟨task, server, htask, hserver, hown⟩ := ownerOf_some howns
  have hnot := hf.concerns howns
  have hchange := h.task taskId
  rw [htask] at hchange ⊢
  generalize r'.tasks taskId = row at hchange ⊢
  cases hchange with
  | kept => rfl
  | relabelled hconcern => exact absurd hconcern hnot
  | failedOver hcall hid =>
      refine absurd (concerns_id (by rw [hcall]; rfl) ?_) hnot
      rw [hcall]
      exact congrArg some hid
  | assigned hcall =>
      obtain ⟨jobId, rfl⟩ := hcall
      exact absurd (concerns_free rfl rfl) hnot
  | expired hcall => exact absurd (concerns_free (by rw [hcall]; rfl) (by rw [hcall]; rfl)) hnot
  | requeued hcall => exact absurd (concerns_free (by rw [hcall]; rfl) (by rw [hcall]; rfl)) hnot
  | deleted hcall hon =>
      rw [hserver] at hon
      cases hon
      exact absurd (concerns_owned (by rw [hcall]; rfl) (by rw [hcall]; rfl)
        (by rw [howns, hown])) hnot

/-- An attempt that changes is at a task the call concerns. -/
theorem AttemptChange.concerns {id : TaskAttemptId} {row' : Option TaskAttempt}
    (h : AttemptChange env call r id (r.attempts id) row') (hs : r.Sound) :
    row' = r.attempts id ∨ ∀ attempt, r.attempts id = some attempt ∨ row' = some attempt →
      call.Concerns r attempt.taskId := by
  generalize hrow : r.attempts id = row at h ⊢
  cases h with
  | kept => exact .inl rfl
  | touched date hcall hsel hof =>
      refine .inr fun attempt hmem => ?_
      have huser : call.user = none := by
        unfold HubCall.reports at hcall
        split at hcall <;> first | rfl | cases hcall
      rcases hmem with heq | heq <;> cases heq <;> exact concerns_of_reports huser hcall hsel hof
  | settled lastSeen finished hcall hsel hof =>
      refine .inr fun attempt hmem => ?_
      subst hcall
      rcases hmem with heq | heq
      · cases heq
        exact concerns_of_reports rfl rfl hsel hof
      · cases heq
        rw [TaskAttempt.closed_taskId]
        exact concerns_of_reports rfl rfl hsel hof
  | expired finished hcall =>
      subst hcall
      exact .inr fun _ _ => concerns_free rfl rfl
  | assigned _ _ hcall =>
      obtain ⟨jobId, rfl⟩ := hcall
      exact .inr fun _ _ => concerns_free rfl rfl
  | rejected _ _ _ hcall =>
      obtain ⟨jobId, rfl⟩ := hcall
      exact .inr fun _ _ => concerns_free rfl rfl
  | @deleted attempt serverId server hcall hserver hon =>
      refine .inr fun other hmem => ?_
      rcases hmem with heq | heq
      · cases heq
        subst hcall
        -- the attempt was on the deleted server, or its task was: either way it had that owner
        obtain ⟨home, hhome, howner⟩ := hs.attempt_owner hrow
        refine concerns_owned rfl rfl (howner.trans ?_)
        rcases hon with rfl | hon
        · rw [hserver] at hhome
          cases hhome
          rfl
        · obtain ⟨task, target, htask, htarget, heq⟩ := ownerOf_some howner
          rw [hon task htask, hserver] at htarget
          cases htarget
          rw [heq]
      · cases heq

/-- A foreign call neither changes nor adds nor removes an attempt at a task of
the owner. -/
theorem Effect.attempt_of (h : Effect env call r r') (hs : r.Sound) (hf : call.Foreign r owner)
    {id : TaskAttemptId} {attempt : TaskAttempt} (howns : r.ownerOf attempt.taskId = some owner) :
    r'.attempts id = some attempt ↔ r.attempts id = some attempt := by
  rcases (h.attempt id).concerns hs with hsame | hconcerns
  · rw [hsame]
  · constructor
    · exact fun hrow => absurd (hconcerns attempt (.inr hrow)) (hf.concerns howns)
    · exact fun hrow => absurd (hconcerns attempt (.inl hrow)) (hf.concerns howns)

/-- An approval that changes is of a task the call concerns. -/
theorem ApprovalChange.concerns {id : ApprovalId} {row' : Option Approval}
    (h : ApprovalChange call r id (r.approvals id) row') (hs : r.Sound) :
    row' = r.approvals id ∨ ∀ approval, r.approvals id = some approval ∨ row' = some approval →
      call.Concerns r approval.taskId := by
  generalize hrow : r.approvals id = row at h ⊢
  cases h with
  | kept => exact .inl rfl
  | created hcall hid =>
      refine .inr fun approval hmem => ?_
      subst hcall
      rcases hmem with heq | heq
      · cases heq
      · cases heq
        exact concerns_id rfl (congrArg some hid)
  | decided date hcall hpending howner =>
      refine .inr fun approval hmem => ?_
      subst hcall
      rcases hmem with heq | heq <;> cases heq <;> exact concerns_owned rfl rfl howner
  | deleted hcall hserver htask =>
      refine .inr fun approval hmem => ?_
      subst hcall
      rcases hmem with heq | heq
      · cases heq
        obtain ⟨task, hstored⟩ := Option.ne_none_iff_exists'.mp (hs.approval_task hrow)
        obtain ⟨home, hhome, howner⟩ := hs.owned hstored
        rw [htask task hstored, hserver] at hhome
        cases hhome
        exact concerns_owned rfl rfl howner
      · cases heq

/-- A foreign call neither changes nor adds nor removes an approval of a task of the owner. -/
theorem Effect.approval_of (h : Effect env call r r') (hs : r.Sound) (hf : call.Foreign r owner)
    {id : ApprovalId} {approval : Approval} (howns : r.ownerOf approval.taskId = some owner) :
    r'.approvals id = some approval ↔ r.approvals id = some approval := by
  rcases (h.approval id).concerns hs with hsame | hconcerns
  · rw [hsame]
  · constructor
    · exact fun hrow => absurd (hconcerns approval (.inr hrow)) (hf.concerns howns)
    · exact fun hrow => absurd (hconcerns approval (.inl hrow)) (hf.concerns howns)

/-- **A foreign effect leaves the rows of an owner alone.** -/
theorem Effect.same_for (h : Effect env call r r') (hs : r.Sound) (hf : call.Foreign r owner) :
    Rows.SameFor owner r r' where
  tasks := by
    funext id
    refine Option.ext fun task => ?_
    simp only [Rows.tasksOf, Option.filter_eq_some_iff, beq_iff_eq, h.owns_iff hs hf]
    exact and_congr_left fun howns => by rw [h.task_of hf howns]
  attempts := by
    funext id
    refine Option.ext fun attempt => ?_
    simp only [Rows.attemptsOf, Option.filter_eq_some_iff, beq_iff_eq, h.owns_iff hs hf]
    exact and_congr_left fun howns => h.attempt_of hs hf howns
  approvals := by
    funext id
    refine Option.ext fun approval => ?_
    simp only [Rows.approvalsOf, Option.filter_eq_some_iff, beq_iff_eq, h.owns_iff hs hf]
    exact and_congr_left fun howns => h.approval_of hs hf howns

/-- **A foreign call leaves the rows of an owner alone.** -/
theorem after_same_for {h : Hub} (hs : h.rows.Sound) (hf : call.Foreign h.rows owner) :
    Rows.SameFor owner h.rows (h.after env call).rows := by
  have hchain := after_effects env h call
  generalize (h.after env call).rows = r at hchain ⊢
  suffices hall : r.Sound ∧ call.Foreign r owner ∧ Rows.SameFor owner h.rows r from hall.2.2
  induction hchain with
  | refl => exact ⟨hs, hf, .refl owner _⟩
  | tail _ hstep ih =>
      obtain ⟨hs, hf, hsame⟩ := ih
      exact ⟨hstep.sound hs, hstep.foreign hs hf, hsame.trans (hstep.same_for hs hf)⟩

end CodeCaller
