import CodeCaller.Hub.Deeds
import CodeCaller.Hub.Integrity
import CodeCaller.Library.Chronicle

/-!
# The history of the Hub

A reason of a deed is about states that have passed.  `Archive` says what all the states of a
history agree on: the owner and the key of a server, the input and the owner of a task, the task of
an attempt and of an approval, the key of a socket, the user a registration is addressed to.  Every
deed whose past lies in the history extends it, so a reason that was good once is good for ever.

### The pieces

* `Write.servers_evolve` and its siblings: a write keeps these columns, or deletes the row, and a
  key that was deleted does not come back.
* `Write.owner`: a task has the owner it had, is new, or was moved to a server that was found for
  it. The owner of a task is not a column, and this is where it comes from.
* `Rows.Linked`: the references between the rows, kept at every node (`Archive.written_linked`).
* `Archive.step`: a deed extends the history.

### The circle

That a task keeps its owner when dispatch moves it depends on the server that was found for it, at
an earlier node, when some server was that of the task.  That this is a server of the same owner
now depends on owners having been kept so far.  `Archive.found` takes the second as given for the
history, and `Archive.written` gives it for one more state.
-/

namespace CodeCaller

open Async

variable {env : Env} {call : HubCall} {past : Past} {h h' : Hub} {r r' : Rows}

/-! ## Columns that never change -/

/-- The columns of a server that a daemon and its owner are recognised by. -/
def Server.identity (server : Server) : UserId × JsString := (server.ownerId, server.apiKeyHash)

/-- What an attempt is an attempt at. -/
def TaskAttempt.identity (attempt : TaskAttempt) : TaskId × ServerId :=
  (attempt.taskId, attempt.serverId)

/-- A server keeps its owner and its key. -/
theorem Write.servers_evolve (hw : Write env call past r r') :
    r.servers.Evolves Server.identity r'.servers := by
  cases hw with
  | serverAdded => exact Table.evolves_insert _ _
  | serverMarked _ hkeeps =>
      exact Table.evolves_modify _ _ fun server _ => Prod.ext (hkeeps server).1 (hkeeps server).2
  | serverDeleted => exact Table.evolves_filter _ _
  | _ => exact .refl _

/-- A task keeps its input. -/
theorem Write.tasks_evolve (hw : Write env call past r r') :
    r.tasks.Evolves Task.input r'.tasks := by
  cases hw with
  | serverDeleted => exact Table.evolves_filter _ _
  | taskCreated => exact Table.evolves_insert _ _
  | taskWritten _ hkeeps => exact Table.evolves_modify _ _ fun task _ => (hkeeps task).2
  | taskMoved _ _ _ hmoves => exact Table.evolves_modify _ _ fun task _ => (hmoves task).2
  | _ => exact .refl _

/-- An attempt stays one of its task on its server. -/
theorem Write.attempts_evolve (hw : Write env call past r r') :
    r.attempts.Evolves TaskAttempt.identity r'.attempts := by
  cases hw with
  | serverDeleted => exact Table.evolves_filter _ _
  | attemptCreated => exact Table.evolves_insert _ _
  | attemptWritten _ _ _ hkeeps =>
      exact Table.evolves_modify _ _ fun attempt _ => Prod.ext (hkeeps attempt).1 (hkeeps attempt).2
  | _ => exact .refl _

/-- An approval stays one of its task. -/
theorem Write.approvals_evolve (hw : Write env call past r r') :
    r.approvals.Evolves Approval.taskId r'.approvals := by
  cases hw with
  | serverDeleted => exact Table.evolves_filter _ _
  | approvalCreated => exact Table.evolves_insert _ _
  | approvalDecided => exact Table.evolves_modify _ _ fun _ _ => rfl
  | _ => exact .refl _

/-- A socket keeps the key of its handshake. -/
theorem Write.sockets_evolve (hw : Write env call past r r') :
    r.sockets.Evolves DaemonSocket.apiKey r'.sockets := by
  cases hw with
  | socketOpened => exact Table.evolves_insert _ _
  | socketAuthenticated => exact Table.evolves_modify _ _ fun _ _ => rfl
  | socketJoined => exact Table.evolves_modify _ _ fun _ _ => rfl
  | socketClosed => exact Table.evolves_filter _ _
  | _ => exact .refl _

/-! ## Owners -/

/-- A task that is on a server has the owner of the server. -/
theorem ownerOf_on {taskId : TaskId} {task : Task} {server : Server}
    (htask : h.tasks taskId = some task) (hserver : h.servers task.serverId = some server) :
    h.ownerOf taskId = some server.ownerId :=
  ownerOf_of_rows (r := h.rows) htask hserver

/-- A change of servers that keeps the owners keeps those of the tasks. -/
theorem ownerOf_evolved {servers : Table Server} {taskId : TaskId} {ownerId : UserId}
    (hhome : ∀ task, r.tasks taskId = some task → r.servers task.serverId ≠ none)
    (hevolves : r.servers.Evolves Server.identity servers)
    (howner : Rows.ownerOf { r with servers } taskId = some ownerId) :
    r.ownerOf taskId = some ownerId := by
  obtain ⟨task, server', htask, hserver', rfl⟩ := ownerOf_some howner
  obtain ⟨server, hserver⟩ := Option.ne_none_iff_exists'.mp (hhome task htask)
  rcases hevolves.kept _ _ hserver' with ⟨old, hold, hsame⟩ | hnew
  · rw [hserver] at hold
    cases hold
    rw [ownerOf_of_rows (r := r) htask hserver]
    exact congrArg some (congrArg Prod.fst hsame)
  · exact absurd hnew (Nat.not_le_of_lt (Table.lt_next hserver))

/-- **A task has the owner it had**, is new, or was moved to a server that was found for it. -/
theorem Write.owner (hw : Write env call past r r') {taskId : TaskId} {ownerId : UserId}
    (hhome : ∀ task, r.tasks taskId = some task → r.servers task.serverId ≠ none)
    (howner : r'.ownerOf taskId = some ownerId) :
    r.ownerOf taskId = some ownerId ∨ r.tasks taskId = none ∨
      ∃ serverId server, FoundFor past taskId serverId ∧ r.servers serverId = some server ∧
        server.ownerId = ownerId := by
  cases hw with
  | serverAdded profiles =>
      exact .inl (ownerOf_evolved hhome (Table.evolves_insert _ _) howner)
  | serverMarked _ hkeeps =>
      refine .inl (ownerOf_evolved hhome (Table.evolves_modify _ _ fun server _ => ?_) howner)
      exact Prod.ext (hkeeps server).1 (hkeeps server).2
  | serverDeleted =>
      obtain ⟨task, server, htask, hserver, rfl⟩ := ownerOf_some howner
      exact .inl (ownerOf_of_rows (Option.filter_eq_some_iff.mp htask).1
        (Option.filter_eq_some_iff.mp hserver).1)
  | taskCreated =>
      obtain ⟨task, server, htask, hserver, rfl⟩ := ownerOf_some howner
      rw [Table.insert_apply] at htask
      split at htask
      · next heq => exact .inr (.inl (heq ▸ r.tasks.fresh _ le_rfl))
      · exact .inl (ownerOf_of_rows htask hserver)
  | taskWritten _ hkeeps =>
      obtain ⟨task, server, htask, hserver, rfl⟩ := ownerOf_some howner
      rw [Table.modify_apply] at htask
      split at htask
      · next heq =>
        obtain ⟨before, hbefore, rfl⟩ := Option.map_eq_some_iff.mp htask
        rw [(hkeeps before).1] at hserver
        rw [heq]
        exact .inl (ownerOf_of_rows hbefore hserver)
      · exact .inl (ownerOf_of_rows htask hserver)
  | taskMoved _ hfound hserver hmoves =>
      obtain ⟨task, server, htask, hstored, rfl⟩ := ownerOf_some howner
      rw [Table.modify_apply] at htask
      split at htask
      · next heq =>
        obtain ⟨before, hbefore, rfl⟩ := Option.map_eq_some_iff.mp htask
        rw [(hmoves before).1] at hstored
        rw [heq]
        exact .inr (.inr ⟨_, server, hfound, hstored, rfl⟩)
      · exact .inl (ownerOf_of_rows htask hstored)
  | _ => exact .inl howner

/-- A stored task is on a stored server after a deed as well. -/
theorem Write.home (hw : Write env call past r r')
    (hhome : ∀ id task, r.tasks id = some task → r.servers task.serverId ≠ none) {id : TaskId}
    {task' : Task} (hrow : r'.tasks id = some task') : r'.servers task'.serverId ≠ none := by
  cases hw with
  | serverAdded profiles =>
      have hold := hhome id task' hrow
      obtain ⟨server, hserver⟩ := Option.ne_none_iff_exists'.mp hold
      have hlt := Table.lt_next hserver
      dsimp only
      rw [Table.insert_apply, if_neg (Nat.ne_of_lt hlt)]
      exact hold
  | serverMarked => exact modify_ne_none (hhome id task' hrow)
  | serverDeleted _ howner =>
      obtain ⟨hold, hon⟩ := Option.filter_eq_some_iff.mp hrow
      obtain ⟨server, hserver⟩ := Option.ne_none_iff_exists'.mp (hhome id task' hold)
      dsimp only
      rw [Table.filter_apply, hserver, Option.filter_some, if_pos hon]
      exact Option.some_ne_none server
  | taskCreated _ hserver _ hon =>
      rw [Table.insert_apply] at hrow
      split at hrow
      · cases hrow
        rw [hon]
        exact hserver
      · exact hhome id task' hrow
  | taskWritten _ hkeeps =>
      rw [Table.modify_apply] at hrow
      split at hrow
      · obtain ⟨before, hbefore, rfl⟩ := Option.map_eq_some_iff.mp hrow
        rw [(hkeeps before).1]
        exact hhome _ before hbefore
      · exact hhome id task' hrow
  | taskMoved _ _ hserver hmoves =>
      rw [Table.modify_apply] at hrow
      split at hrow
      · obtain ⟨before, hbefore, rfl⟩ := Option.map_eq_some_iff.mp hrow
        rw [(hmoves before).1]
        rcases hserver with hsame | hstored
        · rw [← hsame before hbefore]
          exact hhome _ before hbefore
        · exact hstored
      · exact hhome id task' hrow
  | _ => exact hhome id task' hrow

/-! ## References -/

/-- **The rows refer to each other as they should**, whatever is interleaved: no key is
dangling, a task is only attempted on servers of its owner, there is one approval for a task,
and an approval has a time of decision exactly when it is decided. -/
structure Rows.Linked (r : Rows) : Prop where
  task_server : ∀ id task, r.tasks id = some task → r.servers task.serverId ≠ none
  profile_server : ∀ id profile, r.workerProfiles id = some profile →
    r.servers profile.serverId ≠ none
  attempt_owner : ∀ id attempt, r.attempts id = some attempt → ∃ server,
    r.servers attempt.serverId = some server ∧ r.ownerOf attempt.taskId = some server.ownerId
  approval_task : ∀ id approval, r.approvals id = some approval → r.tasks approval.taskId ≠ none
  approval_unique : ∀ id id' approval approval', r.approvals id = some approval →
    r.approvals id' = some approval' → approval.taskId = approval'.taskId → id = id'
  approval_decided : ∀ id approval, r.approvals id = some approval →
    (approval.decidedAt = none ↔ approval.status = .PENDING)

/-- A stored task stays unless its server is deleted. -/
theorem Write.task_kept (hw : Write env call past r r') {taskId : TaskId}
    (hstored : r.tasks taskId ≠ none) : r'.tasks taskId ≠ none ∨
      ∃ ownerId task, r.tasks taskId = some task ∧ call = .removeServer ownerId task.serverId ∧
        (Saw past fun h => h.ServerOf task.serverId ownerId) ∧
        (∀ id attempt, r'.attempts id = some attempt → attempt.taskId ≠ taskId) ∧
        ∀ id approval, r'.approvals id = some approval → approval.taskId ≠ taskId := by
  cases hw with
  | @serverDeleted ownerId serverId hcall howner =>
      obtain ⟨task, htask⟩ := Option.ne_none_iff_exists'.mp hstored
      by_cases hon : task.serverId = serverId
      · refine .inr ⟨ownerId, task, htask, hon ▸ hcall, hon ▸ howner, fun id attempt hrow => ?_,
          fun id approval hrow => ?_⟩
        · rintro rfl
          obtain ⟨-, hkeep⟩ := Bool.and_eq_true_iff.mp (Option.filter_eq_some_iff.mp hrow).2
          rw [htask, Option.any_some] at hkeep
          exact bne_iff_ne.mp hkeep hon
        · rintro rfl
          have hkeep : (r.tasks approval.taskId).any (·.serverId != serverId) = true :=
            (Option.filter_eq_some_iff.mp hrow).2
          rw [htask, Option.any_some] at hkeep
          exact bne_iff_ne.mp hkeep hon
      · left
        dsimp only
        rw [Table.filter_apply, htask, Option.filter_some, if_pos (bne_iff_ne.mpr hon)]
        exact Option.some_ne_none task
  | taskCreated =>
      left
      dsimp only
      rw [Table.insert_apply]
      split
      · exact Option.some_ne_none _
      · exact hstored
  | taskWritten => exact .inl (modify_ne_none hstored)
  | taskMoved => exact .inl (modify_ne_none hstored)
  | _ => exact .inl hstored

/-- **An attempt is on a stored server, at a stored task**; a new one is on a server that was
found for its task. -/
theorem Write.attempt_rows (hw : Write env call past r r') (hr : r.Linked)
    {id : TaskAttemptId} {attempt' : TaskAttempt} (hrow : r'.attempts id = some attempt') :
    r'.servers attempt'.serverId ≠ none ∧ r'.tasks attempt'.taskId ≠ none ∧
      ((∃ attempt, r.attempts id = some attempt ∧ attempt.identity = attempt'.identity) ∨
        FoundFor past attempt'.taskId attempt'.serverId) := by
  have hold : ∀ attempt, r.attempts id = some attempt →
      r.servers attempt.serverId ≠ none ∧ r.tasks attempt.taskId ≠ none := fun attempt hbefore => by
    obtain ⟨server, hserver, howner⟩ := hr.attempt_owner id attempt hbefore
    obtain ⟨task, -, htask, -⟩ := ownerOf_some howner
    rw [hserver, htask]
    exact ⟨Option.some_ne_none server, Option.some_ne_none task⟩
  cases hw with
  | serverAdded profiles =>
      obtain ⟨hserver, htask⟩ := hold attempt' hrow
      refine ⟨?_, htask, .inl ⟨attempt', hrow, rfl⟩⟩
      dsimp only
      rw [Table.insert_apply]
      split
      · exact Option.some_ne_none _
      · exact hserver
  | serverMarked =>
      obtain ⟨hserver, htask⟩ := hold attempt' hrow
      exact ⟨modify_ne_none hserver, htask, .inl ⟨attempt', hrow, rfl⟩⟩
  | @serverDeleted ownerId serverId =>
      obtain ⟨hbefore, hkeep⟩ := Option.filter_eq_some_iff.mp hrow
      obtain ⟨hserver, htask⟩ := hold attempt' hbefore
      rw [Bool.and_eq_true] at hkeep
      obtain ⟨server, hserver⟩ := Option.ne_none_iff_exists'.mp hserver
      obtain ⟨task, htask⟩ := Option.ne_none_iff_exists'.mp htask
      have hon := hkeep.2
      rw [htask, Option.any_some] at hon
      refine ⟨?_, ?_, .inl ⟨attempt', hbefore, rfl⟩⟩
      · dsimp only
        rw [Table.filter_apply, hserver, Option.filter_some, if_pos hkeep.1]
        exact Option.some_ne_none server
      · dsimp only
        rw [Table.filter_apply, htask, Option.filter_some, if_pos hon]
        exact Option.some_ne_none task
  | taskCreated =>
      obtain ⟨hserver, htask⟩ := hold attempt' hrow
      refine ⟨hserver, ?_, .inl ⟨attempt', hrow, rfl⟩⟩
      dsimp only
      rw [Table.insert_apply]
      split
      · exact Option.some_ne_none _
      · exact htask
  | taskWritten =>
      obtain ⟨hserver, htask⟩ := hold attempt' hrow
      exact ⟨hserver, modify_ne_none htask, .inl ⟨attempt', hrow, rfl⟩⟩
  | taskMoved =>
      obtain ⟨hserver, htask⟩ := hold attempt' hrow
      exact ⟨hserver, modify_ne_none htask, .inl ⟨attempt', hrow, rfl⟩⟩
  | attemptCreated _ htask hserver hfound =>
      rw [Table.insert_apply] at hrow
      split at hrow
      · cases hrow
        exact ⟨hserver, htask, .inr hfound⟩
      · obtain ⟨hserver, htask⟩ := hold attempt' hrow
        exact ⟨hserver, htask, .inl ⟨attempt', hrow, rfl⟩⟩
  | attemptWritten _ _ _ hkeeps =>
      rw [Table.modify_apply] at hrow
      split at hrow
      · next heq =>
        obtain ⟨attempt, hbefore, rfl⟩ := Option.map_eq_some_iff.mp hrow
        rw [← heq] at hbefore
        obtain ⟨hserver, htask⟩ := hold attempt hbefore
        rw [(hkeeps attempt).1, (hkeeps attempt).2]
        refine ⟨hserver, htask, .inl ⟨attempt, hbefore, ?_⟩⟩
        exact Prod.ext (hkeeps attempt).1.symm (hkeeps attempt).2.symm
      · obtain ⟨hserver, htask⟩ := hold attempt' hrow
        exact ⟨hserver, htask, .inl ⟨attempt', hrow, rfl⟩⟩
  | _ =>
      obtain ⟨hserver, htask⟩ := hold attempt' hrow
      exact ⟨hserver, htask, .inl ⟨attempt', hrow, rfl⟩⟩

/-- A profile is of a stored server. -/
theorem Write.profile_server (hw : Write env call past r r') (hr : r.Linked) {id : ℕ}
    {profile : WorkerProfile} (hrow : r'.workerProfiles id = some profile) :
    r'.servers profile.serverId ≠ none := by
  cases hw with
  | serverAdded profiles =>
      dsimp only at hrow ⊢
      rw [Table.insert_apply]
      split
      · exact Option.some_ne_none _
      · next hne =>
        have hall : ∀ (profiles : List (WorkerProvider × JsString × Bool))
            (table : Table WorkerProfile), (profiles.foldl (fun table profile =>
              table.insert ⟨r.servers.next, profile.1, profile.2.1, profile.2.2⟩) table) id =
              some profile → table id = some profile := by
          intro profiles
          induction profiles with
          | nil => exact fun _ h => h
          | cons first rest ih =>
              intro table h
              have hnext := ih _ h
              rw [Table.insert_apply] at hnext
              split at hnext
              · cases hnext
                exact absurd rfl hne
              · exact hnext
        exact hr.profile_server id profile (hall profiles _ hrow)
  | serverMarked => exact modify_ne_none (hr.profile_server id profile hrow)
  | serverDeleted =>
      obtain ⟨hbefore, hkeep⟩ := Option.filter_eq_some_iff.mp hrow
      obtain ⟨server, hserver⟩ := Option.ne_none_iff_exists'.mp
        (hr.profile_server id profile hbefore)
      dsimp only
      rw [Table.filter_apply, hserver, Option.filter_some, if_pos hkeep]
      exact Option.some_ne_none server
  | _ => exact hr.profile_server id profile hrow

/-- **An approval after a write** was there, is new for its task, or has been decided by the user
of the task. -/
theorem Write.approval (hw : Write env call past r r') {id : ApprovalId}
    {approval' : Approval} (hrow : r'.approvals id = some approval') :
    r.approvals id = some approval' ∨
      (id = r.approvals.next ∧ approval'.status = .PENDING ∧ approval'.decidedAt = none ∧
        r'.tasks approval'.taskId ≠ none ∧
        ∀ other approval, r.approvals other = some approval → approval.taskId ≠ approval'.taskId) ∨
      ∃ approval dto date ownerId taskId, r.approvals id = some approval ∧
        approval' = Approval.decided dto date approval ∧ call = .decideApproval ownerId id dto ∧
        Saw past fun h => h.AskedOf id ownerId taskId := by
  cases hw with
  | serverDeleted => exact .inl (Option.filter_eq_some_iff.mp hrow).1
  | approvalCreated _ _ _ hpending hundecided htask hnone =>
      rw [Table.insert_apply] at hrow
      split at hrow
      · next heq =>
        cases hrow
        exact .inr (.inl ⟨heq, hpending, hundecided, htask, hnone⟩)
      · exact .inl hrow
  | approvalDecided date hcall hasked =>
      rw [Table.modify_apply] at hrow
      split at hrow
      · next heq =>
        subst heq
        obtain ⟨approval, hbefore, rfl⟩ := Option.map_eq_some_iff.mp hrow
        exact .inr (.inr ⟨approval, _, date, _, _, hbefore, rfl, hcall, hasked⟩)
      · exact .inl hrow
  | _ => exact .inl hrow

/-- What an approval refers to is what one was before. -/
theorem Write.approval_before (hw : Write env call past r r') {id : ApprovalId}
    {approval' : Approval} (hrow : r'.approvals id = some approval') (hlt : id ≠ r.approvals.next) :
    ∃ approval, r.approvals id = some approval ∧ approval.taskId = approval'.taskId := by
  rcases hw.approval hrow with hold | ⟨hnew, -⟩ | ⟨approval, dto, date, -, -, hbefore, rfl, -⟩
  · exact ⟨approval', hold, rfl⟩
  · exact absurd hnew hlt
  · exact ⟨approval, hbefore, rfl⟩

/-- An approval is of a stored task. -/
theorem Write.approval_task (hw : Write env call past r r') (hr : r.Linked) {id : ApprovalId}
    {approval' : Approval} (hrow : r'.approvals id = some approval') :
    r'.tasks approval'.taskId ≠ none := by
  have hold : ∀ approval, r.approvals id = some approval → approval.taskId = approval'.taskId →
      r'.tasks approval'.taskId ≠ none := fun approval hbefore hsame => by
    have hstored := hr.approval_task id approval hbefore
    rw [hsame] at hstored
    rcases hw.task_kept hstored with hkept | ⟨ownerId, task, -, -, -, -, hgone⟩
    · exact hkept
    · exact absurd rfl (hgone id approval' hrow)
  rcases hw.approval hrow with hbefore | ⟨-, -, -, htask, -⟩ |
    ⟨approval, dto, date, -, -, hbefore, rfl, -⟩
  · exact hold approval' hbefore rfl
  · exact htask
  · exact hold approval hbefore rfl

/-- A new approval is of a task that had none. -/
theorem Write.approval_unique (hw : Write env call past r r') (hr : r.Linked)
    {id id' : ApprovalId} {approval approval' : Approval} (hrow : r'.approvals id = some approval)
    (hrow' : r'.approvals id' = some approval') (hsame : approval.taskId = approval'.taskId) :
    id = id' := by
  have hnew : ∀ {id id' : ApprovalId} {approval approval' : Approval},
      r'.approvals id = some approval → r'.approvals id' = some approval' →
      approval.taskId = approval'.taskId → id = r.approvals.next → id' ≠ r.approvals.next →
      False := by
    intro id id' approval approval' hrow hrow' hsame hfresh hother
    obtain ⟨before, hbefore, htask⟩ := hw.approval_before hrow' hother
    rcases hw.approval hrow with hold | ⟨-, -, -, -, hunique⟩ | ⟨old, -, -, -, -, hold, -⟩
    · exact absurd (Table.lt_next hold) (hfresh ▸ Nat.lt_irrefl _)
    · exact hunique id' before hbefore (htask.trans hsame.symm)
    · exact absurd (Table.lt_next hold) (hfresh ▸ Nat.lt_irrefl _)
  by_cases hid : id = r.approvals.next <;> by_cases hid' : id' = r.approvals.next
  · rw [hid, hid']
  · exact (hnew hrow hrow' hsame hid hid').elim
  · exact (hnew hrow' hrow hsame.symm hid' hid).elim
  · obtain ⟨before, hbefore, htask⟩ := hw.approval_before hrow hid
    obtain ⟨before', hbefore', htask'⟩ := hw.approval_before hrow' hid'
    exact hr.approval_unique id id' before before' hbefore hbefore'
      (htask.trans (hsame.trans htask'.symm))

/-- The time of the decision is written with it. -/
theorem Write.approval_decided (hw : Write env call past r r') (hr : r.Linked)
    {id : ApprovalId} {approval' : Approval} (hrow : r'.approvals id = some approval') :
    approval'.decidedAt = none ↔ approval'.status = .PENDING := by
  rcases hw.approval hrow with hold | ⟨-, hpending, hundecided, -⟩ |
    ⟨approval, dto, date, -, -, -, rfl, -⟩
  · exact hr.approval_decided id approval' hold
  · exact ⟨fun _ => hpending, fun _ => hundecided⟩
  · refine ⟨nofun, fun hpending => ?_⟩
    cases happrove : dto.approve <;> simp [Approval.decided, happrove] at hpending

/-! ## Archives -/

/-- **What the states of a history agree on.** -/
structure Archive (seen : List Hub) (h : Hub) : Prop where
  here : h ∈ seen
  servers : Table.Chronicle Hub.servers Server.identity seen h
  tasks : Table.Chronicle Hub.tasks Task.input seen h
  attempts : Table.Chronicle Hub.attempts TaskAttempt.identity seen h
  approvals : Table.Chronicle Hub.approvals Approval.taskId seen h
  sockets : Table.Chronicle Hub.sockets DaemonSocket.apiKey seen h
  registrations : Table.Chronicle Hub.registrations ServerRegistrationRequest.ownerId seen h
  linked : ∀ g ∈ seen, g.rows.Linked
  owners : ∀ g ∈ seen, ∀ g' ∈ seen, ∀ id ownerId ownerId', g.ownerOf id = some ownerId →
    g'.ownerOf id = some ownerId' → ownerId = ownerId'

section Archive

variable {seen : List Hub}

namespace Archive

/-- Two states name one owner of a server. -/
theorem serverOf (hl : Archive seen h) {g g' : Hub} (hg : g ∈ seen) (hg' : g' ∈ seen)
    {serverId : ServerId} {ownerId ownerId' : UserId} (hs : g.ServerOf serverId ownerId)
    (hs' : g'.ServerOf serverId ownerId') : ownerId = ownerId' := by
  obtain ⟨server, hrow, rfl⟩ := hs
  obtain ⟨server', hrow', rfl⟩ := hs'
  exact congrArg Prod.fst (hl.servers.agrees g hg g' hg' serverId server server' hrow hrow')

/-- A stored task has an owner. -/
theorem owned (hl : Archive seen h) {g : Hub} (hg : g ∈ seen) {taskId : TaskId} {task : Task}
    (hrow : g.tasks taskId = some task) :
    ∃ ownerId, g.ownerOf taskId = some ownerId ∧ g.ServerOf task.serverId ownerId := by
  obtain ⟨server, hserver⟩ := Option.ne_none_iff_exists'.mp
    ((hl.linked g hg).task_server taskId task hrow)
  exact ⟨server.ownerId, ownerOf_on hrow hserver, server, hserver, rfl⟩

/-- **A server found for a task is of the owner of the task.** -/
theorem found (hl : Archive seen h) (hwithin : Within past seen) {taskId : TaskId}
    {serverId : ServerId} (hfound : FoundFor past taskId serverId) :
    ∃ ownerId, (∃ g ∈ seen, g.ownerOf taskId = some ownerId) ∧
      ∃ g ∈ seen, g.ServerOf serverId ownerId := by
  obtain ⟨home, ownerId, hon, hhome, hserver⟩ := hfound
  obtain ⟨g₁, hg₁, task, htask, rfl⟩ := hwithin.saw hon
  obtain ⟨g₂, hg₂, hhome₂⟩ := hwithin.saw hhome
  obtain ⟨owner, howner, howns⟩ := hl.owned hg₁ htask
  obtain rfl : owner = ownerId := hl.serverOf hg₁ hg₂ howns hhome₂
  exact ⟨owner, ⟨g₁, hg₁, howner⟩, hwithin.saw hserver⟩

/-- A history of one state. -/
theorem start (hlinked : h.rows.Linked) : Archive [h] h where
  here := List.mem_singleton_self h
  servers := Table.chronicle_start h
  tasks := Table.chronicle_start h
  attempts := Table.chronicle_start h
  approvals := Table.chronicle_start h
  sockets := Table.chronicle_start h
  registrations := Table.chronicle_start h
  linked g hg := by
    rw [List.mem_singleton.mp hg]
    exact hlinked
  owners g hg g' hg' id ownerId ownerId' howner howner' := by
    rw [List.mem_singleton.mp hg] at howner
    rw [List.mem_singleton.mp hg', howner] at howner'
    exact Option.some.inj howner'

/-- The owner of a task is the same after a write. -/
theorem owner_written (hl : Archive seen h) (hwithin : Within past seen)
    (hw : Write env call past h.rows r') {g : Hub} (hg : g ∈ seen) {taskId : TaskId}
    {ownerId ownerId' : UserId} (howner : g.ownerOf taskId = some ownerId)
    (howner' : r'.ownerOf taskId = some ownerId') : ownerId = ownerId' := by
  rcases hw.owner ((hl.linked h hl.here).task_server taskId) howner' with hsame | hnone | hmoved
  · exact hl.owners g hg h hl.here taskId ownerId ownerId' howner hsame
  · obtain ⟨task, -, htask, -⟩ := ownerOf_some (r := g.rows) howner
    obtain ⟨task', -, htask', -⟩ := ownerOf_some howner'
    have hlt : taskId < h.tasks.next := (Table.lt_next htask).trans_le (hl.tasks.behind g hg)
    exact absurd (hw.tasks_evolve.of_missing hnone htask') (Nat.not_le_of_lt hlt)
  · obtain ⟨serverId, server, hfound, hserver, rfl⟩ := hmoved
    obtain ⟨owner, ⟨g₁, hg₁, howner₁⟩, g₂, hg₂, hserver₂⟩ := hl.found hwithin hfound
    have htarget : owner = server.ownerId :=
      hl.serverOf hg₂ hl.here hserver₂ ⟨server, hserver, rfl⟩
    exact (hl.owners g hg g₁ hg₁ taskId ownerId owner howner howner₁).trans htarget

/-- The next state of a history, by what it keeps of the last one. -/
theorem extend (hl : Archive seen h) (hservers : h.servers.Evolves Server.identity h'.servers)
    (htasks : h.tasks.Evolves Task.input h'.tasks)
    (hattempts : h.attempts.Evolves TaskAttempt.identity h'.attempts)
    (happrovals : h.approvals.Evolves Approval.taskId h'.approvals)
    (hsockets : h.sockets.Evolves DaemonSocket.apiKey h'.sockets)
    (hregistrations : h.RegistrationsKept h') (hlinked : h'.rows.Linked)
    (howners : ∀ g ∈ seen, ∀ id ownerId ownerId', g.ownerOf id = some ownerId →
      h'.ownerOf id = some ownerId' → ownerId = ownerId') : Archive (seen ++ [h']) h' where
  here := List.mem_append_right _ List.mem_cons_self
  servers := hl.servers.step hl.here hservers
  tasks := hl.tasks.step hl.here htasks
  attempts := hl.attempts.step hl.here hattempts
  approvals := hl.approvals.step hl.here happrovals
  sockets := hl.sockets.step hl.here hsockets
  registrations := hl.registrations.step hl.here hregistrations
  linked g hg := by
    rcases List.mem_append.mp hg with hold | hlast
    · exact hl.linked g hold
    · rw [List.mem_singleton.mp hlast]
      exact hlinked
  owners g hg g' hg' id ownerId ownerId' howner howner' := by
    rcases List.mem_append.mp hg with hold | hlast <;>
      rcases List.mem_append.mp hg' with hold' | hlast'
    · exact hl.owners g hold g' hold' id ownerId ownerId' howner howner'
    · rw [List.mem_singleton.mp hlast'] at howner'
      exact howners g hold id ownerId ownerId' howner howner'
    · rw [List.mem_singleton.mp hlast] at howner
      exact (howners g' hold' id ownerId' ownerId howner' howner).symm
    · rw [List.mem_singleton.mp hlast] at howner
      rw [List.mem_singleton.mp hlast', howner] at howner'
      exact Option.some.inj howner'

/-- A state with the same rows extends the history. -/
theorem same (hl : Archive seen h) (hsame : h'.rows = h.rows)
    (hregistrations : h.RegistrationsKept h') : Archive (seen ++ [h']) h' := by
  refine hl.extend (.of_eq (congrArg Rows.servers hsame)) (.of_eq (congrArg Rows.tasks hsame))
    (.of_eq (congrArg Rows.attempts hsame)) (.of_eq (congrArg Rows.approvals hsame))
    (.of_eq (congrArg Rows.sockets hsame)) hregistrations (hsame ▸ hl.linked h hl.here) ?_
  intro g hg id ownerId ownerId' howner howner'
  rw [← Hub.rows_ownerOf, hsame] at howner'
  exact hl.owners g hg h hl.here id ownerId ownerId' howner howner'

/-- A write keeps the references. -/
theorem written_linked (hl : Archive seen h) (hwithin : Within past seen)
    (hw : Write env call past h.rows r') : r'.Linked where
  task_server id task hrow := hw.home (hl.linked h hl.here).task_server hrow
  profile_server id profile hrow := hw.profile_server (hl.linked h hl.here) hrow
  attempt_owner id attempt' hrow := by
    have hlinked := hl.linked h hl.here
    obtain ⟨hserver, htask, horigin⟩ := hw.attempt_rows hlinked hrow
    obtain ⟨server', hserver'⟩ := Option.ne_none_iff_exists'.mp hserver
    obtain ⟨task', htask'⟩ := Option.ne_none_iff_exists'.mp htask
    obtain ⟨home', hhome'⟩ := Option.ne_none_iff_exists'.mp
      (hw.home hlinked.task_server htask')
    have howner' : r'.ownerOf attempt'.taskId = some home'.ownerId := ownerOf_of_rows htask' hhome'
    refine ⟨server', hserver', ?_⟩
    rw [howner']
    refine congrArg some ?_
    rcases horigin with ⟨attempt, hbefore, hidentity⟩ | hfound
    · obtain ⟨server, hstored, howner⟩ := hlinked.attempt_owner id attempt hbefore
      obtain ⟨htaskId, hserverId⟩ := Prod.mk.inj hidentity
      rw [htaskId] at howner
      rw [hserverId] at hstored
      rw [← hl.owner_written hwithin hw hl.here howner howner']
      rcases hw.servers_evolve.kept _ _ hserver' with ⟨old, hold, hsame⟩ | hnew
      · rw [hstored] at hold
        cases hold
        exact congrArg Prod.fst hsame
      · exact absurd hnew (Nat.not_le_of_lt (Table.lt_next hstored))
    · obtain ⟨ownerId, ⟨g, hg, howner⟩, g', hg', server, hstored, rfl⟩ := hl.found hwithin hfound
      rw [← hl.owner_written hwithin hw hg howner howner']
      rcases hw.servers_evolve.kept _ _ hserver' with ⟨old, hold, hsame⟩ | hnew
      · have hkept := hl.servers.agrees g' hg' h hl.here _ server old hstored hold
        exact (congrArg Prod.fst hkept).trans (congrArg Prod.fst hsame)
      · exact absurd hnew (Nat.not_le_of_lt
          ((Table.lt_next hstored).trans_le (hl.servers.behind g' hg')))
  approval_task id approval hrow := hw.approval_task (hl.linked h hl.here) hrow
  approval_unique id id' approval approval' hrow hrow' hsame :=
    hw.approval_unique (hl.linked h hl.here) hrow hrow' hsame
  approval_decided id approval hrow := hw.approval_decided (hl.linked h hl.here) hrow

/-- **A write whose past lies in the history extends it.** -/
theorem written (hl : Archive seen h) (hwithin : Within past seen)
    (hw : Write env call past h.rows h'.rows) (hregistrations : h.RegistrationsKept h') :
    Archive (seen ++ [h']) h' :=
  hl.extend hw.servers_evolve hw.tasks_evolve hw.attempts_evolve hw.approvals_evolve
    hw.sockets_evolve hregistrations (hl.written_linked hwithin hw)
    fun _ hg _ _ _ howner howner' => hl.owner_written hwithin hw hg howner howner'

/-- **A deed whose past lies in the history extends it.** -/
theorem step (hl : Archive seen h) (hwithin : Within past seen) (hdeed : Deed env call past h h') :
    Archive (seen ++ [h']) h' := by
  cases hdeed with
  | quiet hrows _ hregistrations => exact hl.same hrows hregistrations
  | wrote hwritten _ hregistrations => exact hl.written hwithin hwritten hregistrations
  | notified _ hrows _ hregistrations => exact hl.same hrows hregistrations

end Archive

end Archive

/-- The rows of a Hub that has just started. -/
theorem Hub.Fresh.linked (hfresh : h.Fresh) : h.rows.Linked := by
  have htasks : h.rows.tasks = Table.empty := hfresh.tasks
  have hattempts : h.rows.attempts = Table.empty := hfresh.attempts
  have happrovals : h.rows.approvals = Table.empty := hfresh.approvals
  refine ⟨?_, fun id profile hrow => ?_, ?_, ?_, ?_, ?_⟩
  · simp [htasks]
  · obtain ⟨server, hserver⟩ := hfresh.profile_server id profile hrow
    exact fun hnone => Option.some_ne_none server (hserver.symm.trans hnone)
  · simp [hattempts]
  · simp [happrovals]
  · simp [happrovals]
  · simp [happrovals]

end CodeCaller
