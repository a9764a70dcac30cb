import CodeCaller.Hub.Tenants

/-!
# Answers

The row data in the answer to a request, operation by operation: it is stored when the request
ends, and it is the caller's.

`Response.OwnedBy` goes through the shapes of an answer and says of each row in it that it is in
the tables and of the user.  For each operation `p` there is a lemma `p_ok` about the case in which
it returned: the check of ownership was passed on a row the operation had read, and what it answers
with is that row or a later version of it.  Where the handler writes between its check and its
answer (`cancel`, `decide`), the owner is carried over the write.

`answer_owned` assembles them.  It is about uninterrupted requests; with interruptions a row may
have been deleted by the time of the answer, and `Fleet.Replies` says what remains true then.
-/

namespace CodeCaller

open Async

variable {env : Env} {h h' : Hub} {user : UserId}

/-- A public server shows a stored server of the user. -/
def PublicServer.OwnedBy (server : PublicServer) (h : Hub) (user : UserId) : Prop :=
  ∃ row, h.servers server.id = some row ∧ row.ownerId = user ∧
    server = ServersService.toPublic server.id row

/-- A public registration shows a stored registration of the user. -/
def PublicRegistration.OwnedBy (registration : PublicRegistration) (h : Hub) (user : UserId) :
    Prop :=
  ∃ row, h.registrations registration.id = some row ∧ row.ownerId = user ∧
    registration = ServerRegistrationsService.toPublic registration.id row

/-- **The rows of an answer are stored and the user's own.** -/
def Response.OwnedBy (response : Response) (h : Hub) (user : UserId) : Prop :=
  match response with
  | .done => True
  | .task id row => h.tasks id = some row ∧ h.ownerOf id = some user
  | .tasks rows => ∀ row ∈ rows, h.tasks row.1 = some row.2 ∧ h.ownerOf row.1 = some user
  | .approval id row => h.approvals id = some row ∧ h.ownerOf row.taskId = some user
  | .approvals rows => ∀ row ∈ rows, h.approvals row.1 = some row.2.1 ∧
    h.tasks row.2.1.taskId = some row.2.2 ∧ h.ownerOf row.2.1.taskId = some user
  | .serverCreated row _ => row.OwnedBy h user
  | .server row => row.OwnedBy h user
  | .servers rows => ∀ row ∈ rows, row.OwnedBy h user
  | .health status lastHeartbeatAt => ∃ id row, h.servers id = some row ∧ row.ownerId = user ∧
    row.status = status ∧ row.lastHeartbeatAt = lastHeartbeatAt
  | .registration row => row.OwnedBy h user
  | .registrations rows => ∀ row ∈ rows, row.OwnedBy h user
  | .registrationCreated _ _ | .registrationResult _ => False

/-- What a returning sequence did: its first program returned, and its second
one continued. -/
theorem run_bind_ok {α β : Type} {p : HubM α} {f : α → HubM β} {value : β}
    (hrun : (p >>= f).run h = (.ok value, h')) :
    ∃ first h₁, p.run h = (.ok first, h₁) ∧ (f first).run h₁ = (.ok value, h') := by
  rw [Proc.run_bind] at hrun
  cases hp : p.run h with
  | mk outcome h₁ =>
    rw [hp] at hrun
    cases outcome with
    | ok first => exact ⟨first, h₁, rfl, hrun⟩
    | error error => cases hrun

/-! ## Tasks -/

/-- A task that a returning update of the status answers with is stored. -/
theorem updateStatus_ok {taskId id : TaskId} {status : StatusRef} {result : Option Json}
    {task : Task} {server : Server}
    (hrun : (TasksService.updateStatus env (.id taskId) status result).run h =
      (.ok (id, task, server), h')) : id = taskId ∧ h'.tasks taskId = some task := by
  unfold TasksService.updateStatus at hrun
  obtain ⟨key, h₁, hkey, hrun⟩ := run_bind_ok hrun
  cases hkey
  dsimp only at hrun
  split at hrun
  · cases hrun
  · obtain ⟨updated, h₂, hupdate, hrun⟩ := run_bind_ok hrun
    obtain ⟨server', h₃, hserver, hrun⟩ := run_bind_ok hrun
    obtain ⟨_, h₄, hnotify, hrun⟩ := run_bind_ok hrun
    cases hnotify
    cases hrun
    refine ⟨rfl, ?_⟩
    have hquiet : h₃.rows = h₂.rows := by
      have := (serverOf_quiet task).run Quiet.refl Quiet.trans h₂
      rwa [hserver] at this
    change h₃.tasks taskId = some task
    rw [show h₃.tasks = h₂.tasks from congrArg Rows.tasks hquiet]
    cases htask : h.tasks taskId with
    | none =>
        rw [taskUpdate_run_none htask] at hupdate
        cases hupdate
    | some old =>
        exact (taskUpdate_kept htask rfl hupdate).1

/-- The task that is answered is the new one. -/
theorem submit_ok {dto : CreateTaskDto} {id : TaskId} {task : Task}
    (hrun : (TasksService.submit env user dto).run h = (.ok (id, task), h')) :
    id = h.tasks.next ∧ h'.tasks = h.tasks.insert task ∧ h'.ownerOf id = some user := by
  rcases submit_run env h user dto with ⟨error, hsubmit⟩ | ⟨server, row, hserver, rfl, rfl, hsubmit⟩
  · rw [hsubmit] at hrun
    cases hrun
  · rw [hsubmit] at hrun
    cases hrun
    refine ⟨rfl, rfl, ?_⟩
    have hstored : (h.tasks.insert ⟨dto.serverId, dto.workerType, .QUEUED, dto.input, none, [],
      env.clock h.reads, env.clock h.reads⟩) h.tasks.next = some _ := if_pos rfl
    rw [← Hub.rows_ownerOf]
    exact ownerOf_of_rows hstored hserver

/-- Every listed task is on a server of the user. -/
theorem findAllForOwner_ok {rows : List (TaskId × Task)}
    (hrun : (TasksService.findAllForOwner env user).run h = (.ok rows, h')) :
    ∀ row ∈ rows, h'.tasks row.1 = some row.2 ∧ h'.ownerOf row.1 = some user := by
  cases hrun
  intro row hmem
  rw [mem_orderByDesc, List.mem_filter, Table.mem_toList] at hmem
  obtain ⟨htask, howner⟩ := hmem
  refine ⟨htask, ?_⟩
  cases hserver : h.servers row.2.serverId with
  | none =>
      rw [hserver] at howner
      cases howner
  | some server =>
      rw [hserver, beq_iff_eq] at howner
      exact (ownerOf_of_rows (r := h.rows) htask hserver).trans (congrArg some howner)

/-- A task that is shown passed the check of its owner. -/
theorem findOneForOwner_ok {taskId id : TaskId} {task : Task}
    (hrun : (TasksService.findOneForOwner user taskId).run h = (.ok (id, task), h')) :
    h'.tasks id = some task ∧ h'.ownerOf id = some user := by
  obtain ⟨found, h₁, hget, hpure⟩ := run_bind_ok hrun
  obtain ⟨rfl, howned⟩ := getOwnedTask_spec hget
  cases hpure
  exact howned task rfl

/-- The owner of a task that a request leaves stored is who it was. -/
theorem owner_after {call : HubCall} {taskId : TaskId} {task : Task}
    (howner : h.ownerOf taskId = some user) (htask : (h.after env call).tasks taskId = some task) :
    (h.after env call).ownerOf taskId = some user := by
  obtain ⟨old, -, hold, -⟩ := ownerOf_some (r := h.rows) howner
  have hkept : KeepsOwner user taskId (h.after env call).rows :=
    after_keepsOwner ⟨Table.lt_next hold, .inl howner⟩
  rcases hkept.2 with hafter | hgone
  · exact hafter
  · rw [show (h.after env call).rows.tasks taskId = some task from htask] at hgone
    cases hgone

/-- The cancelled task is shown as it was written. -/
theorem cancel_ok {taskId id : TaskId} {task : Task}
    (hrun : (TasksService.cancel env user taskId).run h = (.ok (id, task), h')) :
    id = taskId ∧ h'.tasks taskId = some task ∧ h.ownerOf taskId = some user := by
  obtain ⟨found, h₁, hget, hrest⟩ := run_bind_ok hrun
  obtain ⟨rfl, howned⟩ := getOwnedTask_spec hget
  obtain ⟨adapter, h₂, -, hrest⟩ := run_bind_ok hrest
  obtain ⟨_, h₃, -, hrest⟩ := run_bind_ok hrest
  obtain ⟨⟨key, updated, server⟩, h₄, hupdate, hpure⟩ := run_bind_ok hrest
  cases hpure
  obtain ⟨rfl, htask⟩ := updateStatus_ok hupdate
  exact ⟨rfl, htask, (howned found rfl).2⟩

/-! ## Approvals -/

/-- Every listed approval is of a task of the user, and that task is shown with it. -/
theorem listForOwner_ok {status : Option (Option ApprovalStatus)}
    {rows : List (ApprovalId × Approval × Task)}
    (hrun : (ApprovalsService.listForOwner env user status).run h = (.ok rows, h')) :
    ∀ row ∈ rows, h'.approvals row.1 = some row.2.1 ∧
      h'.tasks row.2.1.taskId = some row.2.2 ∧ h'.ownerOf row.2.1.taskId = some user := by
  unfold ApprovalsService.listForOwner at hrun
  split at hrun
  · cases hrun
  · cases hrun
    intro row hmem
    obtain ⟨found, hfound, rfl⟩ := List.mem_map.mp hmem
    rw [mem_orderByDesc, List.mem_filterMap] at hfound
    obtain ⟨⟨id, approval⟩, hstored, hbind⟩ := hfound
    obtain ⟨⟨task, server⟩, htask, hite⟩ := Option.bind_eq_some_iff.mp hbind
    obtain ⟨htask, hserver⟩ := taskWithServer_some htask
    split at hite
    · next howner =>
      cases hite
      refine ⟨Table.mem_toList.mp hstored, htask, ?_⟩
      exact (ownerOf_of_rows (r := h.rows) htask hserver).trans (congrArg some howner.1)
    · cases hite

/-- The decided approval is shown as it was written, and its task is still there. -/
theorem decide_ok {approvalId id : ApprovalId} {dto : DecideApprovalDto} {approval : Approval}
    (hrun : (ApprovalsService.decide env user approvalId dto).run h = (.ok (id, approval), h')) :
    h'.approvals id = some approval ∧ h.ownerOf approval.taskId = some user ∧
      h'.tasks approval.taskId ≠ none := by
  unfold ApprovalsService.decide at hrun
  rw [Proc.run_bind_of_ok (Proc.run_read _ h)] at hrun
  cases hfound : ApprovalsService.approvalWithTask h approvalId with
  | none =>
      rw [hfound] at hrun
      cases hrun
  | some row =>
      obtain ⟨old, task, server⟩ := row
      obtain ⟨happroval, htask, hserver⟩ := approvalWithTask_some hfound
      rw [hfound] at hrun
      dsimp only at hrun
      split at hrun
      · cases hrun
      · next howner =>
        split at hrun
        · cases hrun
        · obtain ⟨date, h₁, hnow, hrest⟩ := run_bind_ok hrun
          -- the clock and the updates leave the rows of the request and its task there
          have happroval₁ : h₁.approvals approvalId = some old := by
            cases hnow
            exact happroval
          have htask₁ : h₁.tasks old.taskId = some task := by
            cases hnow
            exact htask
          obtain ⟨updated, h₂, hupdate, hrest⟩ := run_bind_ok hrest
          rw [approvalUpdate_run happroval₁] at hupdate
          have htask₂ : h₂.tasks old.taskId = some task := by
            cases hupdate
            exact htask₁
          have happroval₂ : h₂.approvals approvalId = some updated ∧
              updated.taskId = old.taskId := by
            cases hupdate
            refine ⟨?_, rfl⟩
            rw [Table.modify_apply, if_pos rfl, happroval₁]
            rfl
          obtain ⟨moved, h₃, hrelabel, hrest⟩ := run_bind_ok hrest
          obtain ⟨htask₃, -, -, happrovals₃⟩ := taskUpdate_kept htask₂ rfl hrelabel
          obtain ⟨_, h₄, hsend, hrest⟩ := run_bind_ok hrest
          -- whether the decision is sent or not, it changes neither table
          have hkept : h₄.approvals = h₃.approvals ∧ h₄.tasks = h₃.tasks := by
            rw [Proc.run_tryCatch, dispatchToServer_run] at hsend
            cases honline : h₃.online task.serverId with
            | true =>
                rw [honline] at hsend
                cases hsend
                exact ⟨rfl, rfl⟩
            | false =>
                rw [honline] at hsend
                cases hsend
                exact ⟨rfl, rfl⟩
          obtain ⟨_, h₅, hnotify, hpure⟩ := run_bind_ok hrest
          cases hnotify
          cases hpure
          refine ⟨?_, ?_, ?_⟩
          · change h₄.approvals approvalId = some approval
            rw [hkept.1, happrovals₃, happroval₂.1]
          · rw [happroval₂.2]
            exact (ownerOf_of_rows (r := h.rows) htask hserver).trans
              (congrArg some (not_not.mp howner))
          · change h₄.tasks approval.taskId ≠ none
            rw [hkept.2, happroval₂.2, htask₃]
            exact nofun

/-! ## Servers -/

/-- The new server is of the user who created it. -/
theorem createServer_ok {dto : CreateServerDto} {server : PublicServer} {apiKey : JsString}
    (hrun : (ServersService.create env user dto).run h = (.ok (server, apiKey), h')) :
    server.OwnedBy h' user := by
  cases hrun
  exact ⟨_, if_pos rfl, rfl, rfl⟩

/-- Every listed server is of the user. -/
theorem findAllServers_ok {rows : List PublicServer}
    (hrun : (ServersService.findAllForOwner env user).run h = (.ok rows, h')) :
    ∀ row ∈ rows, row.OwnedBy h' user := by
  cases hrun
  intro row hmem
  obtain ⟨⟨id, server⟩, hstored, rfl⟩ := List.mem_map.mp hmem
  have hstored := (env.rowOrder_perm _).mem_iff.mp hstored
  rw [List.mem_filter, Table.mem_toList, beq_iff_eq] at hstored
  exact ⟨server, hstored.1, hstored.2, rfl⟩

theorem findOneServer_ok {serverId : ServerId} {row : PublicServer}
    (hrun : (ServersService.findOneForOwner user serverId).run h = (.ok row, h')) :
    row.OwnedBy h' user := by
  obtain ⟨server, h₁, hget, hpure⟩ := run_bind_ok hrun
  obtain ⟨rfl, howned⟩ := getOwnedServer_spec hget
  cases hpure
  exact ⟨server, (howned server rfl).1, (howned server rfl).2, rfl⟩

/-- The two columns are those of one server of the user. -/
theorem getHealth_ok {serverId : ServerId} {status : ServerStatus} {heartbeat : Option Time}
    (hrun : (ServersService.getHealth user serverId).run h = (.ok (status, heartbeat), h')) :
    ∃ id row, h'.servers id = some row ∧ row.ownerId = user ∧ row.status = status ∧
      row.lastHeartbeatAt = heartbeat := by
  obtain ⟨server, h₁, hget, hpure⟩ := run_bind_ok hrun
  obtain ⟨rfl, howned⟩ := getOwnedServer_spec hget
  cases hpure
  exact ⟨serverId, server, (howned server rfl).1, (howned server rfl).2, rfl, rfl⟩

/-! ## Registrations -/

/-- Every listed request is addressed to the user. -/
theorem findPending_ok {rows : List PublicRegistration}
    (hrun : (ServerRegistrationsService.findPendingForOwner env user).run h = (.ok rows, h')) :
    ∀ row ∈ rows, row.OwnedBy h' user := by
  obtain ⟨_, h₁, -, hrest⟩ := run_bind_ok hrun
  cases hrest
  intro row hmem
  obtain ⟨⟨id, request⟩, hstored, rfl⟩ := List.mem_map.mp hmem
  rw [mem_orderByDesc, List.mem_filter, Table.mem_toList, Bool.and_eq_true, beq_iff_eq] at hstored
  exact ⟨request, hstored.1, hstored.2.1, rfl⟩

/-- A returning update of a registration answers with what is stored. -/
theorem registrationUpdate_ok {requestId : RegistrationId} {request : ServerRegistrationRequest}
    {data : ServerRegistrationRequest → ServerRegistrationRequest}
    (howner : ∀ row, h.registrations requestId = some row → (data row).ownerId = user)
    (hrun : (Prisma.registrationUpdate requestId data).run h = (.ok request, h')) :
    h'.registrations requestId = some request ∧ request.ownerId = user := by
  unfold Prisma.registrationUpdate at hrun
  rw [Proc.run_atomically] at hrun
  cases hrow : h.registrations requestId with
  | none =>
      rw [hrow] at hrun
      cases hrun
  | some row =>
      rw [hrow] at hrun
      cases hrun
      refine ⟨?_, howner row hrow⟩
      rw [Table.modify_apply, if_pos rfl, hrow]
      rfl

theorem expireIfNeeded_ok {requestId : RegistrationId} {request current : ServerRegistrationRequest}
    (hrow : h.registrations requestId = some request) (howner : request.ownerId = user)
    (hrun : (ServerRegistrationsService.expireIfNeeded env requestId request).run h =
      (.ok current, h')) :
    h'.registrations requestId = some current ∧ current.ownerId = user := by
  unfold ServerRegistrationsService.expireIfNeeded at hrun
  split at hrun
  · cases hrun
    exact ⟨hrow, howner⟩
  · obtain ⟨date, h₁, hnow, hrest⟩ := run_bind_ok hrun
    have hrow₁ : h₁.registrations requestId = some request := by
      cases hnow
      exact hrow
    split at hrest
    · cases hrest
      exact ⟨hrow₁, howner⟩
    · refine registrationUpdate_ok (fun row h => ?_) hrest
      rw [hrow₁] at h
      cases h
      exact howner

/-- In each of its four outcomes `decide` shows a request of the user. -/
theorem decideRegistration_ok {requestId : RegistrationId} {approve : Bool}
    {row : PublicRegistration}
    (hrun : (ServerRegistrationsService.decide env user requestId approve).run h =
      (.ok row, h')) : row.OwnedBy h' user := by
  unfold ServerRegistrationsService.decide at hrun
  rw [Proc.run_bind_of_ok (Proc.run_read _ h)] at hrun
  cases hrow : h.registrations requestId with
  | none =>
      rw [hrow] at hrun
      cases hrun
  | some request =>
      rw [hrow] at hrun
      dsimp only at hrun
      split at hrun
      · cases hrun
      · next howner =>
        obtain ⟨current, h₁, hexpire, hrest⟩ := run_bind_ok hrun
        obtain ⟨hstored, howns⟩ := expireIfNeeded_ok hrow (not_not.mp howner) hexpire
        have hcurrent : ∀ other, h₁.registrations requestId = some other →
            other.ownerId = user := fun other hother => by
          rw [hstored] at hother
          cases hother
          exact howns
        split at hrest
        · cases hrest
          exact ⟨current, hstored, howns, rfl⟩
        · split at hrest
          · obtain ⟨rejected, h₂, hupdate, hpure⟩ := run_bind_ok hrest
            cases hpure
            obtain ⟨hafter, hown⟩ := registrationUpdate_ok
              (fun row hrow => by exact hcurrent row hrow) hupdate
            exact ⟨rejected, hafter, hown, rfl⟩
          · obtain ⟨n, h₂, hdraw, hrest⟩ := run_bind_ok hrest
            obtain ⟨m, h₃, hdraw', hrest⟩ := run_bind_ok hrest
            obtain ⟨approved, h₄, happrove, hpure⟩ := run_bind_ok hrest
            cases hpure
            cases hdraw
            cases hdraw'
            unfold ServerRegistrationsService.approveTransaction at happrove
            rw [Proc.run_atomically] at happrove
            dsimp only at happrove
            split at happrove
            · next htransaction =>
              cases happrove
              obtain ⟨⟨serverId, server⟩, h₅, hcreate, hupdate⟩ := run_bind_ok htransaction
              cases hcreate
              obtain ⟨hafter, hown⟩ := registrationUpdate_ok
                (fun row hrow => by exact hcurrent row hrow) hupdate
              exact ⟨approved, hafter, hown, rfl⟩
            · cases happrove

/-! ## Requests -/

/-- A returning `map` of a program. -/
theorem run_map_ok {α β : Type} {g : α → β} {p : HubM α} {value : β}
    (hrun : (g <$> p).run h = (.ok value, h')) :
    ∃ first, p.run h = (.ok first, h') ∧ g first = value := by
  rw [Proc.run_map] at hrun
  cases hp : p.run h with
  | mk outcome h₁ =>
    rw [hp] at hrun
    cases outcome with
    | ok first =>
        cases hrun
        exact ⟨first, rfl, rfl⟩
    | error error => cases hrun

/-- **Answers are made of the caller's rows.** -/
theorem answer_owned {call : HubCall} {response : Response} (huser : call.user = some user)
    (hanswer : h.answer env call = .ok response) : response.OwnedBy (h.after env call) user := by
  have howner : ∀ {taskId task}, h.ownerOf taskId = some user →
      (h.after env call).tasks taskId = some task →
      (h.after env call).ownerOf taskId = some user := owner_after
  obtain ⟨final, hfinal⟩ : ∃ final, final = h.after env call := ⟨_, rfl⟩
  rw [← hfinal] at howner ⊢
  have hrun : (perform env call).run h = (.ok response, final) := by
    rw [hfinal, ← hanswer]
    rfl
  clear hanswer hfinal
  -- a call is made for one user, and its answer is built from rows that are checked against him
  cases call with
  | submit ownerId dto =>
      cases huser
      obtain ⟨⟨id, task⟩, h₁, hsubmit, hpure⟩ := run_bind_ok hrun
      cases hpure
      obtain ⟨rfl, htasks, hafter⟩ := submit_ok hsubmit
      exact ⟨by rw [htasks]; exact if_pos rfl, hafter⟩
  | findAllTasks ownerId =>
      cases huser
      obtain ⟨rows, hrows, rfl⟩ := run_map_ok hrun
      exact findAllForOwner_ok hrows
  | findOneTask ownerId taskId =>
      cases huser
      obtain ⟨⟨id, task⟩, h₁, hfind, hpure⟩ := run_bind_ok hrun
      cases hpure
      exact findOneForOwner_ok hfind
  | cancel ownerId taskId =>
      cases huser
      obtain ⟨⟨id, task⟩, h₁, hcancel, hpure⟩ := run_bind_ok hrun
      cases hpure
      obtain ⟨rfl, htask, hbefore⟩ := cancel_ok hcancel
      exact ⟨htask, howner hbefore htask⟩
  | listApprovals ownerId status =>
      cases huser
      obtain ⟨rows, hrows, rfl⟩ := run_map_ok hrun
      exact listForOwner_ok hrows
  | decideApproval ownerId approvalId dto =>
      cases huser
      obtain ⟨⟨id, approval⟩, h₁, hdecide, hpure⟩ := run_bind_ok hrun
      cases hpure
      obtain ⟨happroval, hbefore, hstored⟩ := decide_ok hdecide
      obtain ⟨task, htask⟩ := Option.ne_none_iff_exists'.mp hstored
      exact ⟨happroval, howner hbefore htask⟩
  | createServer ownerId dto =>
      cases huser
      obtain ⟨⟨server, apiKey⟩, h₁, hcreate, hpure⟩ := run_bind_ok hrun
      cases hpure
      exact createServer_ok hcreate
  | findAllServers ownerId =>
      cases huser
      obtain ⟨rows, hrows, rfl⟩ := run_map_ok hrun
      exact findAllServers_ok hrows
  | findOneServer ownerId serverId =>
      cases huser
      obtain ⟨row, hrow, rfl⟩ := run_map_ok hrun
      exact findOneServer_ok hrow
  | getHealth ownerId serverId =>
      cases huser
      obtain ⟨⟨status, heartbeat⟩, h₁, hhealth, hpure⟩ := run_bind_ok hrun
      cases hpure
      exact getHealth_ok hhealth
  | removeServer ownerId serverId =>
      obtain ⟨_, h₁, -, hpure⟩ := run_bind_ok hrun
      cases hpure
      trivial
  | findPendingRegistrations ownerId =>
      cases huser
      obtain ⟨rows, hrows, rfl⟩ := run_map_ok hrun
      exact findPending_ok hrows
  | decideRegistration ownerId requestId approve =>
      cases huser
      obtain ⟨row, hrow, rfl⟩ := run_map_ok hrun
      exact decideRegistration_ok hrow
  | _ => cases huser

end CodeCaller
