import CodeCaller.Hub.Answers
import CodeCaller.Hub.Reasons

/-!
# What a request is answered with

The answer to a request is made of rows that its call has found or left, at some node of its own;
by the time it is sent they may have changed.  Here every answer is traced to the states the call
has passed.  What the nodes do to the rows does not matter for that, so it is left open (`Free`),
and put together with the deeds in the end.

* `Response.Found`: what a call knows about the rows of its answer.  It has left them as they are
  shown, and has found that they are the user's; these may be two states, where the handler looks
  at the row and at its owner by two nodes.
* `Response.Distinct`: no row is listed twice.
* `perform_replies`: the answers of all requests.
* `perform_recalls`: a call acts on what it has seen, and answers on what it has seen.  A run of
  the composed system is recorded by it.
-/

namespace CodeCaller

open Async

variable {env : Env} {past : Past} {user : UserId}

/-- Nothing is asked of the nodes of a call. -/
abbrev Free (_ : Past) (_ _ : Hub) : Prop := True

/-- A public registration shows a row as it is stored. -/
def PublicRegistration.ShownIn (registration : PublicRegistration) (h : Hub) : Prop :=
  ∃ row, h.registrations registration.id = some row ∧
    registration = ServerRegistrationsService.toPublic registration.id row

/-- A registration is of a user. -/
def Hub.RegistrationOf (h : Hub) (requestId : RegistrationId) (user : UserId) : Prop :=
  ∃ row, h.registrations requestId = some row ∧ row.ownerId = user

/-- No row is listed twice. -/
def Response.Distinct : Response → Prop
  | .tasks rows => (rows.map (·.1)).Nodup
  | .approvals rows => (rows.map (·.1)).Nodup
  | .servers rows => (rows.map (·.id)).Nodup
  | .registrations rows => (rows.map (·.id)).Nodup
  | _ => True

/-- **What a call knows about the rows of its answer**: it has left them as they are shown, and
has found that they are the user's. -/
def Response.Found (past : Past) (user : UserId) : Response → Prop
  | .task id row => (Left past fun h => h.tasks id = some row) ∧
      ((Saw past fun h => h.ownerOf id = some user) ∨
        Saw past fun h => h.ServerOf row.serverId user)
  | .approval id row => (Left past fun h => h.approvals id = some row) ∧
      ∃ taskId, Saw past fun h => h.AskedOf id user taskId
  | .registration row => (Left past row.ShownIn) ∧ Left past fun h => h.RegistrationOf row.id user
  | .done => True
  | response => (Left past fun h => response.OwnedBy h user) ∧ response.Distinct

/-- A list of rows with distinct keys. -/
theorem Response.Found.distinct {response : Response} (h : response.Found past user) :
    response.Distinct := by
  cases response with
  | done | task | approval | registration => trivial
  | _ => exact h.2

/-- A call that does not get to an answer. -/
theorem free_throw {α : Type} {post : Past → α → Prop} (error : HubError) :
    (throw error : HubM α).Recalls Free post past := Proc.recalls_throw _

/-- A query, and what it found. -/
theorem free_read {α : Type} {query : Hub → α} {post : Past → α → Prop}
    (h : ∀ s, post (past ++ [(s, s)]) (query s)) :
    (Proc.read query : HubM α).Recalls Free post past :=
  Proc.recalls_read (fun _ _ => trivial) h

/-- An answer that is returned at the end. -/
theorem free_answer {α : Type} {p : HubM α} {post : Past → α → Prop} {answer : α → Response}
    (hp : p.Recalls Free post past)
    (h : ∀ past' value, post past' value → (answer value).Found past' user) :
    (p >>= fun value => pure (answer value)).Recalls Free
      (fun past' response => response.Found past' user) past :=
  hp.bind fun value past' _ hpost => Proc.recalls_pure (h past' value hpost)

/-! ## Tasks -/

/-- The task and its owner are one reading. -/
theorem getOwnedTask_found (taskId : TaskId) :
    (TasksService.getOwnedTask user taskId).Recalls Free (fun past' task =>
      (Saw past' fun h => h.tasks taskId = some task ∧ h.ownerOf taskId = some user) ∧
        Left past' fun h => h.tasks taskId = some task) past := by
  have hread : (Prisma.taskFindUniqueWithServer taskId).Recalls Free
      (fun past' found => ∀ task server, found = some (task, server) →
        (Saw past' fun h => h.tasks taskId = some task ∧
          h.ownerOf taskId = some server.ownerId) ∧
          Left past' fun h => h.tasks taskId = some task) past := by
    refine free_read fun h task server hfound => ?_
    obtain ⟨htask, hserver⟩ := taskWithServer_some hfound
    exact ⟨saw_last ⟨htask, ownerOf_of_rows (r := h.rows) htask hserver⟩, left_last htask⟩
  refine hread.bind fun found past' _ hfound => ?_
  cases found with
  | none => exact free_throw _
  | some found =>
      refine Proc.Recalls.ite (fun _ => free_throw _) fun howner => Proc.recalls_pure ?_
      have hboth := hfound found.1 found.2 rfl
      rwa [not_not.mp howner] at hboth

/-- The task that is returned was found to be the user's. -/
theorem findOneForOwner_found (taskId : TaskId) :
    (TasksService.findOneForOwner user taskId).Recalls Free (fun past' row =>
      (Left past' fun h => h.tasks row.1 = some row.2) ∧
        Saw past' fun h => h.ownerOf row.1 = some user) past :=
  (getOwnedTask_found taskId).bind fun _ _ _ hfound =>
    Proc.recalls_pure ⟨hfound.2, hfound.1.mono fun _ h => h.2⟩

/-- The server that is returned is the user's. -/
theorem getOwnedServer_found (serverId : ServerId) :
    (ServersService.getOwnedServer user serverId).Recalls Free (fun past' server =>
      server.ownerId = user ∧ (Saw past' fun h => h.ServerOf serverId user) ∧
        Left past' fun h => h.servers serverId = some server) past := by
  have hread : (Proc.read fun h : Hub => h.servers serverId : HubM (Option Server)).Recalls Free
      (fun past' found => ∀ server, found = some server →
        (Saw past' fun h => h.ServerOf serverId server.ownerId) ∧
          Left past' fun h => h.servers serverId = some server) past :=
    free_read fun h server hfound =>
      ⟨saw_last (show h.ServerOf _ _ from ⟨server, hfound, rfl⟩), left_last hfound⟩
  refine hread.bind fun found past' _ hfound => ?_
  cases found with
  | none => exact free_throw _
  | some server =>
      refine Proc.Recalls.ite (fun _ => free_throw _) fun howner => Proc.recalls_pure ?_
      obtain ⟨hsaw, hleft⟩ := hfound server rfl
      rw [not_not.mp howner] at hsaw
      exact ⟨not_not.mp howner, hsaw, hleft⟩

/-- The new task, on a server that was found to be the user's. -/
theorem submit_found (dto : CreateTaskDto) :
    (TasksService.submit env user dto).Recalls Free (fun past' row =>
      (Left past' fun h => h.tasks row.1 = some row.2) ∧
        Saw past' fun h => h.ServerOf row.2.serverId user) past := by
  have howned : (ServersService.findOneForOwner user dto.serverId).Recalls Free
      (fun past' _ => Saw past' fun h => h.ServerOf dto.serverId user) past :=
    (getOwnedServer_found dto.serverId).bind fun _ _ _ h => Proc.recalls_pure h.2.1
  refine howned.bind fun _ past₁ _ hserver => ?_
  have hcreate : (Prisma.taskCreate env dto.serverId dto.workerType dto.input).Recalls Free
      (fun past' row => row.2.serverId = dto.serverId ∧
        Left past' fun h => h.tasks row.1 = some row.2) past₁ := by
    refine Proc.recalls_atomically fun h => ⟨trivial, fun row hrow => ?_⟩
    cases hstored : h.servers dto.serverId with
    | none =>
        rw [hstored] at hrow
        cases hrow
    | some server =>
        rw [hstored] at hrow
        cases hrow
        exact ⟨rfl, left_last (if_pos rfl)⟩
  refine hcreate.bind fun created past₂ hgrows₂ hcreated => ?_
  refine (Proc.recalls_any (enqueueDispatch _)).bind fun _ past₃ hgrows₃ _ => ?_
  refine (Proc.recalls_any _).bind fun _ past₄ hgrows₄ _ => ?_
  refine Proc.recalls_pure ⟨hcreated.2.later (hgrows₃.trans hgrows₄), ?_⟩
  rw [hcreated.1]
  exact hserver.later (hgrows₂.trans (hgrows₃.trans hgrows₄))

/-- A task that was updated was left so. -/
theorem taskUpdate_found (taskId : TaskId) (f : Task → Task) :
    (Prisma.taskUpdate env taskId f).Recalls Free
      (fun past' task => Left past' fun h => h.tasks taskId = some task) past := by
  refine Proc.recalls_atomically fun h => ⟨trivial, fun task heq => ?_⟩
  cases htask : h.tasks taskId with
  | none =>
      rw [htask] at heq
      cases heq
  | some before =>
      rw [htask] at heq
      dsimp only at heq
      split at heq
      · cases heq
      · next hstays =>
        cases heq
        refine left_last ?_
        dsimp only
        rw [if_neg hstays, Table.modify_apply, if_pos rfl, htask]
        rfl

/-- What is returned is the row as the update has left it. -/
theorem updateStatus_found (taskId : TaskId) (status : StatusRef) (result : Option Json) :
    (TasksService.updateStatus env (.id taskId) status result).Recalls Free (fun past' row =>
      row.1 = taskId ∧ Left past' fun h => h.tasks taskId = some row.2.1) past := by
  refine Proc.Recalls.ite (fun _ => free_throw _) fun _ => ?_
  refine (taskUpdate_found taskId _).bind fun task past₁ _ hrow => ?_
  refine (Proc.recalls_any _).bind fun server past₂ hgrows₂ _ => ?_
  refine (Proc.recalls_any _).bind fun _ past₃ hgrows₃ _ => ?_
  exact Proc.recalls_pure ⟨rfl, hrow.later (hgrows₂.trans hgrows₃)⟩

/-- The task as it was cancelled; it was the user's when it was looked up. -/
theorem cancel_found (taskId : TaskId) :
    (TasksService.cancel env user taskId).Recalls Free (fun past' row =>
      (Left past' fun h => h.tasks row.1 = some row.2) ∧
        Saw past' fun h => h.ownerOf row.1 = some user) past := by
  refine (getOwnedTask_found taskId).bind fun task past₁ _ hfound => ?_
  refine (Proc.recalls_any _).bind fun adapter past₂ hgrows₂ _ => ?_
  refine (Proc.recalls_any _).bind fun _ past₃ hgrows₃ _ => ?_
  refine (updateStatus_found taskId _ _).bind fun updated past₄ hgrows₄ hupdated => ?_
  obtain ⟨hid, hrow⟩ := hupdated
  refine Proc.recalls_pure ⟨hid ▸ hrow, ?_⟩
  rw [hid]
  exact (hfound.1.later (hgrows₂.trans (hgrows₃.trans hgrows₄))).mono fun _ h => h.2

/-! ## Approvals -/

/-- An approval that was updated was left so. -/
theorem approvalUpdate_found (approvalId : ApprovalId) (f : Approval → Approval) :
    (Prisma.approvalUpdate approvalId f).Recalls Free
      (fun past' approval => Left past' fun h => h.approvals approvalId = some approval) past := by
  refine Proc.recalls_atomically fun h => ⟨trivial, fun approval heq => ?_⟩
  cases hrow : h.approvals approvalId with
  | none =>
      rw [hrow] at heq
      cases heq
  | some before =>
      rw [hrow] at heq
      cases heq
      refine left_last ?_
      dsimp only
      rw [Table.modify_apply, if_pos rfl, hrow]
      rfl

/-- The approval as it was decided; its task was the user's when it was looked up. -/
theorem decide_found (approvalId : ApprovalId) (dto : DecideApprovalDto) :
    (ApprovalsService.decide env user approvalId dto).Recalls Free (fun past' row =>
      (Left past' fun h => h.approvals row.1 = some row.2) ∧
        ∃ taskId, Saw past' fun h => h.AskedOf row.1 user taskId) past := by
  have hread : (Proc.read fun h : Hub => ApprovalsService.approvalWithTask h approvalId :
      HubM _).Recalls Free (fun past' found => ∀ approval task server,
        found = some (approval, task, server) →
          Saw past' fun h => h.AskedOf approvalId server.ownerId approval.taskId) past := by
    refine free_read fun h approval task server hfound => saw_last ?_
    obtain ⟨happroval, htask, hserver⟩ := approvalWithTask_some hfound
    exact ⟨⟨approval, happroval, rfl⟩, ownerOf_of_rows (r := h.rows) htask hserver⟩
  refine hread.bind fun found past₁ _ hfound => ?_
  cases found with
  | none => exact free_throw _
  | some found =>
      obtain ⟨approval, task, server⟩ := found
      refine Proc.Recalls.ite (fun _ => free_throw _) fun howner => ?_
      have hasked := hfound approval task server rfl
      rw [not_not.mp howner] at hasked
      refine Proc.Recalls.ite (fun _ => free_throw _) fun _ => ?_
      refine (Proc.recalls_any _).bind fun date past₂ hgrows₂ _ => ?_
      refine (approvalUpdate_found approvalId _).bind fun updated past₃ hgrows₃ hrow => ?_
      refine (Proc.recalls_any _).bind fun _ past₄ hgrows₄ _ => ?_
      refine (Proc.recalls_any _).bind fun _ past₅ hgrows₅ _ => ?_
      refine (Proc.recalls_any _).bind fun _ past₆ hgrows₆ _ => ?_
      have hrest := hgrows₄.trans (hgrows₅.trans hgrows₆)
      exact Proc.recalls_pure ⟨hrow.later hrest,
        approval.taskId, hasked.later (hgrows₂.trans (hgrows₃.trans hrest))⟩

/-! ## Registrations -/

/-- A registration that was updated was left so. -/
theorem registrationUpdate_found (requestId : RegistrationId)
    (f : ServerRegistrationRequest → ServerRegistrationRequest) :
    (Prisma.registrationUpdate requestId f).Recalls Free (fun past' request =>
      Left past' fun h => h.registrations requestId = some request) past := by
  refine Proc.recalls_atomically fun h => ⟨trivial, fun request heq => ?_⟩
  cases hrow : h.registrations requestId with
  | none =>
      rw [hrow] at heq
      cases heq
  | some before =>
      rw [hrow] at heq
      cases heq
      refine left_last ?_
      dsimp only
      rw [Table.modify_apply, if_pos rfl, hrow]
      rfl

/-- The request as it was, or as the expiry has left it. -/
theorem expireIfNeeded_found {requestId : RegistrationId} {request : ServerRegistrationRequest}
    (hrow : Left past fun h => h.registrations requestId = some request) :
    (ServerRegistrationsService.expireIfNeeded env requestId request).Recalls Free
      (fun past' current => Left past' fun h => h.registrations requestId = some current)
      past := by
  refine Proc.Recalls.ite (fun _ => Proc.recalls_pure hrow) fun _ => ?_
  refine (Proc.recalls_any _).bind fun date past₂ hgrows₂ _ => ?_
  refine Proc.Recalls.ite (fun _ => Proc.recalls_pure (hrow.later hgrows₂)) fun _ => ?_
  exact registrationUpdate_found requestId _

/-- The transaction of an approval leaves the request as it returns it. -/
theorem approveTransaction_found (requestId : RegistrationId)
    (request : ServerRegistrationRequest) (apiKeyHash : JsString)
    (encrypted : RequestSecretEnvelope) :
    (ServerRegistrationsService.approveTransaction env user requestId request apiKeyHash
      encrypted).Recalls Free (fun past' approved =>
        Left past' fun h => h.registrations requestId = some approved) past := by
  refine Proc.recalls_atomically fun h => ⟨trivial, fun approved heq => ?_⟩
  dsimp only at heq ⊢
  split at heq
  · next hrun =>
    cases heq
    obtain ⟨created, h₁, -, hupdate⟩ := run_bind_ok hrun
    refine left_last ?_
    unfold Prisma.registrationUpdate at hupdate
    rw [Proc.run_atomically] at hupdate
    cases hrow : h₁.registrations requestId with
    | none =>
        rw [hrow] at hupdate
        cases hupdate
    | some before =>
        rw [hrow] at hupdate
        cases hupdate
        dsimp only
        rw [Table.modify_apply, if_pos rfl, hrow]
        rfl
  · cases heq

/-- The request as it was left, which was addressed to the user. -/
theorem decideRegistration_found (requestId : RegistrationId) (approve : Bool) :
    (ServerRegistrationsService.decide env user requestId approve).Recalls Free (fun past' row =>
      (Left past' row.ShownIn) ∧ Left past' fun h => h.RegistrationOf row.id user) past := by
  have hread : (Proc.read fun h : Hub => h.registrations requestId : HubM _).Recalls Free
      (fun past' found => ∀ request, found = some request →
        (Left past' fun h => h.registrations requestId = some request) ∧
          Left past' fun h => h.RegistrationOf requestId request.ownerId) past :=
    free_read fun h request hfound =>
      ⟨left_last hfound, left_last (show h.RegistrationOf _ _ from ⟨request, hfound, rfl⟩)⟩
  refine hread.bind fun found past₁ _ hfound => ?_
  cases found with
  | none => exact free_throw _
  | some request =>
      refine Proc.Recalls.ite (fun _ => free_throw _) fun howner => ?_
      obtain ⟨hrow, hof⟩ := hfound request rfl
      rw [not_not.mp howner] at hof
      have hshown : ∀ {past' : Past} {current : ServerRegistrationRequest}, past₁ <+: past' →
          (Left past' fun h => h.registrations requestId = some current) →
          (pure (ServerRegistrationsService.toPublic requestId current) :
            HubM PublicRegistration).Recalls Free (fun past' row => (Left past' row.ShownIn) ∧
              Left past' fun h => h.RegistrationOf row.id user) past' :=
        fun hgrows hleft => Proc.recalls_pure
          ⟨hleft.mono fun h hstored => ⟨_, hstored, rfl⟩, hof.later hgrows⟩
      refine (expireIfNeeded_found hrow).bind fun current past₂ hgrows₂ hcurrent => ?_
      refine Proc.Recalls.ite (fun _ => hshown hgrows₂ hcurrent) fun _ => ?_
      refine Proc.Recalls.ite (fun _ => ?_) fun _ => ?_
      · exact (registrationUpdate_found requestId _).bind fun rejected past₃ hgrows₃ hrejected =>
          hshown (hgrows₂.trans hgrows₃) hrejected
      · refine (Proc.recalls_any _).bind fun keyDraw past₃ hgrows₃ _ => ?_
        refine (Proc.recalls_any _).bind fun ivDraw past₄ hgrows₄ _ => ?_
        exact (approveTransaction_found requestId request _ _).bind fun approved past₅ hgrows₅
          happroved => hshown (hgrows₂.trans (hgrows₃.trans (hgrows₄.trans hgrows₅))) happroved

/-! ## Lists of rows -/

/-- The order of the answer does not matter to the keys. -/
theorem nodup_orderByDesc {ρ : Type} {key : ρ → ℕ} {rows : List (ℕ × ρ)}
    (h : (rows.map (·.1)).Nodup) : ((orderByDesc env key rows).map (·.1)).Nodup :=
  (((List.perm_insertionSort _ _).trans (env.rowOrder_perm rows)).map _).nodup_iff.mpr h

/-- The rows of a query have different ids. -/
theorem nodup_filter {ρ : Type} (t : Table ρ) (keep : ℕ × ρ → Bool) :
    ((t.toList.filter keep).map (·.1)).Nodup :=
  t.nodup_keys.sublist (List.filter_sublist.map _)

/-- The list is one reading. -/
theorem findAllForOwner_found :
    (TasksService.findAllForOwner env user).Recalls Free (fun past' rows =>
      (Left past' fun h => (Response.tasks rows).OwnedBy h user) ∧
        (Response.tasks rows).Distinct) past :=
  free_read fun h => ⟨left_last (@findAllForOwner_ok env h h user _ (Proc.run_read _ h)),
    nodup_orderByDesc (nodup_filter _ _)⟩

/-- What `listForOwner` reads. -/
theorem nodup_listed (h : Hub) (status : Option (Option ApprovalStatus)) :
    (((orderByDesc env (fun row : Approval × Task => row.1.requestedAt)
      (h.approvals.toList.filterMap fun row => (h.taskWithServer row.2.taskId).bind fun found =>
        if found.2.ownerId = user ∧ (status = none ∨ status = some (some row.2.status)) then
          some (row.1, (row.2, found.1))
        else none)).map fun row => (row.1, row.2.1, row.2.2)).map (·.1)).Nodup := by
  rw [List.map_map]
  refine nodup_orderByDesc (h.approvals.nodup_keys_filterMap fun row found hfound => ?_)
  obtain ⟨task, -, hite⟩ := Option.bind_eq_some_iff.mp hfound
  split at hite
  · cases hite
    rfl
  · cases hite

/-- Approvals with their tasks, in one read. -/
theorem listForOwner_found (status : Option (Option ApprovalStatus)) :
    (ApprovalsService.listForOwner env user status).Recalls Free (fun past' rows =>
      (Left past' fun h => (Response.approvals rows).OwnedBy h user) ∧
        (Response.approvals rows).Distinct) past := by
  match status with
  | none =>
      exact free_read fun h =>
        ⟨left_last (@listForOwner_ok env h h user none _ (Proc.run_read _ h)), nodup_listed h none⟩
  | some none => exact free_throw _
  | some (some status) =>
      exact free_read fun h =>
        ⟨left_last (@listForOwner_ok env h h user (some (some status)) _ (Proc.run_read _ h)),
          nodup_listed h (some (some status))⟩

/-- The servers of the user. -/
theorem findAllServers_found :
    (ServersService.findAllForOwner env user).Recalls Free (fun past' rows =>
      (Left past' fun h => (Response.servers rows).OwnedBy h user) ∧
        (Response.servers rows).Distinct) past := by
  have hread : (Proc.read fun h : Hub => env.rowOrder (h.servers.toList.filter fun row =>
      row.2.ownerId == user) : HubM (List (ServerId × Server))).Recalls Free
      (fun past' servers => (Left past' fun h => ∀ row ∈ servers.map fun row =>
        ServersService.toPublic row.1 row.2, row.OwnedBy h user) ∧
          (servers.map (·.1)).Nodup) past :=
    free_read fun h => ⟨left_last (@findAllServers_ok env h h user _ rfl),
      ((env.rowOrder_perm _).map _).nodup_iff.mpr (nodup_filter _ _)⟩
  refine hread.bind fun servers past' _ hrows => Proc.recalls_pure ⟨hrows.1, ?_⟩
  change ((servers.map _).map PublicServer.id).Nodup
  rw [List.map_map]
  exact hrows.2

/-- The open requests to the user, after the expired ones were marked. -/
theorem findPending_found :
    (ServerRegistrationsService.findPendingForOwner env user).Recalls Free (fun past' rows =>
      (Left past' fun h => (Response.registrations rows).OwnedBy h user) ∧
        (Response.registrations rows).Distinct) past := by
  have hread : ∀ past', (Proc.read fun h : Hub => orderByDesc env (·.createdAt)
      (h.registrations.toList.filter fun row => row.2.ownerId == user &&
        row.2.status == .PENDING) :
        HubM (List (RegistrationId × ServerRegistrationRequest))).Recalls
      Free (fun past' requests => (Left past' fun h => ∀ row ∈ requests.map fun row =>
        ServerRegistrationsService.toPublic row.1 row.2, row.OwnedBy h user) ∧
          (requests.map (·.1)).Nodup) past' := by
    refine fun past' => free_read fun h => ⟨left_last fun row hmem => ?_,
      nodup_orderByDesc (nodup_filter _ _)⟩
    obtain ⟨⟨id, request⟩, hstored, rfl⟩ := List.mem_map.mp hmem
    rw [mem_orderByDesc, List.mem_filter, Table.mem_toList, Bool.and_eq_true, beq_iff_eq] at hstored
    exact ⟨request, hstored.1, hstored.2.1, rfl⟩
  refine (Proc.recalls_any _).bind fun _ past₁ _ _ => ?_
  refine (hread past₁).bind fun requests past₂ _ hrows => Proc.recalls_pure ⟨hrows.1, ?_⟩
  change ((requests.map _).map PublicRegistration.id).Nodup
  rw [List.map_map]
  exact hrows.2

/-! ## Servers -/

/-- The server as it was created. -/
theorem createServer_found (dto : CreateServerDto) :
    (ServersService.create env user dto).Recalls Free (fun past' created =>
      Left past' fun h => created.1.OwnedBy h user) past := by
  refine (Proc.recalls_any _).bind fun keyDraw past₁ _ _ => ?_
  have hcreate : (ServersService.serverCreate env user dto
      (hashApiKey env.crypto (generateApiKey env.crypto keyDraw))
      ServersService.defaultWorkerProfiles).Recalls Free (fun past' row =>
        Left past' fun h => (ServersService.toPublic row.1 row.2).OwnedBy h user) past₁ := by
    refine Proc.recalls_atomically fun h => ⟨trivial, fun row heq => ?_⟩
    cases heq
    exact left_last ⟨_, if_pos rfl, rfl, rfl⟩
  exact hcreate.bind fun row past₂ _ hleft => Proc.recalls_pure hleft

/-- What is shown of a server the user owns. -/
theorem findOneServer_found (serverId : ServerId) :
    (ServersService.findOneForOwner user serverId).Recalls Free (fun past' row =>
      Left past' fun h => row.OwnedBy h user) past :=
  (getOwnedServer_found serverId).bind fun server _ _ hfound =>
    Proc.recalls_pure (hfound.2.2.mono fun _ hstored => ⟨server, hstored, hfound.1, rfl⟩)

/-- The status of a server the user owns. -/
theorem getHealth_found (serverId : ServerId) :
    (ServersService.getHealth user serverId).Recalls Free (fun past' health =>
      Left past' fun h => (Response.health health.1 health.2).OwnedBy h user) past :=
  (getOwnedServer_found serverId).bind fun server _ _ hfound =>
    Proc.recalls_pure (hfound.2.2.mono fun _ hstored =>
      ⟨serverId, server, hstored, hfound.1, rfl, rfl⟩)

/-! ## Every call -/

/-- **The answer to a request is made of rows its call has found or left.** -/
theorem perform_replies {call : HubCall} (huser : call.user = some user) :
    (perform env call).Recalls Free (fun past' response => response.Found past' user) past := by
  cases call <;> cases huser
  case submit dto =>
    exact free_answer (submit_found dto) fun _ _ h => ⟨h.1, .inr h.2⟩
  case findAllTasks =>
    exact findAllForOwner_found.bind fun rows _ _ h => Proc.recalls_pure h
  case findOneTask taskId =>
    exact free_answer (findOneForOwner_found taskId) fun _ _ h => ⟨h.1, .inl h.2⟩
  case cancel taskId =>
    exact free_answer (cancel_found taskId) fun _ _ h => ⟨h.1, .inl h.2⟩
  case listApprovals status =>
    exact (listForOwner_found status).bind fun rows _ _ h => Proc.recalls_pure h
  case decideApproval approvalId dto =>
    exact free_answer (decide_found approvalId dto) fun _ _ h => h
  case createServer dto =>
    exact free_answer (createServer_found dto) fun _ _ h => ⟨h, trivial⟩
  case findAllServers =>
    exact findAllServers_found.bind fun rows _ _ h => Proc.recalls_pure h
  case findOneServer serverId =>
    exact (findOneServer_found serverId).bind fun row _ _ h => Proc.recalls_pure ⟨h, trivial⟩
  case getHealth serverId =>
    exact free_answer (getHealth_found serverId) fun _ _ h => ⟨h, trivial⟩
  case removeServer serverId =>
    exact (Proc.recalls_any _).bind fun _ _ _ _ => Proc.recalls_pure trivial
  case findPendingRegistrations =>
    exact findPending_found.bind fun rows _ _ h => Proc.recalls_pure h
  case decideRegistration requestId approve =>
    exact (decideRegistration_found requestId approve).bind fun row _ _ h => Proc.recalls_pure h

/-- What a call may answer, given its past. -/
def HubCall.MayAnswer (call : HubCall) (past : Past) (response : Response) : Prop :=
  ∀ user, call.user = some user → response.Found past user

/-- **A call acts and answers on what it has seen.** -/
theorem perform_recalls (env : Env) (call : HubCall) :
    (perform env call).Recalls (Deed env call) call.MayAnswer [] := by
  cases huser : call.user with
  | none =>
      refine (perform_deeds env call).mono fun past' response _ _ => ?_
      intro user hsome
      rw [huser] at hsome
      cases hsome
  | some user =>
      refine ((perform_deeds env call).and (perform_replies huser)).mono
        fun past' response _ hboth => ?_
      intro other hsome
      rw [huser] at hsome
      cases hsome
      exact hboth.2

end CodeCaller
