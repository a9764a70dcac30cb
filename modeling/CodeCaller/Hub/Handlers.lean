import CodeCaller.Hub.DispatchEffects
import CodeCaller.Hub.Nodes
import CodeCaller.Hub.ServiceEffects

/-!
# Every call as a chain of effects

The calls that are about servers and registrations, and then all of them: whatever call is made,
the rows move along a chain of its `Effect`s.

`after_effects` is the theorem everything about sequential runs goes through.  An invariant of the
rows is proved for one effect, extended along a chain by the rule for `Chain`, and then holds in
all reachable states of `hubMachine`.  The heads of the call are matched once, here; no later
module looks at the code of a handler to prove an invariant of the rows.

Registrations are not part of the rows: asking for one, listing them, collecting a key and letting
them expire are quiet.  Only an approval shows, as a new server of the user who approved.
-/

namespace CodeCaller

open Async

variable {env : Env} {call : HubCall} {h : Hub} {α β : Type}

/-! ## `ServersService` and `DaemonGateway` -/

/-- The status of a server changes, its owner never. -/
theorem serverUpdate_reaches {serverId : ServerId} {f : Server → Server} (hcall : call.Signals)
    (howner : ∀ server, (f server).ownerId = server.ownerId) :
    (Prisma.serverUpdate serverId f).Reaches (Effect env call) Hub.rows h := by
  unfold Prisma.serverUpdate Proc.Reaches
  rw [Proc.run_atomically]
  cases h.servers serverId with
  | none => exact .refl
  | some server => exact .single (.serverMarked h.rows hcall howner)

/-- A sign of life of a daemon. -/
theorem markHeartbeat_reaches {serverId : ServerId} (hcall : call.Signals) :
    (ServersService.markHeartbeat env serverId).Reaches (Effect env call) Hub.rows h :=
  .bind (.of_eq rfl) fun _ _ _ => serverUpdate_reaches hcall fun _ => rfl

/-- A socket goes, and with it its room. -/
theorem disconnect_reaches {socketId : ℕ}
    (hcall : call = .handleConnection socketId ∨ call = .handleDisconnect socketId) :
    (DaemonGateway.disconnect socketId).Reaches (Effect env call) Hub.rows h :=
  .single (.socketClosed h.rows socketId hcall)

/-- A connection that is accepted sets the data, joins the room and marks the server; one that is
refused ends. -/
theorem handleConnection_reaches {socketId : ℕ} (hcall : call = .handleConnection socketId) :
    (DaemonGateway.handleConnection env socketId).Reaches (Effect env call) Hub.rows h := by
  have hsignals : call.Signals := by rw [hcall]; trivial
  unfold DaemonGateway.handleConnection
  refine .bind (.of_eq rfl) fun apiKey h₁ _ => ?_
  cases apiKey with
  | none => exact disconnect_reaches (.inl hcall)
  | some apiKey =>
      refine .bind (.of_eq rfl) fun found h₂ hfind => ?_
      cases found with
      | none => exact disconnect_reaches (.inl hcall)
      | some found =>
          obtain ⟨serverId, server⟩ := found
          obtain ⟨rfl, hserver, -⟩ := findByApiKey_some hfind
          unfold Proc.Reaches
          have hsockets : (h₁.sockets.modify socketId fun socket =>
                { socket with data := some (serverId, server.ownerId) }).modify socketId
              (fun socket => { socket with room := some serverId }) =
              h₁.sockets.modify socketId fun socket =>
                { socket with data := some (serverId, server.ownerId), room := some serverId } :=
            Table.modify_modify _ _ _ _
          obtain ⟨h₂, hh₂⟩ : ∃ h₂ : Hub, h₂ = { h₁ with
            sockets := h₁.sockets.modify socketId fun socket =>
              { socket with data := some (serverId, server.ownerId), room := some serverId } } :=
            ⟨_, rfl⟩
          have haccepted : Effect env call h₁.rows h₂.rows := by
            rw [hh₂]
            exact .socketAccepted h₁.rows hcall hserver
          refine Relation.ReflTransGen.head haccepted ?_
          simp only [Proc.run_bind, Proc.run_modify, Proc.run_atomically, hsockets]
          rw [← hh₂]
          exact markHeartbeat_reaches hsignals

/-- The server is `OFFLINE` even if another socket of it is connected. -/
theorem handleDisconnect_reaches {socketId : ℕ} (hcall : call = .handleDisconnect socketId) :
    (DaemonGateway.handleDisconnect socketId).Reaches (Effect env call) Hub.rows h := by
  have hsignals : call.Signals := by rw [hcall]; trivial
  refine .bind (.of_eq rfl) fun data _ _ => .bind (disconnect_reaches (.inr hcall))
    fun _ _ _ => ?_
  cases data with
  | none => exact .of_eq rfl
  | some data => exact serverUpdate_reaches hsignals fun _ => rfl

/-- A heartbeat marks the server of its socket. -/
theorem onHeartbeat_reaches {socketId : ℕ} (hcall : call.Signals) :
    (DaemonGateway.onHeartbeat env socketId).Reaches (Effect env call) Hub.rows h := by
  refine .bind (.of_eq rfl) fun data _ _ => ?_
  cases data with
  | none => exact .of_eq rfl
  | some data => exact markHeartbeat_reaches hcall

/-- A new server of the user, with its profiles. -/
theorem createServer_reaches {ownerId : UserId} {dto : CreateServerDto}
    (huser : call.user = some ownerId) :
    (ServersService.create env ownerId dto).Reaches (Effect env call) Hub.rows h := by
  refine .bind (.of_eq rfl) fun n h₁ _ => .bind ?_ fun _ _ _ => .of_eq rfl
  exact .single (.serverAdded h₁.rows ServersService.defaultWorkerProfiles huser)

/-- A server goes with its tasks, their attempts and their approvals. -/
theorem remove_reaches {ownerId : UserId} {serverId : ServerId}
    (hcall : call = .removeServer ownerId serverId) :
    (ServersService.remove ownerId serverId).Reaches (Effect env call) Hub.rows h := by
  unfold ServersService.remove
  refine .bind (.of_eq (congrArg Hub.rows (getOwnedServer_spec rfl).1.symm))
    fun server h₁ hget => ?_
  obtain ⟨rfl, howned⟩ := getOwnedServer_spec hget
  obtain ⟨hserver, howner⟩ := howned server rfl
  unfold ServersService.serverDelete Proc.Reaches
  rw [Proc.run_atomically, hserver]
  have hsurvives : ∀ taskId, ServersService.survives h serverId taskId =
      (h.tasks taskId).any fun task => task.serverId != serverId := fun taskId => by
    unfold ServersService.survives
    cases h.tasks taskId <;> rfl
  refine .single ?_
  simp only [hsurvives]
  exact .serverDeleted h.rows hcall hserver howner

/-! ## `ServerRegistrationsService` -/

/-- What is done to registrations does not show in the rows. -/
theorem reaches_of_registers {p : HubM α} (hp : p.Guarantees RegistersOnly) (h : Hub) :
    p.Reaches (Effect env call) Hub.rows h :=
  reaches_of_quiet (hp.mono RegistersOnly.quiet) h

/-- An approval creates a server of the user who approved, or nothing. -/
theorem approveTransaction_reaches {ownerId : UserId} {requestId : RegistrationId}
    {request : ServerRegistrationRequest} {apiKeyHash : JsString}
    {encrypted : RequestSecretEnvelope} (huser : call.user = some ownerId) :
    (ServerRegistrationsService.approveTransaction env ownerId requestId request apiKeyHash
      encrypted).Reaches (Effect env call) Hub.rows h := by
  unfold ServerRegistrationsService.approveTransaction Proc.Reaches
  rw [Proc.run_atomically]
  unfold ServersService.serverCreate Prisma.registrationUpdate
  simp only [Proc.run_bind, Proc.run_atomically]
  cases h.registrations requestId with
  | none => exact .refl
  | some row => exact .single (.serverAdded h.rows _ huser)

/-- At most one server is added, of the user who decides. -/
theorem decideRegistration_reaches {ownerId : UserId} {requestId : RegistrationId}
    {approve : Bool} (huser : call.user = some ownerId) :
    (ServerRegistrationsService.decide env ownerId requestId approve).Reaches (Effect env call)
      Hub.rows h := by
  unfold ServerRegistrationsService.decide
  refine .bind (.of_eq rfl) fun request _ _ => ?_
  cases request with
  | none => exact .of_eq rfl
  | some request =>
      refine .ite (fun _ => .of_eq rfl) fun _ =>
        .bind (reaches_of_registers expireIfNeeded_registers _) fun current _ _ =>
        .ite (fun _ => .of_eq rfl) fun _ => .ite (fun _ => ?_) fun _ => ?_
      · refine reaches_of_registers (Proc.Guarantees.bind (registrationUpdate_registers ?_) fun _ =>
          Proc.guarantees_pure _) _
        exact fun _ => rfl
      · exact .bind (.of_eq rfl) fun _ _ _ => .bind (.of_eq rfl) fun _ _ _ =>
          .bind (approveTransaction_reaches huser) fun _ _ _ => .of_eq rfl

/-! ## All calls -/

/-- **Every call is a chain of its effects.** -/
theorem after_effects (env : Env) (h : Hub) (call : HubCall) :
    Relation.ReflTransGen (Effect env call) h.rows (h.after env call).rows := by
  change (perform env call).Reaches (Effect env call) Hub.rows h
  cases hcall : call with
  | submit ownerId dto => exact .bind (submit_reaches rfl) fun _ _ _ => .of_eq rfl
  | findAllTasks ownerId => exact .of_eq rfl
  | findOneTask ownerId taskId =>
      exact .bind (.bind (.of_eq (congrArg Hub.rows (getOwnedTask_spec rfl).1.symm))
        fun _ _ _ => .of_eq rfl) fun _ _ _ => .of_eq rfl
  | cancel ownerId taskId => exact .bind (cancel_reaches rfl) fun _ _ _ => .of_eq rfl
  | listApprovals ownerId status =>
      refine .bind ?_ fun _ _ _ => .of_eq rfl
      unfold ApprovalsService.listForOwner
      split <;> exact .of_eq rfl
  | decideApproval ownerId approvalId dto =>
      exact .bind (decide_reaches rfl) fun _ _ _ => .of_eq rfl
  | createServer ownerId dto => exact .bind (createServer_reaches rfl) fun _ _ _ => .of_eq rfl
  | findAllServers ownerId => exact .of_eq rfl
  | findOneServer ownerId serverId =>
      exact .bind (.bind (.of_eq (congrArg Hub.rows (getOwnedServer_spec rfl).1.symm))
        fun _ _ _ => .of_eq rfl) fun _ _ _ => .of_eq rfl
  | getHealth ownerId serverId =>
      exact .bind (.bind (.of_eq (congrArg Hub.rows (getOwnedServer_spec rfl).1.symm))
        fun _ _ _ => .of_eq rfl) fun _ _ _ => .of_eq rfl
  | removeServer ownerId serverId => exact .bind (remove_reaches rfl) fun _ _ _ => .of_eq rfl
  | findPendingRegistrations ownerId =>
      exact .bind (reaches_of_registers findPendingForOwner_registers h) fun _ _ _ => .of_eq rfl
  | decideRegistration ownerId requestId approve =>
      exact .bind (decideRegistration_reaches rfl) fun _ _ _ => .of_eq rfl
  | createRegistration dto =>
      exact .bind (reaches_of_registers createRegistration_registers h) fun _ _ _ => .of_eq rfl
  | getRegistrationResult requestId requestSecret =>
      exact .bind (reaches_of_registers getResult_registers h) fun _ _ _ => .of_eq rfl
  | openSocket apiKey => exact .single (.socketOpened h.rows rfl)
  | handleConnection socketId =>
      exact .bind (handleConnection_reaches rfl) fun _ _ _ => .of_eq rfl
  | handleDisconnect socketId =>
      exact .bind (handleDisconnect_reaches rfl) fun _ _ _ => .of_eq rfl
  | message socketId inbound =>
      refine .bind ?_ fun _ _ _ => .of_eq rfl
      cases inbound with
      | HEARTBEAT => exact onHeartbeat_reaches trivial
      | TASK_STATUS_UPDATE payload => exact handleDaemonTaskStatus_reaches rfl
      | TASK_LOG payload => exact handleDaemonTaskLog_reaches rfl
      | TASK_RESULT payload => exact handleDaemonTaskResult_reaches rfl
      | APPROVAL_REQUEST payload => exact handleDaemonApprovalRequest_reaches rfl
  | dispatch jobId => exact .bind (runJob_reaches rfl) fun _ _ _ => .of_eq rfl
  | watchdog => exact .bind (scanStuckTasksOnce_reaches rfl) fun _ _ _ => .of_eq rfl

end CodeCaller
