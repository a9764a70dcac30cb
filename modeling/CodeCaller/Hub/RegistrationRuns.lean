import CodeCaller.Hub.Operations

/-!
# Runs of `ServerRegistrationsService`

Each uninterrupted operation on registrations makes one change to the tables of requests and
servers, or none.  `LedgerStep` lists these changes with what the code checked before.

The `Ledger` is the part of the Hub the life of a credential takes place in: requests, servers, and
the number of draws, which is what a key is made of.  The functions `expired`, `rejected`,
`approved`, `delivered` and `unlinked` are the updates of a request, under one name each, so that
an invariant says what it thinks of each of them once.

Creating and deleting servers by hand belongs to the ledger too: the first draws a key from the
same source, the second takes the server of a request away.
-/

namespace CodeCaller

open Async

variable {env : Env} {h : Hub}

/-! ## Changes of a request -/

namespace ServerRegistrationRequest

/-- The row, once its time has passed, -/
def expired (request : ServerRegistrationRequest) : ServerRegistrationRequest :=
  { request with status := .EXPIRED }

/-- `updateMany` on one request. -/
def swept (date : Time) (request : ServerRegistrationRequest) : ServerRegistrationRequest :=
  if request.status = .PENDING ∧ request.expiresAt < date then request.expired else request

/-- once it is rejected, -/
def rejected (request : ServerRegistrationRequest) : ServerRegistrationRequest :=
  { request with status := .REJECTED }

/-- once it is approved, with the server and the sealed key, -/
def approved (serverId : ServerId) (envelope : RequestSecretEnvelope)
    (request : ServerRegistrationRequest) : ServerRegistrationRequest :=
  { request with
    status := .APPROVED
    serverId := some serverId
    apiKeyCiphertext := some envelope.ciphertext
    apiKeyIv := some envelope.iv
    apiKeyAuthTag := some envelope.authTag }

/-- and once its key was handed out. -/
def delivered (request : ServerRegistrationRequest) : ServerRegistrationRequest :=
  { request with
    status := .CREDENTIAL_DELIVERED
    apiKeyCiphertext := none
    apiKeyIv := none
    apiKeyAuthTag := none }

/-- `onDelete: SetNull`. -/
def unlinked (serverId : ServerId) (request : ServerRegistrationRequest) :
    ServerRegistrationRequest :=
  if request.serverId = some serverId then { request with serverId := none } else request

end ServerRegistrationRequest

/-! ## Database operations -/

/-- An update of a row that is stored. -/
theorem registrationUpdate_run {id : RegistrationId} {request : ServerRegistrationRequest}
    {f : ServerRegistrationRequest → ServerRegistrationRequest}
    (hrow : h.registrations id = some request) :
    (Prisma.registrationUpdate id f).run h =
      (.ok (f request), { h with registrations := h.registrations.modify id f }) := by
  unfold Prisma.registrationUpdate
  rw [Proc.run_atomically, hrow]
  have hmodify : h.registrations.modify id (fun _ => f request) = h.registrations.modify id f :=
    Table.modify_congr fun row hother => by
      rw [hrow] at hother
      cases hother
      rfl
  dsimp only
  rw [hmodify]

/-- `expireIfNeeded` leaves a request alone that is not pending or not past its
time. -/
theorem expireIfNeeded_run {id : RegistrationId} {request : ServerRegistrationRequest}
    (hrow : h.registrations id = some request) :
    (request.status ≠ .PENDING ∧
      (ServerRegistrationsService.expireIfNeeded env id request).run h = (.ok request, h)) ∨
    (request.status = .PENDING ∧ env.clock h.reads ≤ request.expiresAt ∧
      (ServerRegistrationsService.expireIfNeeded env id request).run h =
        (.ok request, { h with reads := h.reads + 1 })) ∨
    (request.status = .PENDING ∧ request.expiresAt < env.clock h.reads ∧
      (ServerRegistrationsService.expireIfNeeded env id request).run h =
        (.ok request.expired, { h with
          reads := h.reads + 1
          registrations := h.registrations.modify id (·.expired) })) := by
  unfold ServerRegistrationsService.expireIfNeeded
  by_cases hpending : request.status = .PENDING
  · rw [if_neg (not_not.mpr hpending), Proc.run_bind_of_ok now_run]
    by_cases hlate : request.expiresAt ≥ env.clock h.reads
    · rw [if_pos hlate]
      exact .inr (.inl ⟨hpending, hlate, rfl⟩)
    · rw [if_neg hlate]
      refine .inr (.inr ⟨hpending, not_le.mp hlate, ?_⟩)
      exact @registrationUpdate_run { h with reads := h.reads + 1 } id request _ hrow
  · rw [if_pos hpending]
    exact .inl ⟨hpending, rfl⟩

/-! ## The ledger -/

/-- The tables of requests and servers, and the uses of the random source. -/
structure Ledger where
  registrations : Table ServerRegistrationRequest
  servers : Table Server
  draws : ℕ

/-- What registrations read and write of the state. -/
def Hub.ledger (h : Hub) : Ledger := ⟨h.registrations, h.servers, h.draws⟩

/-- The server an approval creates. -/
def ServerRegistrationRequest.server (env : Env) (request : ServerRegistrationRequest)
    (apiKey : JsString) (date : Time) : Server :=
  { ownerId := request.ownerId, name := request.name, osType := request.osType,
    tailscaleIp := request.tailscaleIp, apiKeyHash := hashApiKey env.crypto apiKey,
    status := .OFFLINE, lastHeartbeatAt := none, createdAt := date }

/-- The calls on registrations, and those that create and delete servers. -/
def HubCall.registers : HubCall → Bool
  | createRegistration _ | findPendingRegistrations _ | decideRegistration _ _ _
  | getRegistrationResult _ _ | createServer _ _ | removeServer _ _ => true
  | _ => false

/-- Whether a call touches the ledger. -/
def HubCall.Registers (call : HubCall) : Prop := call.registers = true

instance : DecidablePred HubCall.Registers := fun call =>
  inferInstanceAs (Decidable (call.registers = true))

/-- **The change one call makes to the ledger.** -/
inductive LedgerStep (env : Env) (h : Hub) (call : HubCall) : Ledger → Prop where
  | idle {draws : ℕ} (hdraws : h.draws ≤ draws) :
      LedgerStep env h call ⟨h.registrations, h.servers, draws⟩
  | created {dto : CreateServerRegistrationRequestDto} {request : ServerRegistrationRequest}
      (hcall : call = .createRegistration dto) (hpending : request.status = .PENDING)
      (hempty : request.apiKeyCiphertext = none) :
      LedgerStep env h call ⟨h.registrations.insert request, h.servers, h.draws + 2⟩
  | swept {ownerId : UserId} (date : Time) (hcall : call = .findPendingRegistrations ownerId) :
      LedgerStep env h call ⟨h.registrations.map (·.swept date), h.servers, h.draws⟩
  | expired {id : RegistrationId} {request : ServerRegistrationRequest}
      (hrow : h.registrations id = some request) (hpending : request.status = .PENDING) :
      LedgerStep env h call ⟨h.registrations.modify id (·.expired), h.servers, h.draws⟩
  | rejected {id : RegistrationId} {request : ServerRegistrationRequest}
      (hrow : h.registrations id = some request) (hpending : request.status = .PENDING) :
      LedgerStep env h call ⟨h.registrations.modify id (·.rejected), h.servers, h.draws⟩
  | approved {id : RegistrationId} {request : ServerRegistrationRequest} {apiKey : JsString}
      (date : Time) (hcall : call = .decideRegistration request.ownerId id true)
      (hrow : h.registrations id = some request) (hpending : request.status = .PENDING)
      (htime : env.clock h.reads ≤ request.expiresAt)
      (hkey : apiKey = generateApiKey env.crypto h.draws) :
      LedgerStep env h call
        ⟨h.registrations.modify id (·.approved h.servers.next (encryptForRequestSecret env.crypto
            (h.draws + 1) apiKey request.requestSecretHash)),
          h.servers.insert (request.server env apiKey date), h.draws + 2⟩
  | delivered {id : RegistrationId} {secret : JsString} {request : ServerRegistrationRequest}
      (hcall : call = .getRegistrationResult id secret)
      (hrow : h.registrations id = some request) (happroved : request.status = .APPROVED) :
      LedgerStep env h call ⟨h.registrations.modify id (·.delivered), h.servers, h.draws⟩
  | serverAdded {ownerId : UserId} {dto : CreateServerDto} {server : Server}
      (hcall : call = .createServer ownerId dto)
      (hkey : server.apiKeyHash = hashApiKey env.crypto (generateApiKey env.crypto h.draws)) :
      LedgerStep env h call ⟨h.registrations, h.servers.insert server, h.draws + 1⟩
  | serverRemoved {ownerId : UserId} {serverId : ServerId}
      (hcall : call = .removeServer ownerId serverId) :
      LedgerStep env h call ⟨h.registrations.map (·.unlinked serverId),
        h.servers.filter fun id _ => id != serverId, h.draws⟩

/-! ## `create`, `findPendingForOwner` and the servers -/

/-- A new pending request with two draws, or an owner that is not found. -/
theorem createRegistration_ledger (dto : CreateServerRegistrationRequestDto) :
    LedgerStep env h (.createRegistration dto)
      ((ServerRegistrationsService.create env dto).run h).2.ledger := by
  unfold ServerRegistrationsService.create
  rw [Proc.run_bind_of_ok (Proc.run_read _ h)]
  cases h.users.toList.find? fun row => row.2.email == dto.ownerEmail with
  | none => exact .idle le_rfl
  | some found => exact .created rfl rfl rfl

/-- The sweep, and nothing else. -/
theorem findPending_ledger (ownerId : UserId) :
    LedgerStep env h (.findPendingRegistrations ownerId)
      ((ServerRegistrationsService.findPendingForOwner env ownerId).run h).2.ledger := by
  exact .swept (env.clock h.reads) rfl

/-- A server by hand, with one draw. -/
theorem createServer_ledger (ownerId : UserId) (dto : CreateServerDto) :
    LedgerStep env h (.createServer ownerId dto)
      ((ServersService.create env ownerId dto).run h).2.ledger := by
  exact .serverAdded rfl rfl

/-- The server goes, and the requests that point to it are unlinked. -/
theorem removeServer_ledger (ownerId : UserId) (serverId : ServerId) :
    LedgerStep env h (.removeServer ownerId serverId)
      ((ServersService.remove ownerId serverId).run h).2.ledger := by
  unfold ServersService.remove
  cases hget : (ServersService.getOwnedServer ownerId serverId).run h with
  | mk outcome h' =>
    obtain ⟨rfl, howned⟩ := getOwnedServer_spec hget
    cases outcome with
    | error error =>
        rw [Proc.run_bind_of_error hget]
        exact .idle le_rfl
    | ok server =>
        obtain ⟨hserver, -⟩ := howned server rfl
        rw [Proc.run_bind_of_ok hget]
        unfold ServersService.serverDelete
        rw [Proc.run_atomically, hserver]
        exact .serverRemoved rfl

/-! ## `decide` -/

/-- The server is created and the request approved, in one node. -/
theorem approveTransaction_run {ownerId : UserId} {id : RegistrationId}
    {request row : ServerRegistrationRequest} {apiKeyHash : JsString}
    {envelope : RequestSecretEnvelope} (hrow : h.registrations id = some row) :
    ∃ h', (ServerRegistrationsService.approveTransaction env ownerId id request apiKeyHash
        envelope).run h = (.ok (row.approved h.servers.next envelope), h') ∧
      h'.ledger = ⟨h.registrations.modify id (·.approved h.servers.next envelope),
        h.servers.insert
          { ownerId, name := request.name, osType := request.osType,
            tailscaleIp := request.tailscaleIp, apiKeyHash, status := .OFFLINE,
            lastHeartbeatAt := none, createdAt := env.clock h.reads }, h.draws⟩ ∧
      h'.reads = h.reads + 1 := by
  obtain ⟨server, h₁, hcreate, hrow₁, hledger₁, hreads₁⟩ : ∃ server h₁,
      (ServersService.serverCreate env ownerId
        ⟨request.name, request.osType, request.tailscaleIp⟩ apiKeyHash
        ServerRegistrationsService.defaultWorkerProfiles).run h =
          (.ok (h.servers.next, server), h₁) ∧
        h₁.registrations id = some row ∧ h₁.ledger = ⟨h.registrations, h.servers.insert
          { ownerId, name := request.name, osType := request.osType,
            tailscaleIp := request.tailscaleIp, apiKeyHash, status := .OFFLINE,
            lastHeartbeatAt := none, createdAt := env.clock h.reads }, h.draws⟩ ∧
        h₁.reads = h.reads + 1 :=
    ⟨_, _, rfl, hrow, rfl, rfl⟩
  refine ⟨{ h₁ with
    registrations := h₁.registrations.modify id (·.approved h.servers.next envelope) }, ?_, ?_,
    hreads₁⟩
  · have htransaction := (Proc.run_bind_of_ok (f := fun created : ServerId × Server =>
      Prisma.registrationUpdate id fun row => row.approved created.1 envelope) hcreate).trans
        (registrationUpdate_run hrow₁)
    unfold ServerRegistrationsService.approveTransaction
    rw [Proc.run_atomically]
    dsimp only
    generalize hran : Proc.run _ h = ran
    cases hran.symm.trans htransaction
    rfl
  · have hregistrations : h₁.registrations = h.registrations :=
      congrArg Ledger.registrations hledger₁
    have hservers := congrArg Ledger.servers hledger₁
    have hdraws := congrArg Ledger.draws hledger₁
    change Ledger.mk (h₁.registrations.modify id _) h₁.servers h₁.draws = _
    rw [hregistrations]
    exact congrArg₂ (Ledger.mk _) hservers hdraws

/-- A decision rejects, approves, expires, or finds nothing to decide. -/
theorem decideRegistration_ledger (ownerId : UserId) (id : RegistrationId) (approve : Bool) :
    LedgerStep env h (.decideRegistration ownerId id approve)
      ((ServerRegistrationsService.decide env ownerId id approve).run h).2.ledger := by
  unfold ServerRegistrationsService.decide
  rw [Proc.run_bind_of_ok (Proc.run_read _ h)]
  cases hrow : h.registrations id with
  | none => exact .idle le_rfl
  | some request =>
      dsimp only
      by_cases hforeign : request.ownerId ≠ ownerId
      · rw [if_pos hforeign]
        exact .idle le_rfl
      · rw [if_neg hforeign]
        obtain rfl : request.ownerId = ownerId := not_not.mp hforeign
        rcases @expireIfNeeded_run env h id request hrow with
          ⟨hdone, hrun⟩ | ⟨hpending, htime, hrun⟩ | ⟨hpending, htime, hrun⟩
        · rw [Proc.run_bind_of_ok hrun, if_pos hdone]
          exact .idle le_rfl
        · rw [Proc.run_bind_of_ok hrun, if_neg (not_not.mpr hpending)]
          cases approve with
          | false =>
              rw [if_pos (show (!false) = true from rfl)]
              rw [Proc.run_bind_of_ok (@registrationUpdate_run { h with reads := h.reads + 1 } id
                request _ hrow)]
              exact .rejected hrow hpending
          | true =>
              rw [if_neg (show ¬(!true) = true from nofun)]
              obtain ⟨h', htransaction, hledger, -⟩ := @approveTransaction_run env
                { h with reads := h.reads + 1, draws := h.draws + 2 } request.ownerId
                id request request (hashApiKey env.crypto (generateApiKey env.crypto h.draws))
                (encryptForRequestSecret env.crypto (h.draws + 1)
                  (generateApiKey env.crypto h.draws) request.requestSecretHash) hrow
              rw [Proc.run_bind_of_ok (show draw.run { h with reads := h.reads + 1 } =
                  (.ok h.draws, { h with reads := h.reads + 1, draws := h.draws + 1 }) from rfl),
                Proc.run_bind_of_ok (show draw.run
                  { h with reads := h.reads + 1, draws := h.draws + 1 } = (.ok (h.draws + 1),
                    { h with reads := h.reads + 1, draws := h.draws + 2 }) from rfl),
                Proc.run_bind_of_ok htransaction]
              change LedgerStep env h _ h'.ledger
              rw [hledger]
              exact .approved (env.clock (h.reads + 1)) rfl hrow hpending htime rfl
        · rw [Proc.run_bind_of_ok hrun, if_pos (show ¬request.expired.status = .PENDING from nofun)]
          exact .expired hrow hpending

/-! ## `getResult` -/

/-- **What `getResult` does**: without a key to hand out, it expires a request or
does nothing; else it hands out the decrypted key of an approved request whose
secret was presented, and erases it. -/
theorem getResult_run (env : Env) (h : Hub) (id : RegistrationId) (secret : JsString) :
    LedgerStep env h (.getRegistrationResult id secret)
        ((ServerRegistrationsService.getResult env id secret).run h).2.ledger ∧
      ∀ result, ((ServerRegistrationsService.getResult env id secret).run h).1 = .ok result →
        ∀ apiKey, result.apiKey = some apiKey →
          ∃ request envelope, h.registrations id = some request ∧ request.status = .APPROVED ∧
            request.requestSecretHash = hashApiKey env.crypto secret ∧
            ServerRegistrationsService.storedEnvelope request = some envelope ∧
            decryptForRequestSecret env.crypto envelope request.requestSecretHash = some apiKey ∧
            result.serverId = request.serverId ∧
            ((ServerRegistrationsService.getResult env id secret).run h).2.ledger =
              ⟨h.registrations.modify id (·.delivered), h.servers, h.draws⟩ := by
  unfold ServerRegistrationsService.getResult
  by_cases hempty : secret.isEmpty = true
  · rw [if_pos hempty]
    exact ⟨.idle le_rfl, nofun⟩
  rw [if_neg hempty, Proc.run_bind_of_ok (Proc.run_read _ h)]
  cases hrow : h.registrations id with
  | none => exact ⟨.idle le_rfl, nofun⟩
  | some request =>
      dsimp only
      by_cases hsecret : request.requestSecretHash ≠ hashApiKey env.crypto secret
      · rw [if_pos hsecret]
        exact ⟨.idle le_rfl, nofun⟩
      rw [if_neg hsecret]
      -- a key is handed out on the first path only: the other two leave the request unapproved
      rcases @expireIfNeeded_run env h id request hrow with
        ⟨hdone, hrun⟩ | ⟨hpending, htime, hrun⟩ | ⟨hpending, htime, hrun⟩
      · rw [Proc.run_bind_of_ok hrun]
        by_cases happroved : request.status ≠ .APPROVED
        · rw [if_pos happroved]
          refine ⟨.idle le_rfl, ?_⟩
          rintro _ ⟨⟩ apiKey ⟨⟩
        rw [if_neg happroved]
        cases hstored : ServerRegistrationsService.storedEnvelope request with
        | none =>
            refine ⟨.idle le_rfl, ?_⟩
            rintro _ ⟨⟩ apiKey ⟨⟩
        | some envelope =>
            dsimp only
            cases hkey : decryptForRequestSecret env.crypto envelope request.requestSecretHash with
            | none => exact ⟨.idle le_rfl, nofun⟩
            | some apiKey =>
                dsimp only
                rw [Proc.run_bind_of_ok (@registrationUpdate_run h id request _ hrow)]
                refine ⟨.delivered rfl hrow (not_not.mp happroved), ?_⟩
                rintro _ ⟨⟩ _ ⟨⟩
                exact ⟨request, envelope, rfl, not_not.mp happroved, not_not.mp hsecret, hstored,
                  hkey, rfl, rfl⟩
      · have hnot : request.status ≠ .APPROVED := by
          rw [hpending]
          exact nofun
        rw [Proc.run_bind_of_ok hrun, if_pos hnot]
        refine ⟨.idle le_rfl, ?_⟩
        rintro _ ⟨⟩ apiKey ⟨⟩
      · rw [Proc.run_bind_of_ok hrun, if_pos (show request.expired.status ≠ .APPROVED from nofun)]
        refine ⟨.expired hrow hpending, ?_⟩
        rintro _ ⟨⟩ apiKey ⟨⟩

/-! ## One call -/

/-- The ledger after a sequence that ends in an answer. -/
theorem ledger_of_answer {α β : Type} {p : HubM α} {f : α → HubM β}
    (hf : ∀ value, (f value).Guarantees fun h h' => h'.ledger = h.ledger) (h : Hub) :
    ((p >>= f).run h).2.ledger = (p.run h).2.ledger :=
  Proc.Guarantees.run_rest hf (fun _ => rfl) (fun hab hbc => Eq.trans hbc hab) h

/-- **Every call on registrations makes one change to the ledger.** -/
theorem after_ledger {call : HubCall} (hcall : call.Registers) :
    LedgerStep env h call (h.after env call).ledger := by
  cases call with
  | createRegistration dto =>
      rw [show (h.after env (.createRegistration dto)).ledger = _ from
        ledger_of_answer (fun _ => Proc.guarantees_pure _) h]
      exact createRegistration_ledger dto
  | findPendingRegistrations ownerId => exact findPending_ledger ownerId
  | decideRegistration ownerId id approve =>
      rw [show (h.after env (.decideRegistration ownerId id approve)).ledger = _ from
        ledger_of_answer (fun _ => Proc.guarantees_pure _) h]
      exact decideRegistration_ledger ownerId id approve
  | getRegistrationResult id secret =>
      rw [show (h.after env (.getRegistrationResult id secret)).ledger = _ from
        ledger_of_answer (fun _ => Proc.guarantees_pure _) h]
      exact (getResult_run env h id secret).1
  | createServer ownerId dto => exact createServer_ledger ownerId dto
  | removeServer ownerId serverId =>
      rw [show (h.after env (.removeServer ownerId serverId)).ledger = _ from
        ledger_of_answer (fun _ => Proc.guarantees_pure _) h]
      exact removeServer_ledger ownerId serverId
  | _ => cases hcall

end CodeCaller
