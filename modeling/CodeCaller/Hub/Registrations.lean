import CodeCaller.Hub.Realtime

/-!
# `server-registrations`

`ServerRegistrationsService`: a host asks to be registered for a user, the user decides, and the
host collects the API key with the secret of its request.

A request goes from `PENDING` to `REJECTED`, `EXPIRED` or `APPROVED`, and from `APPROVED` to
`CREDENTIAL_DELIVERED`.  The key of the new server is stored encrypted under a key derived from the
digest of the request secret, and removed once it was collected.

* `expireIfNeeded` is how a single request expires, when somebody looks at it;
  `expirePendingRequests` is the sweep before a list is shown.
* `approveTransaction` is the only place of the Hub with a database transaction: the server and the
  approved request appear together.
* `getResult` is called by a host without a user; the secret is all it has to show.

Both `decide` and `getResult` read the request first and update it by its id later, so two calls
that overlap can both act on one reading.
-/

namespace CodeCaller

open Async

variable (env : Env)

/-- `CreateServerRegistrationRequestDto`, the fields the service reads. -/
structure CreateServerRegistrationRequestDto where
  ownerEmail : JsString
  name : JsString
  osType : OsType
  tailscaleIp : JsString
  fingerprint : JsString

/-- The columns of a request that `toPublic` lets out. -/
structure PublicRegistration where
  id : RegistrationId
  name : JsString
  osType : OsType
  tailscaleIp : JsString
  fingerprint : JsString
  verificationCode : JsString
  status : ServerRegistrationStatus
  expiresAt : Time
  serverId : Option ServerId
  createdAt : Time

/-- The answer of `getResult`. -/
structure DaemonRegistrationResult where
  id : RegistrationId
  status : ServerRegistrationStatus
  verificationCode : JsString
  expiresAt : Time
  serverId : Option ServerId
  apiKey : Option JsString

namespace ServerRegistrationsService

/-- Ten minutes. -/
def REQUEST_TTL_MS : ℕ := 10 * 60 * 1000

def toPublic (id : RegistrationId) (request : ServerRegistrationRequest) : PublicRegistration :=
  { id, name := request.name, osType := request.osType, tailscaleIp := request.tailscaleIp,
    fingerprint := request.fingerprint, verificationCode := request.verificationCode,
    status := request.status, expiresAt := request.expiresAt, serverId := request.serverId,
    createdAt := request.createdAt }

/-- Without a key: `getResult` adds it in its one successful case. -/
def toDaemonResult (id : RegistrationId) (request : ServerRegistrationRequest) :
    DaemonRegistrationResult :=
  { id, status := request.status, verificationCode := request.verificationCode,
    expiresAt := request.expiresAt, serverId := request.serverId, apiKey := none }

/-- Of the four profiles only Codex is enabled. -/
def defaultWorkerProfiles : List (WorkerProvider × JsString × Bool) :=
  [(.CODEX, js "default", true), (.CLAUDE_CODE, js "future", false),
    (.ANTIGRAVITY, js "future", false), (.OPENCODE, js "future", false)]

/-- `serverRegistrationRequest.create({ data })`. -/
def registrationCreate (ownerId : UserId) (dto : CreateServerRegistrationRequestDto)
    (verificationCode requestSecretHash : JsString) (expiresAt : Time) :
    HubM (RegistrationId × ServerRegistrationRequest) :=
  .atomically fun h =>
    let request : ServerRegistrationRequest :=
      { ownerId, name := dto.name, osType := dto.osType, tailscaleIp := dto.tailscaleIp,
        fingerprint := dto.fingerprint, verificationCode, requestSecretHash, status := .PENDING,
        expiresAt, serverId := none, apiKeyCiphertext := none, apiKeyIv := none,
        apiKeyAuthTag := none, createdAt := env.clock h.reads }
    (.ok (h.registrations.next, request),
      { h with registrations := h.registrations.insert request, reads := h.reads + 1 })

/-- Open to anybody; the secret is answered once and stored as its digest. -/
def create (dto : CreateServerRegistrationRequestDto) : HubM (PublicRegistration × JsString) := do
  match ← Proc.read fun h => h.users.toList.find? fun row => row.2.email == dto.ownerEmail with
  | none => throw ⟨.notFound, js "등록할 사용자를 찾을 수 없습니다."⟩
  | some (ownerId, _) =>
    let requestSecret := generateSecret env.crypto (← draw)
    let verificationCode := generateVerificationCode env.crypto (← draw)
    let date ← now env
    let (id, request) ← registrationCreate env ownerId dto verificationCode
      (hashApiKey env.crypto requestSecret) (date + REQUEST_TTL_MS)
    return (toPublic id request, requestSecret)

/-- One `updateMany` on the pending requests that are past their time. -/
def expirePendingRequests : HubM Unit := do
  let date ← now env
  Proc.atomically fun h =>
    (.ok (), { h with registrations := h.registrations.map fun request =>
        if request.status = .PENDING ∧ request.expiresAt < date then
          { request with status := .EXPIRED }
        else request })

/-- The sweep comes first, so what is listed was not past its time at that moment. -/
def findPendingForOwner (ownerId : UserId) : HubM (List PublicRegistration) := do
  expirePendingRequests env
  let requests ← Proc.read fun h => orderByDesc env (·.createdAt)
    (h.registrations.toList.filter fun row =>
      row.2.ownerId == ownerId && row.2.status == .PENDING)
  return requests.map fun row => toPublic row.1 row.2

/-- The clock is read only for a request that is still pending. -/
def expireIfNeeded (id : RegistrationId) (request : ServerRegistrationRequest) :
    HubM ServerRegistrationRequest := do
  if request.status ≠ .PENDING then
    return request
  let date ← now env
  if request.expiresAt ≥ date then
    return request
  Prisma.registrationUpdate id fun row => { row with status := .EXPIRED }

/-- The `$transaction` of an approval: the server is created and the request
points to it, or neither. -/
def approveTransaction (ownerId : UserId) (requestId : RegistrationId)
    (request : ServerRegistrationRequest) (apiKeyHash : JsString)
    (encrypted : RequestSecretEnvelope) : HubM ServerRegistrationRequest :=
  .atomically fun h =>
    let transaction : HubM ServerRegistrationRequest := do
      let (serverId, _) ← ServersService.serverCreate env ownerId
        ⟨request.name, request.osType, request.tailscaleIp⟩ apiKeyHash defaultWorkerProfiles
      Prisma.registrationUpdate requestId fun row =>
        { row with
          status := .APPROVED
          serverId := some serverId
          apiKeyCiphertext := some encrypted.ciphertext
          apiKeyIv := some encrypted.iv
          apiKeyAuthTag := some encrypted.authTag }
    match transaction.run h with
    | (.ok approved, h') => (.ok approved, h')
    | (.error error, _) => (.error error, h)

/-- A request that is no longer pending is answered as it is, without an error. -/
def decide (ownerId : UserId) (requestId : RegistrationId) (approve : Bool) :
    HubM PublicRegistration := do
  match ← Proc.read fun h => h.registrations requestId with
  | none => throw ⟨.notFound, js "서버 등록 요청을 찾을 수 없습니다."⟩
  | some request =>
    if request.ownerId ≠ ownerId then
      throw ⟨.forbidden, js "해당 등록 요청에 접근할 권한이 없습니다."⟩
    let current ← expireIfNeeded env requestId request
    if current.status ≠ .PENDING then
      return toPublic requestId current
    if !approve then
      let rejected ← Prisma.registrationUpdate requestId fun row =>
        { row with status := .REJECTED }
      return toPublic requestId rejected
    let apiKey := generateApiKey env.crypto (← draw)
    let encrypted := encryptForRequestSecret env.crypto (← draw) apiKey request.requestSecretHash
    let approved ← approveTransaction env ownerId requestId request
      (hashApiKey env.crypto apiKey) encrypted
    return toPublic requestId approved

/-- The envelope of a request, if it stores a whole one and a server. -/
def storedEnvelope (request : ServerRegistrationRequest) : Option RequestSecretEnvelope :=
  match request.serverId, request.apiKeyCiphertext, request.apiKeyIv, request.apiKeyAuthTag with
  | some _, some ciphertext, some iv, some authTag =>
    if ciphertext.isEmpty || iv.isEmpty || authTag.isEmpty then none
    else some ⟨ciphertext, iv, authTag⟩
  | _, _, _, _ => none

/-- The state is `APPROVED` in the answer that carries the key, though the row says
`CREDENTIAL_DELIVERED` by then. -/
def getResult (requestId : RegistrationId) (requestSecret : JsString) :
    HubM DaemonRegistrationResult := do
  if requestSecret.isEmpty then
    throw ⟨.unauthorized, js "등록 요청 secret이 필요합니다."⟩
  match ← Proc.read fun h => h.registrations requestId with
  | none => throw ⟨.notFound, js "서버 등록 요청을 찾을 수 없습니다."⟩
  | some request =>
    if request.requestSecretHash ≠ hashApiKey env.crypto requestSecret then
      throw ⟨.unauthorized, js "등록 요청 secret이 올바르지 않습니다."⟩
    let current ← expireIfNeeded env requestId request
    if current.status ≠ .APPROVED then
      return toDaemonResult requestId current
    match storedEnvelope current with
    | none => return toDaemonResult requestId current
    | some envelope =>
      match decryptForRequestSecret env.crypto envelope current.requestSecretHash with
      | none => throw ⟨.error, js "Unsupported state or unable to authenticate data"⟩
      | some apiKey =>
        let delivered ← Prisma.registrationUpdate requestId fun row =>
          { row with
            status := .CREDENTIAL_DELIVERED
            apiKeyCiphertext := none
            apiKeyIv := none
            apiKeyAuthTag := none }
        return { toDaemonResult requestId delivered with
          status := .APPROVED, serverId := current.serverId, apiKey := some apiKey }

end ServerRegistrationsService

end CodeCaller
