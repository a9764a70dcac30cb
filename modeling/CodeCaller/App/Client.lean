import CodeCaller.Hub.Auth
import CodeCaller.Hub.System

/-!
# The mobile app

`App.tsx`, as far as it talks to the Hub: `fetchHub` with its two URLs, the session in
`AsyncStorage`, and the requests behind it.  A callback holds the values of the render it was made
in, so `activeApiBaseUrl` and `tokens` are parameters of the functions that close over them.

`fetch` sends a request and waits.  Every timing of replies, timeouts and failures is a choice of
when the call is resumed: with the reply, if it has arrived by then, else with the error of the
abort or of the network.

### Main definitions

* `AppRequest`: what is sent, with its path, its body and the token it carries.
* `AppState`: the session and the active URL as React holds them, the stored token, and what was
  sent, in order.
* `fetchHub`: the loop over the URLs.  An error of one sends the request to the next; a reply of
  any status ends the loop.
* `request`: a request behind the session, which refreshes it once if the reply is 401.
* `restoreSession`, `login`, `logout`: the session.
-/

namespace CodeCaller

open Async

/-! ## What is sent and answered -/

/-- The pair of a session: the access token for the requests, the refresh token for the next pair.
-/
structure AuthTokens where
  accessToken : JsString
  refreshToken : JsString
deriving DecidableEq

/-- The paths behind the JWT guard of the Hub, with their bodies. -/
inductive Resource where
  | servers
  | registrationRequests
  | tasks
  | pendingApprovals
  | decideApproval (approvalId : ApprovalId) (dto : DecideApprovalDto)
  | decideRegistration (requestId : RegistrationId) (approve : Bool)
  | createTask (dto : CreateTaskDto)

/-- What the Hub does for a user who asks for it. -/
def Resource.call (user : UserId) : Resource → HubCall
  | servers => .findAllServers user
  | registrationRequests => .findPendingRegistrations user
  | tasks => .findAllTasks user
  | pendingApprovals => .listApprovals user (some (some .PENDING))
  | decideApproval approvalId dto => .decideApproval user approvalId dto
  | decideRegistration requestId approve => .decideRegistration user requestId approve
  | createTask dto => .submit user dto

/-- The routes of `AuthController`, with their bodies. -/
inductive AuthCall where
  | login (email password : JsString)
  | refresh (refreshToken : JsString)
  | logout (refreshToken : JsString)
deriving DecidableEq

/-- A request: its path, its body and its headers. -/
inductive AppRequest where
  | auth (call : AuthCall)
  | authorized (accessToken : JsString) (resource : Resource)

/-- The body of a reply; `unreadable` where the connection breaks before its end. -/
inductive ReplyBody where
  | empty
  | tokens (pair : AuthTokens)
  | data (response : Response)
  | message (error : JsString)
  | unreadable

/-- An answer as `fetch` sees it. -/
structure HttpReply where
  status : ℕ
  body : ReplyBody

/-- `response.ok`. -/
def HttpReply.ok (reply : HttpReply) : Bool := decide (200 ≤ reply.status ∧ reply.status < 300)

/-- A request that was sent, with the reply if it has arrived. -/
structure Attempt where
  baseUrl : JsString
  request : AppRequest
  reply : Option HttpReply

/-- Why a call of the app fails. The app shows the text of an error and decides nothing by it. -/
inductive AppError where
  /-- An aborted or failed `fetch`, a body that ends too early. -/
  | network
  /-- `AsyncStorage` failed. -/
  | storage
  | notAuthenticated
  /-- `refresh failed (status)`, `login failed (status)`. -/
  | refused (status : ℕ)
  /-- `path failed (status) body`. -/
  | failed (status : ℕ) (body : ReplyBody)
  /-- `path failed: Hub API is unreachable`. -/
  | unreachable

/-! ## State -/

/-- **The state of the app**: the session and the active URL as React holds them, the
entry `REFRESH_TOKEN_KEY` of `AsyncStorage`, and what was sent. -/
structure AppState where
  tokens : Option AuthTokens
  activeApiBaseUrl : JsString
  storage : Option JsString
  /-- Whether `AsyncStorage` rejects what it is asked. -/
  storageFails : Bool
  attempts : List Attempt

/-- A function of the app: one node for each operation of the storage and of the network, and for
each write to the state of the component. -/
abbrev AppM (α : Type) := Proc AppState AppError α

namespace App

/-- The addresses of the Hub: in the local network, and over Tailscale. -/
def API_BASE_URLS : List JsString := [js "http://172.30.1.83:3000", js "http://100.92.64.11:3000"]

/-- The address an app begins with. -/
def PRIMARY_API_BASE_URL : JsString := js "http://172.30.1.83:3000"

/-! ## `AsyncStorage` -/

/-- An operation on the stored token. -/
def asyncStorage {α : Type} (operation : AppState → α × AppState) : AppM α :=
  .atomically fun s =>
    if s.storageFails then (.error .storage, s)
    else (.ok (operation s).1, (operation s).2)

def getItem : AppM (Option JsString) := asyncStorage fun s => (s.storage, s)

def setItem (value : JsString) : AppM Unit :=
  asyncStorage fun s => ((), { s with storage := some value })

def removeItem : AppM Unit := asyncStorage fun s => ((), { s with storage := none })

/-- The state of the component; the storage is written by `saveTokens`. -/
def setTokens (tokens : Option AuthTokens) : AppM Unit := .modify fun s => { s with tokens }

/-- React is told first; then the refresh token is stored, or the stored one removed. -/
def saveTokens (nextTokens : Option AuthTokens) : AppM Unit := do
  setTokens nextTokens
  match nextTokens with
  | some pair => setItem pair.refreshToken
  | none => removeItem

/-! ## `fetchHub` -/

/-- The reply to a request that was sent, if it has arrived. -/
def replyTo (n : ℕ) (s : AppState) : Option HttpReply := s.attempts[n]?.bind (·.reply)

/-- The request leaves; its number is where it stands among those that were sent. -/
def send (baseUrl : JsString) (request : AppRequest) : AppM ℕ :=
  .take (fun s => s.attempts.length)
    fun s => { s with attempts := s.attempts ++ [⟨baseUrl, request, none⟩] }

/-- `fetch`, resumed with the reply, or aborted. -/
def fetch (baseUrl : JsString) (request : AppRequest) : AppM HttpReply := do
  let n ← send baseUrl request
  .atomically fun s =>
    match replyTo n s with
    | some reply => (.ok reply, s)
    | none => (.error .network, s)

/-- The address that has answered is the first to be tried next time. -/
def setActiveApiBaseUrl (baseUrl : JsString) : AppM Unit :=
  .modify fun s => { s with activeApiBaseUrl := baseUrl }

/-- The active URL first, then the other ones. -/
def orderedUrls (active : JsString) : List JsString :=
  active :: API_BASE_URLS.filter (· != active)

/-- The loop over the URLs. -/
def fetchFrom (active : JsString) (request : AppRequest) (lastError : Option AppError) :
    List JsString → AppM HttpReply
  | [] => throw (lastError.getD .unreachable)
  | baseUrl :: rest =>
    tryCatch
      (do let response ← fetch baseUrl request
          if baseUrl != active then
            setActiveApiBaseUrl baseUrl
          return response)
      fun err => fetchFrom active request (some err) rest

/-- Every URL is tried once at most. -/
def fetchHub (active : JsString) (request : AppRequest) : AppM HttpReply :=
  fetchFrom active request none (orderedUrls active)

/-! ## The session -/

/-- `parseJson(response) as AuthTokens`. -/
def parseTokens (response : HttpReply) : AppM AuthTokens :=
  match response.body with
  | .tokens pair => pure pair
  | _ => throw .network

/-- What `refreshSession` and `login` do with the reply. -/
def openSession (response : HttpReply) : AppM AuthTokens := do
  if !response.ok then
    throw (.refused response.status)
  let nextTokens ← parseTokens response
  saveTokens (some nextTokens)
  return nextTokens

/-- A failure is thrown, and the caller decides what becomes of the session. -/
def refreshSession (active refreshToken : JsString) : AppM AuthTokens := do
  let response ← fetchHub active (.auth (.refresh refreshToken))
  openSession response

/-- **`login`**: a pair for a password. -/
def login (active email password : JsString) : AppM Unit := do
  let response ← fetchHub active (.auth (.login email password))
  let _ ← openSession response

/-- The session is removed first; what the Hub answers to that does not matter. -/
def logout (active : JsString) (tokens : Option AuthTokens) : AppM Unit := do
  saveTokens none
  match tokens with
  | some ⟨_, []⟩ | none => return
  | some pair =>
    tryCatch (do let _ ← fetchHub active (.auth (.logout pair.refreshToken))) fun _ => pure ()

/-- The effect that restores the session: at the start, and whenever the active URL has
changed. -/
def restoreSession (active : JsString) : AppM Unit :=
  tryCatch
    (do match ← getItem with
        | none | some [] => return
        | some storedRefreshToken =>
          let _ ← refreshSession active storedRefreshToken)
    fun _ => removeItem

/-! ## Requests -/

/-- Once more after a refresh, if the first reply was 401. -/
def request (active : JsString) (tokens : Option AuthTokens) (resource : Resource) :
    AppM HttpReply :=
  match tokens with
  | none => throw .notAuthenticated
  | some pair => do
    let first ← fetchHub active (.authorized pair.accessToken resource)
    let response ← if first.status = 401 then do
        let refreshed ← refreshSession active pair.refreshToken
        fetchHub active (.authorized refreshed.accessToken resource)
      else pure first
    if !response.ok then
      throw (.failed response.status response.body)
    match response.body with
    | .unreadable => throw .network
    | _ => return response

/-- `createTask`; the lists are loaded again by requests of their own. -/
def createTask (active : JsString) (tokens : Option AuthTokens) (selectedServerId : Option ServerId)
    (workerType : WorkerType) (prompt : JsString) : AppM Unit :=
  match selectedServerId, JsString.trim prompt with
  | none, _ | _, [] => return
  | some serverId, trimmedPrompt =>
    tryCatch
      (do let _ ← request active tokens
            (.createTask ⟨serverId, workerType, .object [(js "prompt", .string trimmedPrompt)]⟩))
      fun _ => pure ()

end App

end CodeCaller
