import CodeCaller.Hub.RegistrationRaces
import CodeCaller.Envelopes

/-!
# `register.js`: a host waits for its approval

`pollResult` asks the Hub for the result of a request every 2.5 seconds, until the request is past
its time.  It runs beside the Hub: its polls, the approvals of the owner and the sweeps of the app
are calls of one pool, interleaved at every node, and a poll or its answer may be under way for any
time.

The host and the Hub read one clock.  A reading belongs to whoever takes it, so time passes between
two steps of the host exactly as it does between two nodes of a call.

### Main definitions

* `judge`: the body of the loop from the answer on.  It returns the result, throws, or goes on.
* `Poller`: where `pollResult` is.  It checks the time only between an answer and the next
  question, and sleeps in between.
* `Registering.machine`: the Hub with the calls it serves, and the host.
* `Collected`, `Approved`: the host has a key; an approval ended as one.
* `InTime`: the condition on the times of a run.
-/

namespace CodeCaller

open Async

/-! ## `pollResult` -/

/-- The time between two questions. -/
def POLL_INTERVAL_MS : ℕ := 2500

/-- What `pollResult` is called with: the answer of `createRequest`. -/
structure CreatedRequest where
  id : RegistrationId
  requestSecret : JsString
  expiresAt : Time

/-- `${result.status}`. -/
def ServerRegistrationStatus.text : ServerRegistrationStatus → JsString
  | PENDING => js "PENDING"
  | APPROVED => js "APPROVED"
  | REJECTED => js "REJECTED"
  | EXPIRED => js "EXPIRED"
  | CREDENTIAL_DELIVERED => js "CREDENTIAL_DELIVERED"

/-- What `pollResult` throws: the error of an answer that is not `ok`, or its own. -/
inductive PollError where
  | answered (error : HubError)
  | thrown (message : JsString)

/-- `Registration ended with status ...`. -/
def PollError.ended (status : ServerRegistrationStatus) : PollError :=
  .thrown (js "registration ended with status " ++ status.text)

/-- The poller has waited until the request has expired. -/
def PollError.timedOut : PollError :=
  .thrown (js "registration timed out before mobile approval")

/-- **The body of the loop, from the answer on**: it returns the result, throws, or goes
on. -/
def judge : Except HubError DaemonRegistrationResult →
    Except PollError (Option DaemonRegistrationResult)
  | .error error => .error (.answered error)
  | .ok result =>
    if result.status = .APPROVED ∧ result.apiKey.any (!·.isEmpty) then .ok (some result)
    else if result.status ∈ [ServerRegistrationStatus.REJECTED, .EXPIRED,
      .CREDENTIAL_DELIVERED] then
      .error (.ended result.status)
    else .ok none

/-- **Where `pollResult` is.** -/
inductive Poller where
  | called
  /-- In `setTimeout`. -/
  | sleeping (wake : Time)
  /-- Its request is on the way to the Hub. -/
  | asking
  /-- The Hub serves the request as its `k`-th call, or the answer is on the way. -/
  | waiting (k : ℕ)
  | returned (result : DaemonRegistrationResult)
  | threw (error : PollError)

namespace Poller

/-- The check of the loop, at a date. -/
def check (expiresAt date : Time) : Poller :=
  if date < expiresAt then .sleeping (date + POLL_INTERVAL_MS) else .threw .timedOut

/-- The call `pollResult` waits for. -/
def call? : Poller → Option ℕ
  | waiting k => some k
  | _ => none

/-- When a sleeping poller looks again. -/
def wake? : Poller → Option Time
  | sleeping wake => some wake
  | _ => none

/-- What a poller has got in the end, -/
def result? : Poller → Option DaemonRegistrationResult
  | returned result => some result
  | _ => none

/-- or why it has got nothing. -/
def error? : Poller → Option PollError
  | threw error => some error
  | _ => none

/-- Whether a poller waits for the Hub. -/
def isCalled : Poller → Bool
  | called => true
  | _ => false

/-- Whether it is about to ask. -/
def isAsking : Poller → Bool
  | asking => true
  | _ => false

/-- Whether `pollResult` has returned or thrown. -/
def ended : Poller → Bool
  | returned _ | threw _ => true
  | _ => false

end Poller

/-! ## The host and the Hub -/

/-- **The Hub with the calls it serves, and `pollResult` on a host.** -/
structure Registering where
  pool : CallPool
  poller : Poller

/-- **What can happen next.** -/
inductive RegisteringAction where
  /-- `pollResult` is called. -/
  | call
  /-- Its timer fires. -/
  | wake
  /-- The Hub receives its request. -/
  | receive
  /-- The answer arrives. -/
  | deliver
  /-- An owner approves the request. -/
  | decide (ownerId : UserId)
  /-- The app asks for the pending requests of a user. -/
  | sweep (ownerId : UserId)
  /-- One node of the `k`-th call. -/
  | resume (k : ℕ)
  /-- Somebody else reads the clock. -/
  | elapse
deriving DecidableEq

namespace Registering

variable (env : Env) (request : CreatedRequest)

/-- The state the calls share. -/
abbrev hub (S : Registering) : Hub := S.pool.shared

/-- What the clock shows. -/
def date (S : Registering) : Time := env.clock S.hub.reads

/-- The clock is read outside of the calls. -/
def read (S : Registering) : Registering :=
  { S with pool := { S.pool with shared := { S.hub with reads := S.hub.reads + 1 } } }

/-- A call reaches the Hub. -/
def serve (S : Registering) (call : HubCall) : Registering :=
  { S with pool := S.pool.add (perform env call) }

/-- `while (Date.now() < new Date(expiresAt).getTime())`. -/
def loop (S : Registering) : Registering :=
  { S.read with poller := .check request.expiresAt (S.date env) }

/-- `pollResult` goes on with what it made of an answer. -/
def proceed (S : Registering) :
    Except PollError (Option DaemonRegistrationResult) → Registering
  | .ok (some result) => { S with poller := .returned result }
  | .ok none => S.loop env request
  | .error error => { S with poller := .threw error }

/-- What the `k`-th call answers to a poll, once it has ended. -/
def answer? (S : Registering) (k : ℕ) : Option (Except HubError DaemonRegistrationResult) :=
  match S.pool.outcome? k with
  | some (.ok (.registrationResult result)) => some (.ok result)
  | some (.error error) => some (.error error)
  | _ => none

/-- What an action does to the host and to the Hub. -/
def step (S : Registering) : RegisteringAction → Registering
  | .call => S.loop env request
  | .wake => { S with poller := .asking }
  | .receive =>
    { S.serve env (.getRegistrationResult request.id request.requestSecret) with
      poller := .waiting S.pool.threads.length }
  | .deliver =>
    match S.poller.call?.bind S.answer? with
    | none => S
    | some answer => S.proceed env request (judge answer)
  | .decide ownerId => S.serve env (.decideRegistration ownerId request.id true)
  | .sweep ownerId => S.serve env (.findPendingRegistrations ownerId)
  | .resume k => { S with pool := S.pool.step k }
  | .elapse => S.read

/-- A timer fires at its time, or later. -/
def enabled (S : Registering) : RegisteringAction → Prop
  | .call => S.poller.isCalled = true
  | .wake => ∃ wake ∈ S.poller.wake?, wake ≤ S.date env
  | .receive => S.poller.isAsking = true
  | .deliver => (S.poller.call?.bind S.answer?).isSome = true
  | .resume k => S.pool.live k = true
  | .decide _ | .sweep _ | .elapse => True

/-- **A request that was just created**: it is pending, under the digest of its secret, and
nothing was asked about it yet. -/
structure Initial (S : Registering) : Prop where
  threads : S.pool.threads = []
  poller : S.poller = .called
  secret : request.requestSecret ≠ []
  stored : ∃ row, S.hub.registrations request.id = some row ∧ row.status = .PENDING ∧
    row.requestSecretHash = hashApiKey env.crypto request.requestSecret ∧
    row.expiresAt = request.expiresAt

/-- **The host and the Hub, from the creation of a request on.** -/
def machine : Machine Registering RegisteringAction where
  start := Initial env request
  enabled := enabled env
  step := step env request

/-! ## What is asked of a run -/

/-- The status an approval ended in, if it was the `k`-th call and has ended. -/
def decided? (S : Registering) (k : ℕ) : Option ServerRegistrationStatus :=
  match S.pool.outcome? k with
  | some (.ok (.registration registration)) => some registration.status
  | _ => none

/-- An approval of the request ended in status `APPROVED`. -/
def Approved (S : Registering) : Prop := ∃ k, S.decided? k = some .APPROVED

/-- An API key of a server that is there. -/
def Credential (h : Hub) (result : DaemonRegistrationResult) : Prop :=
  ∃ apiKey serverId server, result.apiKey = some apiKey ∧ result.serverId = some serverId ∧
    h.servers serverId = some server ∧ server.apiKeyHash = hashApiKey env.crypto apiKey

/-- `pollResult` returned the API key of a server. -/
def Collected (S : Registering) : Prop :=
  ∃ result, S.poller = .returned result ∧ result.status = .APPROVED ∧ Credential env S.hub result

/-- **The condition on the times**: `pollResult` is called before the request is past its
time, and the answer of a poll that did not find the request approved arrives before it
is. -/
def InTime (S : Registering) : RegisteringAction → Prop
  | .call => S.date env < request.expiresAt
  | .deliver => ∀ k ∈ S.poller.call?,
    (S.pool.threads[k]?.bind (foundStatus request.id)) ≠ some .APPROVED →
      S.date env < request.expiresAt
  | .wake | .receive | .decide _ | .sweep _ | .resume _ | .elapse => True

instance (S : Registering) (action : RegisteringAction) : Decidable (S.enabled env action) :=
  match action with
  | .call => inferInstanceAs (Decidable (S.poller.isCalled = true))
  | .wake => inferInstanceAs (Decidable (∃ wake ∈ S.poller.wake?, wake ≤ S.date env))
  | .receive => inferInstanceAs (Decidable (S.poller.isAsking = true))
  | .deliver => inferInstanceAs (Decidable ((S.poller.call?.bind S.answer?).isSome = true))
  | .resume k => inferInstanceAs (Decidable (S.pool.live k = true))
  | .decide _ | .sweep _ | .elapse => inferInstanceAs (Decidable True)

instance (S : Registering) (action : RegisteringAction) :
    Decidable (S.InTime env request action) :=
  match action with
  | .call => inferInstanceAs (Decidable (S.date env < request.expiresAt))
  | .deliver => inferInstanceAs (Decidable (∀ k ∈ S.poller.call?,
      (S.pool.threads[k]?.bind (foundStatus request.id)) ≠ some .APPROVED →
        S.date env < request.expiresAt))
  | .wake | .receive | .decide _ | .sweep _ | .resume _ | .elapse =>
    inferInstanceAs (Decidable True)

instance (S : Registering) (actions : List RegisteringAction) :
    Decidable ((machine env request).Runs S actions) :=
  inferInstanceAs (Decidable (∀ visit ∈ (machine env request).visits S actions,
    visit.1.enabled env visit.2))

end Registering

end CodeCaller
