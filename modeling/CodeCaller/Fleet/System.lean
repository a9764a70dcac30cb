import CodeCaller.Daemon.Client
import CodeCaller.Hub.Nodes

/-!
# The Hub and its daemons

`Fleet` composes the Hub with any number of daemons.  The handlers of the Hub are a pool of calls,
interleaved at every node; a message a call emits to the room of a server goes to every daemon
whose socket is in the room at that moment; a message of a daemon starts a call when it arrives.
Messages of one connection arrive in the order they were sent, and are lost when it breaks.

`trace` records what the properties of the whole are about: what the runners did, and which call
wrote which approval.

### Main definitions

* `Fleet n`: the pool of calls, what each call is, the daemons, the trace.
* `Action`: what can happen next.  A user or a timer starts a call, one node of a call is run, a
  daemon connects, sends its next message, receives one or restarts, a child of a runner does
  something, a connection breaks and the Hub learns of it.
* `fleetMachine`: the steps, and when they are enabled.

### What is left open

**Time and order.**  Nothing is fixed about which action comes next.  A call may rest between two
nodes for any number of actions, and the Hub may learn of a broken connection long after the daemon
has made a new one.

**The children.**  What a child writes and when it ends is an action of its own; the detectors,
which read its output, are parameters.
-/

namespace CodeCaller

open Async

variable {n : ℕ}

/-! ## State -/

/-- **A call the Hub serves**, with the runner whose message it handles. -/
structure Served (n : ℕ) where
  call : HubCall
  origin : Option (Fin n × ℕ)

/-- **What happened.** -/
inductive Event (n : ℕ) where
  | runner (daemon : Fin n) (event : RunnerEvent)
  /-- An approval request of a runner created an approval. -/
  | opened (approvalId : ApprovalId) (taskId : TaskId) (reason : Option JsString)
    (daemon : Fin n) (runner : ℕ)
  /-- A `decide` with `approve` turned an approval `APPROVED`, called by a user who
  owned the task when the call looked it up. -/
  | approved (ownerId : UserId) (approvalId : ApprovalId) (taskId : TaskId)
deriving DecidableEq

/-- **The Hub, the calls it serves, and the daemons.** -/
structure Fleet (n : ℕ) where
  pool : CallPool
  calls : List (Served n)
  daemons : Fin n → DaemonClient
  trace : List (Event n)

namespace Fleet

/-- The state the calls share. -/
abbrev hub (F : Fleet n) : Hub := F.pool.shared

/-- **A deployment at rest**: a fresh Hub, and daemons that have just started. -/
structure Initial (F : Fleet n) : Prop where
  hub : F.hub.Fresh
  threads : F.pool.threads = []
  calls : F.calls = []
  daemons : ∀ d, ∃ apiKey, F.daemons d = DaemonClient.initial apiKey
  trace : F.trace = []

/-- The start of a deployment. -/
def initial (h : Hub) (apiKeys : Fin n → JsString) : Fleet n :=
  { pool := ⟨h, []⟩, calls := [], daemons := fun d => .initial (apiKeys d), trace := [] }

/-- The start of a deployment is one at rest. -/
theorem initial_initial {h : Hub} (hfresh : h.Fresh) (apiKeys : Fin n → JsString) :
    (initial h apiKeys).Initial where
  hub := hfresh
  threads := rfl
  calls := rfl
  daemons d := ⟨apiKeys d, rfl⟩
  trace := rfl

end Fleet

/-! ## Delivery -/

/-- The server whose room a daemon is in. -/
def DaemonClient.room (h : Hub) (client : DaemonClient) : Option ServerId :=
  client.socket.bind fun connection => (h.sockets connection.socketId).bind (·.room)

/-- What the Hub has just emitted reaches a daemon in the room. -/
def DaemonClient.hear (h : Hub) (sent : List Emission) (client : DaemonClient) : DaemonClient :=
  { client with
    socket := client.socket.map fun connection =>
      { connection with
        inbox := connection.inbox ++
          (sent.filter fun emission => client.room h == some emission.serverId).map (·.message) } }

/-! ## What a node of a call adds to the trace -/

/-- The approval a node created. -/
def createdApproval (h h' : Hub) : Option (ApprovalId × Approval) :=
  (h'.approvals h.approvals.next).map fun approval => (h.approvals.next, approval)

/-- The task whose approval a node turned `APPROVED`. -/
def approvedTask (approvalId : ApprovalId) (h h' : Hub) : Option TaskId :=
  match h.approvals approvalId, h'.approvals approvalId with
  | some before, some after =>
    if before.status ≠ .APPROVED ∧ after.status = .APPROVED then some after.taskId else none
  | _, _ => none

/-- What a node of a served call adds to the trace, from what the call has seen
so far. -/
def Served.events (served : Served n) (seen : List Hub) (h h' : Hub) : List (Event n) :=
  match served.call, served.origin with
  | .message _ (.APPROVAL_REQUEST _), some (d, runner) =>
    match createdApproval h h' with
    | some (approvalId, approval) =>
      [.opened approvalId approval.taskId approval.reason d runner]
    | none => []
  | .decideApproval ownerId approvalId dto, _ =>
    match approvedTask approvalId h h' with
    | some taskId =>
      if dto.approve && seen.any fun before => before.ownerOf taskId == some ownerId then
        [.approved ownerId approvalId taskId]
      else []
    | none => []
  | _, _ => []

/-! ## Actions -/

/-- **What can happen next.** -/
inductive Action (n : ℕ) where
  /-- A request arrives, a job is taken, a timer fires. -/
  | call (call : HubCall)
  /-- One node of a call. -/
  | resume (i : ℕ)
  | connect (d : Fin n)
  /-- The connection of a daemon breaks. -/
  | disconnect (d : Fin n)
  /-- The Hub notices that the connection of a socket is gone. -/
  | drop (socketId : ℕ)
  /-- The Hub receives the oldest message of a daemon. -/
  | deliver (d : Fin n)
  /-- A daemon receives the oldest message for it. -/
  | receive (d : Fin n) (outcome : SpawnOutcome)
  | heartbeat (d : Fin n)
  | child (d : Fin n) (runner : ℕ) (event : ChildEvent)
  /-- The process of a daemon ends and is started again. -/
  | restart (d : Fin n)

/-- The calls that come from the network of the daemons. -/
def HubCall.fromDaemon : HubCall → Bool
  | openSocket _ | handleConnection _ | handleDisconnect _ | message _ _ => true
  | _ => false

namespace Fleet

variable (env : Env) (detectors : Detectors)

/-- The Hub starts to serve a call. -/
def serve (call : HubCall) (origin : Option (Fin n × ℕ)) (F : Fleet n) : Fleet n :=
  { F with
    pool := F.pool.add (perform env call)
    calls := F.calls ++ [⟨call, origin⟩] }

/-- A change of one daemon, with what its runners did. -/
def setDaemon (d : Fin n) (next : DaemonClient × List RunnerEvent) (F : Fleet n) : Fleet n :=
  { F with
    daemons := Function.update F.daemons d next.1
    trace := F.trace ++ next.2.map (.runner d) }

/-- What the node of a call adds to the trace. -/
def nodeEvents (F : Fleet n) (i : ℕ) : List (Event n) :=
  match F.calls[i]?, F.pool.threads[i]? with
  | some served, some thread =>
    served.events (thread.past.map (·.1)) F.hub (F.pool.step i).shared
  | _, _ => []

/-- The messages a node emits. -/
def nodeEmissions (F : Fleet n) (i : ℕ) : List Emission :=
  (F.pool.step i).shared.emitted.drop F.hub.emitted.length

/-- One node of a call: what it emits is heard, what it writes is recorded. -/
def resume (i : ℕ) (F : Fleet n) : Fleet n :=
  { F with
    pool := F.pool.step i
    daemons := fun d => (F.daemons d).hear F.hub (F.nodeEmissions i)
    trace := F.trace ++ F.nodeEvents i }

/-- The Hub opens a socket for a daemon, which sends what it has buffered. -/
def connect (d : Fin n) (F : Fleet n) : Fleet n :=
  let socketId := F.hub.sockets.next
  let hub := { F.hub with
    sockets := F.hub.sockets.insert ⟨some (F.daemons d).apiKey, none, none⟩ }
  { F with
    pool := { F.pool with shared := hub }
    daemons := Function.update F.daemons d ((F.daemons d).onConnect socketId) }.serve env
      (.handleConnection socketId) none

/-- The oldest message of a daemon leaves it. -/
def takeOutgoing (client : DaemonClient) : Option (ℕ × Outgoing × DaemonClient) :=
  client.socket.bind fun connection =>
    match connection.outbox with
    | [] => none
    | message :: rest =>
      some (connection.socketId, message,
        { client with socket := some { connection with outbox := rest } })

/-- The Hub takes up the oldest message of a daemon, as a call. -/
def deliver (d : Fin n) (F : Fleet n) : Fleet n :=
  match takeOutgoing (F.daemons d) with
  | none => F
  | some (socketId, message, client) =>
    { F with daemons := Function.update F.daemons d client }.serve env
      (.message socketId message.inbound) (message.runner.map fun runner => (d, runner))

/-- The oldest message for a daemon reaches it. -/
def takeIncoming (client : DaemonClient) : Option (DaemonOutbound × DaemonClient) :=
  client.socket.bind fun connection =>
    match connection.inbox with
    | [] => none
    | message :: rest =>
      some (message, { client with socket := some { connection with inbox := rest } })

/-- A daemon handles the oldest message for it. -/
def receive (d : Fin n) (outcome : SpawnOutcome) (F : Fleet n) : Fleet n :=
  match takeIncoming (F.daemons d) with
  | none => F
  | some (message, client) => F.setDaemon d (client.onMessage detectors outcome message)

/-- What an action does. -/
def step (F : Fleet n) : Action n → Fleet n
  | .call call => F.serve env call none
  | .resume i => F.resume i
  | .connect d => F.connect env d
  | .disconnect d => F.setDaemon d ((F.daemons d).onDisconnect, [])
  | .drop socketId => F.serve env (.handleDisconnect socketId) none
  | .deliver d => F.deliver env d
  | .receive d outcome => F.receive detectors d outcome
  | .heartbeat d => F.setDaemon d ((F.daemons d).heartbeat, [])
  | .child d runner event => F.setDaemon d ((F.daemons d).onChildEvent detectors runner event)
  | .restart d => F.setDaemon d ((F.daemons d).restart, [])

/-! ## When an action can happen -/

/-- Whether the Hub is at work on a job: the queue gives it to no other call. -/
def atWork (F : Fleet n) (jobId : ℕ) : Bool :=
  F.calls.zipIdx.any fun entry =>
    match entry.1.call with
    | .dispatch other => other == jobId && F.pool.live entry.2
    | _ => false

/-- Whether the Hub has handled the end of a socket. -/
def hasDropped (F : Fleet n) (socketId : ℕ) : Bool :=
  F.calls.any fun served =>
    match served.call with
    | .handleDisconnect other => other == socketId
    | _ => false

/-- Whether some daemon is connected on a socket. -/
def connectedOn (F : Fleet n) (socketId : ℕ) : Bool :=
  decide (∃ d, ((F.daemons d).socket.map (·.socketId)) = some socketId)

/-- The child of a runner, if it has one. -/
def childOf (F : Fleet n) (d : Fin n) (runner : ℕ) : Option Child :=
  ((F.daemons d).objects runner).bind (·.child)

/-- A call of a user needs the user, a delivery a message, a job the queue. -/
def enabled (F : Fleet n) : Action n → Prop
  | .call call => call.fromDaemon = false ∧ call.possible F.hub ∧
      ∀ jobId, call = .dispatch jobId → F.atWork jobId = false
  | .resume i => F.pool.live i = true
  | .connect d => (F.daemons d).socket.isNone = true
  | .disconnect d => (F.daemons d).socket.isSome = true
  | .drop socketId => (F.hub.sockets socketId).isSome = true ∧
      F.connectedOn socketId = false ∧ F.hasDropped socketId = false
  | .deliver d => (takeOutgoing (F.daemons d)).any
      (fun taken => (F.hub.sockets taken.1).isSome) = true
  | .receive d _ => (takeIncoming (F.daemons d)).isSome = true
  | .heartbeat _ | .restart _ => True
  | .child d runner event => (F.childOf d runner).any (event.possible ·) = true

end Fleet

/-- **The composed system**: the Hub with interleaved handlers, its daemons, and
the messages in flight. -/
def fleetMachine (n : ℕ) (env : Env) (detectors : Detectors) : Machine (Fleet n) (Action n) where
  start := Fleet.Initial
  enabled := Fleet.enabled
  step := Fleet.step env detectors

end CodeCaller
