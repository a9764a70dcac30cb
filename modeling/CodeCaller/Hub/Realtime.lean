import CodeCaller.Hub.State

/-!
# `realtime`, `notifications` and `servers`

The services the task and approval handlers rest on: delivery to the rooms of the `/daemon` and
`/app` namespaces, push notifications, the servers of a user, and the part of the daemon gateway
that keeps track of connections.

### Main definitions

* `RealtimeService.dispatchToServer`: a message for the daemon of a server, or the exception
  `HubError.offline` if no socket is in the room of the server.
* `RealtimeService.notifyUser`, `NotificationsService.sendPush`: what a user hears of.
* `ServersService`: the servers of a user, their deletion with everything that hangs on them, and
  the lookup of the server a key belongs to.
* `DaemonGateway.handleConnection`, `handleDisconnect`, `onHeartbeat`: how a socket gets its `data`
  and its room, and how a server becomes `ONLINE` and `OFFLINE`.

### Two notions of being connected

A server is `ONLINE` by a column of its row, which the gateway writes, and it is `Hub.online` if a
socket is in its room.  The registry chooses candidates by the first, a delivery is decided by the
second, and nothing in the code keeps the two together: a daemon with two sockets is `OFFLINE`
after one of them is closed, and still reachable.  The model keeps both.

A message to a room is recorded in `emitted` with the server whose room it was sent to.  Whether it
arrives is up to the socket, so the model has no acknowledgement: `dispatchToServer` returns as
soon as it was sent, as `server.to(room).emit` does.
-/

namespace CodeCaller

open Async

variable (env : Env)

/-! ## `RealtimeService` -/

/-- Whether some socket is in the room of a server. -/
def Hub.online (h : Hub) (serverId : ServerId) : Bool :=
  h.sockets.toList.any fun row => row.2.room == some serverId

namespace DaemonGateway

/-- The rooms are looked at once; by the time a message is sent the socket may be gone. -/
def isServerOnline (serverId : ServerId) : HubM Bool :=
  .read fun h => h.online serverId

def dispatchToServer (serverId : ServerId) (message : DaemonOutbound) : HubM Unit :=
  .modify fun h => { h with emitted := h.emitted ++ [⟨serverId, message⟩] }

end DaemonGateway

/-- The exception of `RealtimeService.dispatchToServer`. -/
def HubError.offline (serverId : ServerId) : HubError :=
  ⟨.serviceUnavailable,
    js "서버(" ++ JsString.ofNat serverId ++ js ")의 Agent Daemon이 연결되어 있지 않습니다."⟩

namespace RealtimeService

def dispatchToServer (serverId : ServerId) (message : DaemonOutbound) : HubM Unit := do
  let online ← DaemonGateway.isServerOnline serverId
  if !online then
    throw (HubError.offline serverId)
  DaemonGateway.dispatchToServer serverId message

/-- To the room of the user in the `/app` namespace, whether or not anybody is in it. -/
def notifyUser (userId : UserId) (message : AppOutbound) : HubM Unit :=
  .modify fun h => { h with notified := h.notified ++ [(userId, message)] }

end RealtimeService

/-! ## `NotificationsService` -/

namespace NotificationsService

/-- `this.config.getOrThrow('PUSH_TOKEN_ENC_KEY')`. -/
def pushTokenEncKey : HubM JsString :=
  match env.processEnv (js "PUSH_TOKEN_ENC_KEY") with
  | some key => pure key
  | none => throw ⟨.error, js "Configuration key \"PUSH_TOKEN_ENC_KEY\" does not exist"⟩

/-- Decrypt the stored tokens one after the other. -/
def decryptTokens (key : JsString) : List (ℕ × PushToken) → HubM (List JsString)
  | [] => pure []
  | (_, stored) :: rest =>
    match decryptSecret env.crypto stored.token key with
    | none => throw ⟨.error, js "Unsupported state or unable to authenticate data"⟩
    | some token => do
      let tokens ← decryptTokens key rest
      pure (token :: tokens)

/-- `sendPush`; a failure of Firebase itself is caught and logged. -/
def sendPush (userId : UserId) (title body : JsString) : HubM Unit := do
  if !env.fcmReady then
    return
  let key ← pushTokenEncKey env
  let pushTokens ← Proc.read fun h =>
    env.rowOrder (h.pushTokens.toList.filter fun row => row.2.userId == userId)
  if pushTokens.isEmpty then
    return
  let tokens ← decryptTokens env key pushTokens
  Proc.modify fun h => { h with pushes := h.pushes ++ [⟨tokens, title, body⟩] }

end NotificationsService

/-! ## `ServersService` -/

/-- `CreateServerDto`. -/
structure CreateServerDto where
  name : JsString
  osType : OsType
  tailscaleIp : JsString

/-- The columns of a server that leave the Hub. -/
structure PublicServer where
  id : ServerId
  name : JsString
  osType : OsType
  tailscaleIp : JsString
  status : ServerStatus
  lastHeartbeatAt : Option Time
  createdAt : Time

namespace ServersService

/-- Everything but the owner and the digest of the API key. -/
def toPublic (id : ServerId) (server : Server) : PublicServer :=
  { id, name := server.name, osType := server.osType, tailscaleIp := server.tailscaleIp,
    status := server.status, lastHeartbeatAt := server.lastHeartbeatAt,
    createdAt := server.createdAt }

/-- The profiles of a server that was created by hand. -/
def defaultWorkerProfiles : List (WorkerProvider × JsString × Bool) :=
  [(.CODEX, js "default", true)]

/-- `server.create({ data: { ..., workerProfiles: { create } } })`: one nested
write. -/
def serverCreate (ownerId : UserId) (dto : CreateServerDto) (apiKeyHash : JsString)
    (profiles : List (WorkerProvider × JsString × Bool)) : HubM (ServerId × Server) :=
  .atomically fun h =>
    let server : Server :=
      { ownerId, name := dto.name, osType := dto.osType, tailscaleIp := dto.tailscaleIp,
        apiKeyHash, status := .OFFLINE, lastHeartbeatAt := none,
        createdAt := env.clock h.reads }
    let id := h.servers.next
    let workerProfiles := profiles.foldl (fun table profile =>
      table.insert ⟨id, profile.1, profile.2.1, profile.2.2⟩) h.workerProfiles
    (.ok (id, server),
      { h with servers := h.servers.insert server, workerProfiles, reads := h.reads + 1 })

/-- The key is answered once, and stored as its digest only. -/
def create (ownerId : UserId) (dto : CreateServerDto) : HubM (PublicServer × JsString) := do
  let apiKey := generateApiKey env.crypto (← draw)
  let (id, server) ← serverCreate env ownerId dto (hashApiKey env.crypto apiKey)
    defaultWorkerProfiles
  return (toPublic id server, apiKey)

def findAllForOwner (ownerId : UserId) : HubM (List PublicServer) := do
  let servers ← Proc.read fun h =>
    env.rowOrder (h.servers.toList.filter fun row => row.2.ownerId == ownerId)
  return servers.map fun row => toPublic row.1 row.2

/-- A server that is not there is `notFound`, one of another user `forbidden`. -/
def getOwnedServer (ownerId : UserId) (serverId : ServerId) : HubM Server := do
  match ← Proc.read fun h => h.servers serverId with
  | none => throw ⟨.notFound, js "서버를 찾을 수 없습니다."⟩
  | some server =>
    if server.ownerId ≠ ownerId then
      throw ⟨.forbidden, js "해당 서버에 접근할 권한이 없습니다."⟩
    return server

def findOneForOwner (ownerId : UserId) (serverId : ServerId) : HubM PublicServer := do
  let server ← getOwnedServer ownerId serverId
  return toPublic serverId server

def getHealth (ownerId : UserId) (serverId : ServerId) :
    HubM (ServerStatus × Option Time) := do
  let server ← getOwnedServer ownerId serverId
  return (server.status, server.lastHeartbeatAt)

/-- Whether the server a task is on is kept by a deletion. -/
def survives (h : Hub) (serverId : ServerId) (taskId : TaskId) : Bool :=
  match h.tasks taskId with
  | some task => task.serverId != serverId
  | none => false

/-- `server.delete`, with `onDelete: Cascade` on its worker profiles, tasks and
attempts and on the approvals and attempts of those tasks, and `SetNull` on the
registration requests. -/
def serverDelete (serverId : ServerId) : HubM Unit :=
  .atomically fun h =>
    match h.servers serverId with
    | none => (.error .recordNotFound, h)
    | some _ =>
      (.ok (),
        { h with
          servers := h.servers.filter fun id _ => id != serverId
          workerProfiles := h.workerProfiles.filter fun _ profile => profile.serverId != serverId
          tasks := h.tasks.filter fun _ task => task.serverId != serverId
          attempts := h.attempts.filter fun _ attempt =>
            attempt.serverId != serverId && survives h serverId attempt.taskId
          approvals := h.approvals.filter fun _ approval => survives h serverId approval.taskId
          registrations := h.registrations.map fun request =>
            if request.serverId = some serverId then { request with serverId := none }
            else request })

def remove (ownerId : UserId) (serverId : ServerId) : HubM Unit := do
  let _ ← getOwnedServer ownerId serverId
  serverDelete serverId

/-- The row is updated by its id, so a server that was deleted is an error. -/
def markHeartbeat (serverId : ServerId) : HubM Unit := do
  let date ← now env
  Prisma.serverUpdate serverId fun server =>
    { server with status := .ONLINE, lastHeartbeatAt := some date }

def markOffline (serverId : ServerId) : HubM Unit :=
  Prisma.serverUpdate serverId fun server => { server with status := .OFFLINE }

/-- `findFirst` without `orderBy`: of two servers with one digest, the database may return either.
-/
def findByApiKey (apiKey : JsString) : HubM (Option (ServerId × Server)) :=
  let apiKeyHash := hashApiKey env.crypto apiKey
  .read fun h =>
    (env.rowOrder (h.servers.toList.filter fun row => row.2.apiKeyHash == apiKeyHash)).head?

end ServersService

/-! ## `DaemonGateway`: connections -/

namespace DaemonGateway

/-- `socket.disconnect(true)`: the socket leaves its room and is gone. -/
def disconnect (socketId : ℕ) : HubM Unit :=
  .modify fun h => { h with sockets := h.sockets.filter fun id _ => id != socketId }

/-- `socket.handshake.auth?.apiKey`, where an empty one counts as missing. -/
def handshakeKey (h : Hub) (socketId : ℕ) : Option JsString :=
  ((h.sockets socketId).bind (·.apiKey)).filter fun apiKey => !apiKey.isEmpty

/-- `client.data` is set before the room is joined, and the row is updated last; a key that is
missing or that no server has ends the connection. -/
def handleConnection (socketId : ℕ) : HubM Unit := do
  match ← Proc.take (fun h => handshakeKey h socketId) id with
  | none => disconnect socketId
  | some apiKey =>
    match ← ServersService.findByApiKey env apiKey with
    | none => disconnect socketId
    | some (serverId, server) =>
      Proc.modify fun h =>
        { h with sockets := h.sockets.modify socketId fun socket =>
            { socket with data := some (serverId, server.ownerId) } }
      Proc.atomically fun h =>
        (.ok (), { h with sockets := h.sockets.modify socketId fun socket =>
            { socket with room := some serverId } })
      ServersService.markHeartbeat env serverId

/-- The socket has left its room when `handleDisconnect` runs. -/
def handleDisconnect (socketId : ℕ) : HubM Unit := do
  let data ← Proc.take (fun h => (h.sockets socketId).bind (·.data)) id
  disconnect socketId
  match data with
  | some (serverId, _) => ServersService.markOffline serverId
  | none => pure ()

/-- A socket that never authenticated has no `data`, and is ignored. -/
def onHeartbeat (socketId : ℕ) : HubM Unit := do
  match ← Proc.take (fun h => (h.sockets socketId).bind (·.data)) id with
  | some (serverId, _) => ServersService.markHeartbeat env serverId
  | none => pure ()

end DaemonGateway

end CodeCaller
