import CodeCaller.Hub.Handlers

/-!
# The recorded presence of a server

The sockets opened with the API key of one server.  Two things say whether its daemon is there:
`Server.status`, which each of the sockets sets and clears by itself and which the choice of
dispatch candidates reads, and the room of the server, which delivery counts.

* `presenceMachine`: the sockets connect with the key of the server, and those in its room send
  heartbeats and go, each event handled to its end.
* `Alone`: a disconnection that leaves no other socket of the server behind.
* `presence_agrees_step`: one event leaves the two notions in agreement exactly if it is not a
  disconnection from which another socket is left.
* `presence_agrees_iff`: and so for runs.  `presence_lost` is a daemon that reconnects before its
  old socket is gone; it stays `OFFLINE` until its next heartbeat, and is no candidate until then.
-/

namespace CodeCaller

open Async

/-- **What happens to the sockets of a server.** -/
inductive PresenceEvent where
  | connect
  | heartbeat (socketId : ℕ)
  | disconnect (socketId : ℕ)
deriving DecidableEq

variable (env : Env) (apiKey : JsString) (serverId : ServerId)

namespace Hub

/-- An event is handled to completion. -/
def handled (h : Hub) : PresenceEvent → Hub
  | .connect =>
    (h.after env (.openSocket (some apiKey))).after env (.handleConnection h.sockets.next)
  | .heartbeat socketId => h.after env (.message socketId .HEARTBEAT)
  | .disconnect socketId => h.after env (.handleDisconnect socketId)

/-- The key is that of a server, and of no other. -/
def KeyOf (h : Hub) : Prop :=
  ∃ server, h.servers serverId = some server ∧ server.apiKeyHash = hashApiKey env.crypto apiKey ∧
    ∀ other row, h.servers other = some row →
      row.apiKeyHash = hashApiKey env.crypto apiKey → other = serverId

/-- A socket is in the room of the server. -/
def InRoom (h : Hub) (socketId : ℕ) : Prop :=
  ∃ socket, h.sockets socketId = some socket ∧ socket.room = some serverId

instance (h : Hub) (socketId : ℕ) : Decidable (h.InRoom serverId socketId) :=
  decidable_of_iff ((h.sockets socketId).any (·.room == some serverId) = true) <| by
    simp only [Option.any_eq_true, beq_iff_eq]
    rfl

/-- **The two notions of presence agree**: the status is `ONLINE` exactly when some
socket is in the room. -/
def PresenceAgrees (h : Hub) : Prop :=
  (h.servers serverId).map (·.status) = some .ONLINE ↔ h.online serverId = true

instance (h : Hub) : Decidable (h.PresenceAgrees serverId) :=
  inferInstanceAs (Decidable (_ ↔ _))

/-- A disconnection leaves no other socket of the server behind. -/
def Alone (h : Hub) : PresenceEvent → Prop
  | .disconnect socketId => ∀ other, h.InRoom serverId other → other = socketId
  | .connect | .heartbeat _ => True

instance (h : Hub) (event : PresenceEvent) : Decidable (h.Alone serverId event) :=
  match event with
  | .connect | .heartbeat _ => inferInstanceAs (Decidable True)
  | .disconnect socketId =>
    decidable_of_iff (∀ row ∈ h.sockets.toList, row.2.room = some serverId → row.1 = socketId) <| by
      simp only [Prod.forall, Table.mem_toList]
      exact ⟨fun hall other ⟨socket, hsocket, hroom⟩ => hall other socket hsocket hroom,
        fun hall other socket hsocket hroom => hall other ⟨socket, hsocket, hroom⟩⟩

end Hub

/-- **The sockets of a server**: they connect with its key, and those in its room send
heartbeats and go. -/
def presenceMachine : Machine Hub PresenceEvent where
  start h := apiKey ≠ [] ∧ h.KeyOf env apiKey serverId ∧ ∀ socketId, ¬h.InRoom serverId socketId
  enabled h event :=
    match event with
    | .connect => True
    | .heartbeat socketId | .disconnect socketId => h.InRoom serverId socketId
  step h event := h.handled env apiKey event

instance (h : Hub) (event : PresenceEvent) :
    Decidable ((presenceMachine env apiKey serverId).enabled h event) :=
  match event with
  | .connect => inferInstanceAs (Decidable True)
  | .heartbeat socketId | .disconnect socketId =>
    inferInstanceAs (Decidable (h.InRoom serverId socketId))

instance (h : Hub) (events : List PresenceEvent) :
    Decidable ((presenceMachine env apiKey serverId).Runs h events) :=
  inferInstanceAs (Decidable (∀ visit ∈ (presenceMachine env apiKey serverId).visits h events,
    (presenceMachine env apiKey serverId).enabled visit.1 visit.2))

variable {env apiKey serverId} {h : Hub} {socketId : ℕ}

/-! ## One event -/

/-- What every event keeps: the key finds the server, and a socket in its room knows
it. -/
structure Hub.Attended (env : Env) (apiKey : JsString) (serverId : ServerId) (h : Hub) : Prop where
  key : h.KeyOf env apiKey serverId
  data : ∀ socketId socket, h.sockets socketId = some socket → socket.room = some serverId →
    ∃ owner, socket.data = some (serverId, owner)

/-- What a heartbeat leaves: the server online, and the date. -/
theorem markHeartbeat_after (hserver : h.servers serverId ≠ none) :
    (ServersService.markHeartbeat env serverId).run h =
      (.ok (), { h with
        reads := h.reads + 1
        servers := h.servers.modify serverId fun server =>
          { server with status := .ONLINE, lastHeartbeatAt := some (env.clock h.reads) } }) := by
  unfold ServersService.markHeartbeat
  rw [Proc.run_bind_of_ok now_run]
  unfold Prisma.serverUpdate
  rw [Proc.run_atomically]
  dsimp only
  cases hrow : h.servers serverId with
  | none => exact absurd hrow hserver
  | some server => rfl

/-- What the last disconnection leaves. -/
theorem markOffline_after (hserver : h.servers serverId ≠ none) :
    (ServersService.markOffline serverId).run h =
      (.ok (), { h with
        servers := h.servers.modify serverId fun server =>
          { server with status := .OFFLINE } }) := by
  unfold ServersService.markOffline Prisma.serverUpdate
  rw [Proc.run_atomically]
  cases hrow : h.servers serverId with
  | none => exact absurd hrow hserver
  | some server => rfl

/-- A key of one server finds it. -/
theorem findByApiKey_keyOf (hkey : h.KeyOf env apiKey serverId) : ∃ server,
    (ServersService.findByApiKey env apiKey).run h = (.ok (some (serverId, server)), h) := by
  obtain ⟨server, hserver, hhash, honly⟩ := hkey
  exact ⟨server, findByApiKey_only hserver hhash honly⟩

/-- A change of the server that keeps its key. -/
theorem Hub.KeyOf.modified {h' : Hub} {f : Server → Server} (hkey : h.KeyOf env apiKey serverId)
    (hservers : h'.servers = h.servers.modify serverId f)
    (hf : ∀ server, (f server).apiKeyHash = server.apiKeyHash) :
    h'.KeyOf env apiKey serverId := by
  obtain ⟨server, hserver, hhash, honly⟩ := hkey
  unfold Hub.KeyOf
  rw [hservers]
  refine ⟨f server, by simp [hserver], (hf server).trans hhash, fun other row hrow hsame => ?_⟩
  rw [Table.modify_apply] at hrow
  split at hrow
  · next heq => exact heq
  · exact honly other row hrow hsame

/-- A connection: one more socket in the room, and the server is `ONLINE`. -/
theorem handled_connect (hkey : h.KeyOf env apiKey serverId) (hne : apiKey ≠ []) :
    ∃ owner date, h.handled env apiKey .connect = { h with
      reads := h.reads + 1
      sockets := h.sockets.insert ⟨some apiKey, some (serverId, owner), some serverId⟩
      servers := h.servers.modify serverId fun server =>
        { server with status := .ONLINE, lastHeartbeatAt := some date } } := by
  obtain ⟨opened, hopened⟩ : ∃ opened : Hub, opened =
      { h with sockets := h.sockets.insert ⟨some apiKey, none, none⟩ } := ⟨_, rfl⟩
  have hopenedKey : opened.KeyOf env apiKey serverId := by
    rw [hopened]
    exact hkey
  obtain ⟨server, hfind⟩ := findByApiKey_keyOf hopenedKey
  have hstored : h.servers serverId ≠ none := by
    obtain ⟨row, hrow, -⟩ := hkey
    rw [hrow]
    exact Option.some_ne_none row
  -- the key of the handshake is that of the socket that was just opened
  have hhandshake : DaemonGateway.handshakeKey opened h.sockets.next = some apiKey := by
    rw [hopened]
    simp [DaemonGateway.handshakeKey, hne]
  obtain ⟨joined, hjoined⟩ : ∃ joined : Hub, joined = { h with
      sockets := h.sockets.insert ⟨some apiKey, some (serverId, server.ownerId), some serverId⟩ } :=
    ⟨_, rfl⟩
  have hsockets : { opened with
      sockets := (opened.sockets.modify h.sockets.next fun socket =>
          { socket with data := some (serverId, server.ownerId) }).modify h.sockets.next
        fun socket => { socket with room := some serverId } } = joined := by
    rw [hjoined, hopened]
    simp
  have hmarked := @markHeartbeat_after env serverId joined (by rwa [hjoined])
  refine ⟨server.ownerId, env.clock h.reads, ?_⟩
  have hrun : (DaemonGateway.handleConnection env h.sockets.next).run opened =
      (.ok (), { joined with
        reads := joined.reads + 1
        servers := joined.servers.modify serverId fun server =>
          { server with
            status := .ONLINE
            lastHeartbeatAt := some (env.clock joined.reads) } }) := by
    unfold DaemonGateway.handleConnection
    rw [Proc.run_bind, Proc.run_take, hhandshake]
    dsimp only [id]
    rw [Proc.run_bind_of_ok hfind]
    dsimp only
    rw [Proc.run_bind, Proc.run_modify]
    dsimp only
    rw [Proc.run_bind, Proc.run_atomically]
    dsimp only
    rw [hsockets]
    exact hmarked
  have hafter : h.handled env apiKey .connect =
      (((DaemonGateway.handleConnection env h.sockets.next).run opened).2) := by
    unfold Hub.handled
    dsimp only
    rw [show h.after env (.openSocket (some apiKey)) = opened from hopened.symm]
    unfold Hub.after perform
    dsimp only
    rw [Proc.run_bind_of_ok hrun, hrun]
    rfl
  rw [hafter, hrun, hjoined]

/-- A heartbeat sets the status, whatever it was. -/
theorem handled_heartbeat (hattended : h.Attended env apiKey serverId)
    (hroom : h.InRoom serverId socketId) :
    ∃ date, h.handled env apiKey (.heartbeat socketId) = { h with
      reads := h.reads + 1
      servers := h.servers.modify serverId fun server =>
        { server with status := .ONLINE, lastHeartbeatAt := some date } } := by
  obtain ⟨socket, hsocket, hsocketRoom⟩ := hroom
  obtain ⟨owner, hdata⟩ := hattended.data _ _ hsocket hsocketRoom
  obtain ⟨server, hserver, -⟩ := hattended.key
  have hfound : (h.sockets socketId).bind (·.data) = some (serverId, owner) := by
    rw [hsocket]
    exact hdata
  have hmarked := @markHeartbeat_after env serverId h (by simp [hserver])
  refine ⟨env.clock h.reads, ?_⟩
  unfold Hub.handled Hub.after perform DaemonGateway.onMessage DaemonGateway.onHeartbeat
  simp only [Proc.run_bind, Proc.run_take, hfound, id, hmarked]
  rfl

/-- A disconnection clears the status, whoever else is in the room. -/
theorem handled_disconnect (hattended : h.Attended env apiKey serverId)
    (hroom : h.InRoom serverId socketId) :
    h.handled env apiKey (.disconnect socketId) = { h with
      sockets := h.sockets.filter fun id _ => id != socketId
      servers := h.servers.modify serverId fun server => { server with status := .OFFLINE } } := by
  obtain ⟨socket, hsocket, hsocketRoom⟩ := hroom
  obtain ⟨owner, hdata⟩ := hattended.data _ _ hsocket hsocketRoom
  obtain ⟨server, hserver, -⟩ := hattended.key
  have hfound : (h.sockets socketId).bind (·.data) = some (serverId, owner) := by
    rw [hsocket]
    exact hdata
  have hmarked := @markOffline_after serverId
    { h with sockets := h.sockets.filter fun id _ => id != socketId } (by simp [hserver])
  unfold Hub.handled Hub.after perform DaemonGateway.handleDisconnect DaemonGateway.disconnect
  simp only [Proc.run_bind, Proc.run_take, Proc.run_modify, hfound, id, hmarked]
  rfl

/-! ## Runs -/

/-- The key and the data of the sockets in the room stay what they are. -/
theorem handled_attended {event : PresenceEvent} (hattended : h.Attended env apiKey serverId)
    (hne : apiKey ≠ [])
    (henabled : (presenceMachine env apiKey serverId).enabled h event) :
    (h.handled env apiKey event).Attended env apiKey serverId := by
  cases event with
  | connect =>
      obtain ⟨owner, date, hafter⟩ := handled_connect hattended.key hne
      rw [hafter]
      refine ⟨hattended.key.modified rfl fun _ => rfl, fun id socket hsocket hroom => ?_⟩
      rw [Table.insert_apply] at hsocket
      split at hsocket
      · cases hsocket
        exact ⟨owner, rfl⟩
      · exact hattended.data id socket hsocket hroom
  | heartbeat socketId =>
      obtain ⟨date, hafter⟩ := handled_heartbeat hattended henabled
      rw [hafter]
      exact ⟨hattended.key.modified rfl fun _ => rfl, hattended.data⟩
  | disconnect socketId =>
      rw [handled_disconnect hattended henabled]
      refine ⟨hattended.key.modified rfl fun _ => rfl, fun id socket hsocket hroom => ?_⟩
      rw [Table.filter_apply, Option.filter_eq_some_iff] at hsocket
      exact hattended.data id socket hsocket.1 hroom

/-- **One event leaves the two notions in agreement exactly if it leaves no socket
behind.** -/
theorem presence_agrees_step {event : PresenceEvent} (hattended : h.Attended env apiKey serverId)
    (hne : apiKey ≠ [])
    (henabled : (presenceMachine env apiKey serverId).enabled h event) :
    (h.handled env apiKey event).PresenceAgrees serverId ↔ h.Alone serverId event := by
  obtain ⟨server, hserver, -⟩ := hattended.key
  unfold Hub.PresenceAgrees
  rw [online_iff]
  cases event with
  | connect =>
      obtain ⟨owner, date, hafter⟩ := handled_connect hattended.key hne
      rw [hafter]
      simp only [Table.modify_apply, if_pos, hserver, Option.map_some]
      exact iff_of_true (iff_of_true trivial ⟨h.sockets.next, _, if_pos rfl, rfl⟩) trivial
  | heartbeat socketId =>
      obtain ⟨date, hafter⟩ := handled_heartbeat hattended henabled
      rw [hafter]
      simp only [Table.modify_apply, if_pos, hserver, Option.map_some]
      exact iff_of_true (iff_of_true trivial ⟨socketId, henabled⟩) trivial
  | disconnect socketId =>
      rw [handled_disconnect hattended henabled]
      simp only [Table.modify_apply, if_pos, hserver, Option.map_some, Table.filter_apply,
        Option.filter_eq_some_iff, bne_iff_ne]
      constructor
      · rintro hagrees other ⟨socket, hsocket, hroom⟩
        by_contra hother
        cases hagrees.mpr ⟨other, socket, ⟨hsocket, hother⟩, hroom⟩
      · intro halone
        refine iff_of_false nofun ?_
        rintro ⟨other, socket, ⟨hsocket, hother⟩, hroom⟩
        exact hother (halone other ⟨socket, hsocket, hroom⟩)

/-- So it is in every state of a run. -/
theorem visits_attended {events : List PresenceEvent} (hattended : h.Attended env apiKey serverId)
    (hne : apiKey ≠ []) (hruns : (presenceMachine env apiKey serverId).Runs h events) :
    ∀ visit ∈ (presenceMachine env apiKey serverId).visits h events,
      visit.1.Attended env apiKey serverId := by
  induction events generalizing h with
  | nil => exact fun _ hvisit => nomatch hvisit
  | cons event events ih =>
      rw [Machine.runs_cons] at hruns
      rw [Machine.visits_cons, List.forall_mem_cons]
      exact ⟨hattended, ih (handled_attended hattended hne hruns.1) hruns.2⟩

/-- **Recorded presence matches real presence exactly where no disconnection leaves
another socket of the server behind**: in every run of the sockets opened with the
key of a server, the status is `ONLINE` after each event exactly when some socket
is in the room, if and only if no socket goes while another is in the room. -/
theorem presence_agrees_iff {events : List PresenceEvent}
    (hstart : (presenceMachine env apiKey serverId).start h)
    (hruns : (presenceMachine env apiKey serverId).Runs h events) :
    (∀ visit ∈ (presenceMachine env apiKey serverId).visits h events,
      (visit.1.handled env apiKey visit.2).PresenceAgrees serverId) ↔
    ∀ visit ∈ (presenceMachine env apiKey serverId).visits h events,
      visit.1.Alone serverId visit.2 := by
  obtain ⟨hne, hkey, hnone⟩ := hstart
  have hattended : h.Attended env apiKey serverId :=
    ⟨hkey, fun id socket hsocket hroom => absurd ⟨socket, hsocket, hroom⟩ (hnone id)⟩
  refine forall₂_congr fun visit hvisit => presence_agrees_step ?_ hne (hruns visit hvisit)
  exact visits_attended hattended hne hruns visit hvisit

/-- A server whose daemon has never connected. -/
theorem sample_start : (presenceMachine Env.sample (js "a") 0).start Hub.sample := by
  refine ⟨by decide, ⟨_, rfl, rfl, fun other row hrow hsame => ?_⟩, fun _ h => ?_⟩
  · have hother : other < 3 := Table.lt_next hrow
    obtain rfl | rfl | rfl : other = 0 ∨ other = 1 ∨ other = 2 := by omega
    · rfl
    · cases hrow
      exact absurd hsame (by decide)
    · cases hrow
      exact absurd hsame (by decide)
  · obtain ⟨socket, hsocket, -⟩ := h
    cases hsocket

/-- A daemon comes, goes and comes again. -/
theorem presence_agrees_again :
    (presenceMachine Env.sample (js "a") 0).Runs Hub.sample
        [.connect, .heartbeat 0, .disconnect 0, .connect] ∧
      ∀ visit ∈ (presenceMachine Env.sample (js "a") 0).visits Hub.sample
          [.connect, .heartbeat 0, .disconnect 0, .connect],
        (visit.1.handled Env.sample (js "a") visit.2).PresenceAgrees 0 :=
  ⟨by decide,
    (presence_agrees_iff sample_start (by decide)).mpr (by decide)⟩

/-- A daemon that reconnects before its old socket is gone is recorded as offline. -/
theorem presence_lost :
    (presenceMachine Env.sample (js "a") 0).start Hub.sample ∧
      (presenceMachine Env.sample (js "a") 0).Runs Hub.sample
        [.connect, .connect, .disconnect 0] ∧
      ¬((presenceMachine Env.sample (js "a") 0).exec Hub.sample
        [.connect, .connect, .disconnect 0]).PresenceAgrees 0 :=
  ⟨sample_start, by decide, by decide⟩

end CodeCaller
