import CodeCaller.Daemon.Trust
import CodeCaller.Fleet.Tenancy

/-!
# What the daemons of a fleet run

From the submission of a task to the process that works on it lie the queue, the dispatch to a
candidate, the room of a server, a socket that was accepted for its key, and the runner of a
daemon. Over all of it, whatever is interleaved, lost or reconnected, a daemon runs nothing but
what was submitted by a user whose server it has the key of, and speaks about nothing else.

### The pieces

* `KeyOf`: a daemon is configured with the key of a server of a user.  `Entrusted`: such a user has
  submitted the task, with this input.
* `Write.room`: a socket in a room was there already, or has shown the key of its server.  The room
  is joined after the key was looked up, and by the history the key is that of the server still.
* `Fleet.Trusted.brings`: what is sent to the room a daemon is in is entrusted to it.
* `Trusts`, from `Daemon.Trust`: a daemon that hears of entrusted tasks only runs those.
* `Fleet.Trusted`: the invariant, which follows a task through rooms, messages under way, runners,
  and back in what the runners say.
-/

namespace CodeCaller

open Async

variable {n : ℕ} {env : Env} {detectors : Detectors} {F F' : Fleet n} {seen : List Hub}

/-! ## Trust -/

/-- **A daemon has the key of a server of a user.** -/
def Fleet.KeyOf (env : Env) (seen : List Hub) (F : Fleet n) (d : Fin n) (ownerId : UserId) : Prop :=
  ∃ g ∈ seen, ∃ serverId, g.ServerOf serverId ownerId ∧ g.HasKey env serverId (F.daemons d).apiKey

/-- **A task is entrusted to a daemon**: a user whose server it has the key of has submitted it,
with this input. -/
def Fleet.Entrusted (env : Env) (seen : List Hub) (F : Fleet n) (d : Fin n) (taskId : TaskId)
    (input : Json) : Prop :=
  ∃ ownerId, F.SubmittedBy taskId ownerId input ∧ F.KeyOf env seen d ownerId

/-- A key stays one of the user, while the daemon is configured with it. -/
theorem Fleet.KeyOf.advance {d : Fin n} {ownerId : UserId} (h : F.KeyOf env seen d ownerId)
    (hkey : (F'.daemons d).apiKey = (F.daemons d).apiKey) {later : List Hub}
    (hgrows : seen ⊆ later) : F'.KeyOf env later d ownerId := by
  obtain ⟨g, hg, serverId, hserver, hhas⟩ := h
  exact ⟨g, hgrows hg, serverId, hserver, hkey ▸ hhas⟩

theorem Fleet.Entrusted.advance {d : Fin n} {taskId : TaskId} {input : Json}
    (h : F.Entrusted env seen d taskId input) (hstep : Advance env F F')
    (hkey : (F'.daemons d).apiKey = (F.daemons d).apiKey) {later : List Hub}
    (hgrows : seen ⊆ later) : F'.Entrusted env later d taskId input := by
  obtain ⟨ownerId, hsubmitted, hhas⟩ := h
  exact ⟨ownerId, hsubmitted.advance hstep, hhas.advance hkey hgrows⟩

/-! ## Delivery -/

namespace DaemonClient

variable {T : TaskId → Json → Prop} {client next : DaemonClient} {h : Hub}

@[simp] theorem hear_line (sent : List Emission) : (client.hear h sent).line = client.line := by
  unfold hear line
  cases client.socket <;> rfl

@[simp] theorem hear_unsent (sent : List Emission) :
    (client.hear h sent).unsent = client.unsent := by
  unfold hear unsent outbox
  cases client.socket <;> rfl

/-- A daemon that hears of what is entrusted to it stays trustworthy. -/
theorem Trusts.hear {sent : List Emission} (hclient : client.Trusts T)
    (hsent : ∀ emission ∈ sent, client.room h = some emission.serverId →
      emission.message.Brings T) : (client.hear h sent).Trusts T where
  inbox message hmem := by
    rcases mem_hear_inbox hmem with hold | ⟨serverId, hnew, hroom⟩
    · exact hclient.inbox message hold
    · exact hsent _ hnew hroom
  objects := hclient.objects
  unsent := by
    rw [hear_unsent]
    exact hclient.unsent

/-- The oldest message of a daemon leaves it. -/
theorem Trusts.takeOutgoing {socketId : ℕ} {message : Outgoing} (hclient : client.Trusts T)
    (htaken : Fleet.takeOutgoing client = some (socketId, message, next)) :
    next.Trusts T ∧ message ∈ client.unsent ∧ next.line = client.line := by
  obtain ⟨hunsent, hinbox, hobjects, -, hline⟩ := takeOutgoing_some htaken
  refine ⟨⟨hinbox ▸ hclient.inbox, hobjects ▸ hclient.objects, fun sent hmem => ?_⟩, ?_, hline⟩
  · refine hclient.unsent sent ?_
    rw [hunsent]
    exact List.mem_cons_of_mem _ hmem
  · rw [hunsent]
    exact List.mem_cons_self

/-- The oldest message for a daemon reaches it. -/
theorem Trusts.takeIncoming {message : DaemonOutbound} (hclient : client.Trusts T)
    (htaken : Fleet.takeIncoming client = some (message, next)) :
    next.Trusts T ∧ message.Brings T ∧ next.line = client.line := by
  obtain ⟨hinbox, hunsent, hobjects, -, hline⟩ := takeIncoming_some htaken
  refine ⟨⟨fun other hother => ?_, hobjects ▸ hclient.objects, hunsent ▸ hclient.unsent⟩, ?_, hline⟩
  · refine hclient.inbox other ?_
    rw [hinbox]
    exact List.mem_cons_of_mem _ hother
  · refine hclient.inbox message ?_
    rw [hinbox]
    exact List.mem_cons_self

end DaemonClient

/-! ## Sockets -/

/-- **A socket in a room was there already, or has shown the key of its server.** -/
theorem Write.room {call : HubCall} {past : Past} {r r' : Rows}
    (hw : Write env call past r r') {id : ℕ} {socket' : DaemonSocket} {serverId : ServerId}
    (hrow : r'.sockets id = some socket') (hroom : socket'.room = some serverId) :
    ∃ socket, r.sockets id = some socket ∧ socket.apiKey = socket'.apiKey ∧
      (socket.room = some serverId ∨ ∃ ownerId, Authenticated env past id serverId ownerId) := by
  cases hw with
  | socketOpened =>
      rw [Table.insert_apply] at hrow
      split at hrow
      · cases hrow
        cases hroom
      · exact ⟨socket', hrow, rfl, .inl hroom⟩
  | socketAuthenticated =>
      rw [Table.modify_apply] at hrow
      split at hrow
      · next heq =>
        obtain ⟨socket, hsocket, rfl⟩ := Option.map_eq_some_iff.mp hrow
        exact ⟨socket, heq ▸ hsocket, rfl, .inl hroom⟩
      · exact ⟨socket', hrow, rfl, .inl hroom⟩
  | socketJoined hcall hkey =>
      rw [Table.modify_apply] at hrow
      split at hrow
      · next heq =>
        obtain ⟨socket, hsocket, rfl⟩ := Option.map_eq_some_iff.mp hrow
        cases hroom
        exact ⟨socket, heq ▸ hsocket, rfl, .inr ⟨_, heq ▸ hkey⟩⟩
      · exact ⟨socket', hrow, rfl, .inl hroom⟩
  | socketClosed => exact ⟨socket', (Option.filter_eq_some_iff.mp hrow).1, rfl, .inl hroom⟩
  | _ => exact ⟨socket', hrow, rfl, .inl hroom⟩

/-- A socket whose handshake had a key. -/
theorem handshakeKey_some {h : Hub} {socketId : ℕ} {apiKey : JsString}
    (hkey : DaemonGateway.handshakeKey h socketId = some apiKey) :
    ∃ socket, h.sockets socketId = some socket ∧ socket.apiKey = some apiKey :=
  Option.bind_eq_some_iff.mp (Option.filter_eq_some_iff.mp hkey).1

/-! ## The invariant -/

/-- **The daemons work on what is entrusted to them**, and what they send is about it. -/
structure Fleet.Trusted (env : Env) (told : ℕ) (seen : List Hub) (F : Fleet n) : Prop where
  tenanted : F.Tenanted env told seen
  rooms : ∀ id socket serverId, F.hub.sockets id = some socket → socket.room = some serverId →
    ∃ apiKey, socket.apiKey = some apiKey ∧ ∃ g ∈ seen, g.HasKey env serverId apiKey
  connected : ∀ d socketId, (F.daemons d).line.2 = some socketId →
    socketId < F.hub.sockets.next ∧ ∀ socket, F.hub.sockets socketId = some socket →
      socket.apiKey = some (F.daemons d).apiKey
  daemons : ∀ d, (F.daemons d).Trusts (F.Entrusted env seen d)
  calls : ∀ (i : ℕ) (served : Served n) (socketId : ℕ) (inbound : DaemonInbound),
    F.calls[i]? = some served → served.call = .message socketId inbound → inbound.ref = none ∨
      ∃ d runner, served.origin = some (d, runner) ∧ inbound.About (F.Entrusted env seen d)

section Trusted

variable {told : ℕ}

/-- **What is sent to the room a daemon is in is entrusted to it.** -/
theorem Fleet.Trusted.brings (hF : F.Trusted env told seen) {emission : Emission} {d : Fin n}
    (hhome : F'.AtHome (seen ++ [F'.hub]) emission)
    (harchive : Archive (seen ++ [F'.hub]) F'.hub)
    (hkey : (F'.daemons d).apiKey = (F.daemons d).apiKey)
    (hroom : (F.daemons d).room F.hub = some emission.serverId) :
    emission.message.Brings (F'.Entrusted env (seen ++ [F'.hub]) d) := by
  obtain ⟨ownerId, input, hsubmitted, ⟨g, hg, hserver⟩, hbrought⟩ := hhome
  obtain ⟨connection, hsocket, hin⟩ := Option.bind_eq_some_iff.mp hroom
  obtain ⟨socket, hrow, hjoined⟩ := Option.bind_eq_some_iff.mp hin
  obtain ⟨apiKey, hshown, g', hg', server, hserver', hhash⟩ := hF.rooms _ socket _ hrow hjoined
  have hline : (F.daemons d).line.2 = some connection.socketId := by
    unfold DaemonClient.line
    rw [hsocket]
    rfl
  have hown : socket.apiKey = some (F.daemons d).apiKey :=
    (hF.connected d _ hline).2 socket hrow
  rw [hshown] at hown
  cases hown
  have hg'' : g' ∈ seen ++ [F'.hub] := List.mem_append_left _ hg'
  have hsame : ownerId = server.ownerId :=
    harchive.serverOf hg hg'' hserver ⟨server, hserver', rfl⟩
  refine ⟨input, ⟨ownerId, hsubmitted, g', hg'', emission.serverId, ?_, ?_⟩,
    fun taskId brought heq => (hbrought taskId brought heq).1⟩
  · exact ⟨server, hserver', hsame.symm⟩
  · rw [hkey]
    exact ⟨server, hserver', hhash⟩

/-- The rooms after a step. -/
theorem Fleet.Trusted.step_rooms (hF : F.Trusted env told seen) (hstep : Advance env F F') {id : ℕ}
    {socket' : DaemonSocket} {serverId : ServerId} (hrow : F'.hub.sockets id = some socket')
    (hroom : socket'.room = some serverId) :
    ∃ apiKey, socket'.apiKey = some apiKey ∧
      ∃ g ∈ seen ++ [F'.hub], g.HasKey env serverId apiKey := by
  have hold : F.hub.sockets id = some socket' → ∃ apiKey, socket'.apiKey = some apiKey ∧
      ∃ g ∈ seen ++ [F'.hub], g.HasKey env serverId apiKey := fun hbefore => by
    obtain ⟨apiKey, hshown, g, hg, hhas⟩ := hF.rooms id socket' serverId hbefore hroom
    exact ⟨apiKey, hshown, g, List.mem_append_left _ hg, hhas⟩
  have hrecorded := hF.tenanted.recorded
  rcases hrecorded.cases hstep with ⟨sockets, hhub, rfl | ⟨apiKey, rfl⟩⟩ |
    ⟨i, served, thread, program, -, -, -, -, hwithin, hdeed⟩
  · rw [hhub] at hrow
    exact hold hrow
  · rw [hhub, Table.insert_apply] at hrow
    split at hrow
    · cases hrow
      cases hroom
    · exact hold hrow
  · have hsame : F'.hub.rows = F.hub.rows → F.hub.sockets id = some socket' := fun hrows => by
      rw [← hrow]
      exact congrArg (·.sockets id) hrows.symm
    cases hdeed with
    | quiet hrows => exact hold (hsame hrows)
    | notified _ hrows => exact hold (hsame hrows)
    | wrote hwritten =>
        obtain ⟨socket, hbefore, hkey, hjoined | ⟨ownerId, apiKey, hhandshake, hserver⟩⟩ :=
          hwritten.room hrow hroom
        · obtain ⟨apiKey, hshown, g, hg, hhas⟩ := hF.rooms id socket serverId hbefore hjoined
          exact ⟨apiKey, hkey ▸ hshown, g, List.mem_append_left _ hg, hhas⟩
        · obtain ⟨g, hg, hhandshake⟩ := hwithin.saw hhandshake
          obtain ⟨shown, hshown, hgiven⟩ := handshakeKey_some hhandshake
          obtain ⟨g', hg', hhas⟩ := hwithin.saw hserver
          have hagree : shown.apiKey = socket.apiKey := hrecorded.archive.sockets.agrees g hg _
            hrecorded.archive.here id shown socket hshown hbefore
          refine ⟨apiKey, ?_, g', List.mem_append_left _ hg', hhas.2⟩
          rw [← hkey, ← hagree, hgiven]

/-- The socket of a daemon that stays on it. -/
theorem Fleet.Trusted.step_connected (hF : F.Trusted env told seen) (hstep : Advance env F F')
    {d : Fin n} {socketId : ℕ} (hline : (F'.daemons d).line = (F.daemons d).line)
    (hon : (F'.daemons d).line.2 = some socketId) :
    socketId < F'.hub.sockets.next ∧ ∀ socket, F'.hub.sockets socketId = some socket →
      socket.apiKey = some (F'.daemons d).apiKey := by
  have hevolves := hF.tenanted.recorded.sockets_evolve hstep
  obtain ⟨hlt, hkey⟩ := hF.connected d socketId (hline ▸ hon)
  refine ⟨hlt.trans_le hevolves.next, fun socket hrow => ?_⟩
  rcases hevolves.kept socketId socket hrow with ⟨before, hbefore, hsame⟩ | hnew
  · rw [← hsame, hkey before hbefore]
    exact congrArg some (congrArg Prod.fst hline).symm
  · exact absurd hnew (Nat.not_le_of_lt hlt)

/-- What is known of a call stays known. -/
theorem Fleet.Trusted.step_about (hF : F.Trusted env told seen) (hstep : Advance env F F')
    (hkeys : ∀ d, (F'.daemons d).apiKey = (F.daemons d).apiKey) {i : ℕ} {served : Served n}
    {socketId : ℕ} {inbound : DaemonInbound} (hserved : F.calls[i]? = some served)
    (hcall : served.call = .message socketId inbound) :
    inbound.ref = none ∨ ∃ d runner, served.origin = some (d, runner) ∧
      inbound.About (F'.Entrusted env (seen ++ [F'.hub]) d) := by
  refine (hF.calls i served socketId inbound hserved hcall).imp_right ?_
  rintro ⟨d, runner, horigin, habout⟩
  refine ⟨d, runner, horigin, fun ref href => ?_⟩
  obtain ⟨taskId, input, hid, hentrusted⟩ := habout ref href
  exact ⟨taskId, input, hid, hentrusted.advance hstep (hkeys d) (List.subset_append_left _ _)⟩

/-- The daemons after a step, where each of them keeps to what it is entrusted with. -/
theorem Fleet.Trusted.step_of (hF : F.Trusted env told seen) (hstep : Advance env F F')
    (hkeys : ∀ d, (F'.daemons d).apiKey = (F.daemons d).apiKey)
    (hconnected : ∀ d socketId, (F'.daemons d).line.2 = some socketId →
      (F'.daemons d).line = (F.daemons d).line ∨ socketId < F'.hub.sockets.next ∧
        ∀ socket, F'.hub.sockets socketId = some socket →
          socket.apiKey = some (F'.daemons d).apiKey)
    (hdaemons : ∀ d, (F.daemons d).Trusts (F'.Entrusted env (seen ++ [F'.hub]) d) →
      (F'.daemons d).Trusts (F'.Entrusted env (seen ++ [F'.hub]) d))
    (hcalls : ∀ (i : ℕ) (served : Served n) (socketId : ℕ) (inbound : DaemonInbound),
      F'.calls[i]? = some served → served.call = .message socketId inbound →
      F.calls[i]? = some served ∨ inbound.ref = none ∨
        ∃ d runner, served.origin = some (d, runner) ∧
          ((F.daemons d).Trusts (F'.Entrusted env (seen ++ [F'.hub]) d) →
            inbound.About (F'.Entrusted env (seen ++ [F'.hub]) d))) :
    F'.Trusted env told (seen ++ [F'.hub]) := by
  have hbefore : ∀ d, (F.daemons d).Trusts (F'.Entrusted env (seen ++ [F'.hub]) d) := fun d =>
    (hF.daemons d).mono fun _ _ h => h.advance hstep (hkeys d) (List.subset_append_left _ _)
  refine ⟨hF.tenanted.step hstep, fun id socket serverId => hF.step_rooms hstep,
    fun d socketId hon => ?_, fun d => hdaemons d (hbefore d), fun i served socketId inbound hserved
      hcall => ?_⟩
  · rcases hconnected d socketId hon with hline | hnew
    · exact hF.step_connected hstep hline hon
    · exact hnew
  · rcases hcalls i served socketId inbound hserved hcall with
      hold | hnone | ⟨d, runner, horigin, habout⟩
    · exact hF.step_about hstep hkeys hold hcall
    · exact .inl hnone
    · exact .inr ⟨d, runner, horigin, habout (hbefore d)⟩

/-- A step of one daemon. -/
theorem Fleet.Trusted.step_one (hF : F.Trusted env told seen) (hstep : Advance env F F') {d : Fin n}
    {client : DaemonClient} (hdaemons : F'.daemons = Function.update F.daemons d client)
    (hkey : client.apiKey = (F.daemons d).apiKey)
    (hline : ∀ socketId, client.line.2 = some socketId → client.line = (F.daemons d).line ∨
      socketId < F'.hub.sockets.next ∧ ∀ socket, F'.hub.sockets socketId = some socket →
        socket.apiKey = some client.apiKey)
    (htrusts : ∀ T, (F.daemons d).Trusts T → client.Trusts T)
    (hcalls : ∀ (i : ℕ) (served : Served n) (socketId : ℕ) (inbound : DaemonInbound),
      F'.calls[i]? = some served → served.call = .message socketId inbound →
      F.calls[i]? = some served ∨ inbound.ref = none ∨
        ∃ runner, served.origin = some (d, runner) ∧
          ∀ T, (F.daemons d).Trusts T → inbound.About T) :
    F'.Trusted env told (seen ++ [F'.hub]) := by
  refine hF.step_of hstep (fun other => ?_) (fun other socketId hon => ?_)
    (fun other hother => ?_) fun i served socketId inbound hserved hcall => ?_
  · rw [hdaemons, Function.update_apply]
    split
    · next heq => rw [heq, hkey]
    · rfl
  · rw [hdaemons, Function.update_apply] at hon ⊢
    split at hon
    · next heq =>
      rw [if_pos heq, heq]
      exact hline socketId hon
    · next hne =>
      rw [if_neg hne]
      exact .inl rfl
  · rw [hdaemons, Function.update_apply]
    split
    · next heq =>
      subst heq
      exact htrusts _ hother
    · exact hother
  · rcases hcalls i served socketId inbound hserved hcall with
      hold | hnone | ⟨runner, horigin, habout⟩
    · exact .inl hold
    · exact .inr (.inl hnone)
    · exact .inr (.inr ⟨d, runner, horigin, habout _⟩)

/-- A call that has just been served, or was there. -/
theorem getElem?_served {call : HubCall} {origin : Option (Fin n × ℕ)} {i : ℕ} {served : Served n}
    (hserved : (F.calls ++ [⟨call, origin⟩])[i]? = some served) :
    F.calls[i]? = some served ∨ served = ⟨call, origin⟩ := by
  rw [List.getElem?_append] at hserved
  split at hserved
  · exact .inl hserved
  · right
    exact List.mem_singleton.mp (List.mem_of_getElem? hserved)

/-- **Every step keeps the daemons to what is entrusted to them.** -/
theorem Fleet.Trusted.step (hF : F.Trusted env told seen) {action : Action n}
    (henabled : F.enabled action) :
    (F.step env detectors action).Trusted env told
      (seen ++ [(F.step env detectors action).hub]) := by
  have hstep : Advance env F (F.step env detectors action) := Fleet.advance henabled
  cases action with
  | call call =>
      refine hF.step_of hstep (fun _ => rfl) (fun _ _ _ => .inl rfl) (fun _ h => h)
        fun i served socketId inbound hserved hcall => ?_
      rcases getElem?_served hserved with hold | rfl
      · exact .inl hold
      · dsimp only at hcall
        subst hcall
        cases henabled.1
  | resume i =>
      have htenanted := hF.tenanted.step hstep
      have hline : ∀ d, ((F.daemons d).hear F.hub (F.nodeEmissions i)).line = (F.daemons d).line :=
        fun d => DaemonClient.hear_line _
      refine hF.step_of hstep (fun d => congrArg Prod.fst (hline d)) (fun d _ _ => .inl (hline d))
        (fun d hd => hd.hear fun emission hemission hroom => ?_)
        fun _ _ _ _ hserved _ => .inl hserved
      have hemitted : emission ∈ (F.step env detectors (.resume i)).hub.emitted :=
        List.mem_of_mem_drop hemission
      exact hF.brings (htenanted.emitted emission hemitted) htenanted.recorded.archive
        (congrArg Prod.fst (hline d)) hroom
  | connect d =>
      have hnone : (F.daemons d).socket = none := Option.isNone_iff_eq_none.mp henabled
      refine hF.step_one hstep (d := d) rfl rfl (fun socketId hon => .inr ?_)
        (fun T hT => hT.onConnect hnone _) fun i served socketId inbound hserved hcall => ?_
      · cases hon
        refine ⟨Nat.lt_succ_self _, fun socket hrow => ?_⟩
        change F.hub.sockets.insert ⟨some (F.daemons d).apiKey, none, none⟩ _ = _ at hrow
        rw [Table.insert_apply, if_pos rfl] at hrow
        cases hrow
        rfl
      · rcases getElem?_served hserved with hold | rfl
        · exact .inl hold
        · cases hcall
  | disconnect d =>
      exact hF.step_one hstep (d := d) rfl rfl nofun (fun T hT => hT.onDisconnect)
        fun _ _ _ _ hserved _ => .inl hserved
  | drop socketId =>
      refine hF.step_of hstep (fun _ => rfl) (fun _ _ _ => .inl rfl) (fun _ h => h)
        fun i served socketId inbound hserved hcall => ?_
      rcases getElem?_served hserved with hold | rfl
      · exact .inl hold
      · cases hcall
  | deliver d =>
      obtain ⟨socketId, message, client, htaken, hdef⟩ := Fleet.deliver_some env detectors henabled
      rw [hdef] at hstep ⊢
      have hline : client.line = (F.daemons d).line := ((hF.daemons d).takeOutgoing htaken).2.2
      refine hF.step_one hstep (d := d) rfl (congrArg Prod.fst hline) (fun _ _ => .inl hline)
        (fun T hT => (hT.takeOutgoing htaken).1) fun i served other inbound hserved hcall => ?_
      rcases getElem?_served hserved with hold | rfl
      · exact .inl hold
      · cases hcall
        right
        cases hrunner : message.runner with
        | none =>
            have hmem := ((hF.daemons d).takeOutgoing htaken).2.1
            exact .inl (((hF.daemons d).unsent message hmem).2 hrunner)
        | some runner =>
            exact .inr ⟨runner, rfl, fun T hT =>
              (hT.unsent message (hT.takeOutgoing htaken).2.1).1⟩
  | receive d outcome =>
      obtain ⟨message, client, htaken, hdef⟩ := Fleet.receive_some env detectors henabled
      rw [hdef] at hstep ⊢
      have hline : (client.onMessage detectors outcome message).1.line = (F.daemons d).line :=
        (DaemonClient.onMessage_line message).trans ((hF.daemons d).takeIncoming htaken).2.2
      refine hF.step_one hstep (d := d) rfl (congrArg Prod.fst hline) (fun _ _ => .inl hline)
        (fun T hT => ?_) fun _ _ _ _ hserved _ => .inl hserved
      obtain ⟨hclient, hmessage, -⟩ := hT.takeIncoming htaken
      exact hclient.onMessage hmessage
  | heartbeat d =>
      refine hF.step_one hstep (d := d) rfl ?_ (fun socketId _ => .inl ?_)
        (fun T hT => hT.heartbeat) fun _ _ _ _ hserved _ => .inl hserved
      · exact congrArg Prod.fst (DaemonClient.emit_line _)
      · exact DaemonClient.emit_line _
  | child d runner event =>
      refine hF.step_one hstep (d := d) rfl ?_ (fun socketId _ => .inl ?_)
        (fun T hT => hT.onChildEvent) fun _ _ _ _ hserved _ => .inl hserved
      · exact congrArg Prod.fst (DaemonClient.onChildEvent_line event)
      · exact DaemonClient.onChildEvent_line event
  | restart d =>
      exact hF.step_one hstep (d := d) rfl rfl nofun (fun T hT => hT.restart)
        fun _ _ _ _ hserved _ => .inl hserved

end Trusted

/-- A deployment at rest. -/
theorem Fleet.Initial.trusted (hstart : F.Initial) :
    F.Trusted env F.hub.notified.length [F.hub] where
  tenanted := hstart.tenanted
  rooms id socket serverId hrow := by
    rw [hstart.hub.sockets] at hrow
    cases hrow
  connected d socketId hon := by
    obtain ⟨apiKey, hinitial⟩ := hstart.daemons d
    rw [hinitial] at hon
    cases hon
  daemons d := by
    obtain ⟨apiKey, hinitial⟩ := hstart.daemons d
    rw [hinitial]
    exact DaemonClient.initial_trusts apiKey
  calls i served socketId inbound hserved := by
    rw [hstart.calls] at hserved
    cases hserved

/-- The invariant of every run. -/
theorem Fleet.Initial.trusted_run (hstart : F.Initial) {actions : List (Action n)}
    (hruns : (fleetMachine n env detectors).Runs F actions) :
    ((fleetMachine n env detectors).exec F actions).Trusted env F.hub.notified.length
      (((fleetMachine n env detectors).states F actions).map Fleet.hub) := by
  refine Machine.exec_history (I := fun seen F' => F'.Trusted env F.hub.notified.length
    (seen.map Fleet.hub)) hstart.trusted (fun seen F' action hF' henabled => ?_) hruns
  rw [List.map_append]
  exact hF'.step henabled

/-- **A daemon runs what it is entrusted with**: whatever is interleaved, lost or reconnected, the
task and the input of every runner of a daemon were submitted by a user one of whose servers is
stored under the digest of the key the daemon is configured with; and every message of a daemon
that the Hub has started to handle is about such a task. -/
theorem Fleet.runners_entrusted {F : Fleet n} (hstart : F.Initial) {actions : List (Action n)}
    (hruns : (fleetMachine n env detectors).Runs F actions) :
    (∀ d serial runner,
      (((fleetMachine n env detectors).exec F actions).daemons d).objects serial = some runner →
      ((fleetMachine n env detectors).exec F actions).Entrusted env
        (((fleetMachine n env detectors).states F actions).map Fleet.hub) d runner.taskId
          runner.input) ∧
      ∀ served ∈ ((fleetMachine n env detectors).exec F actions).calls, ∀ socketId inbound,
        served.call = .message socketId inbound → inbound.ref = none ∨
          ∃ d runner, served.origin = some (d, runner) ∧
            inbound.About (((fleetMachine n env detectors).exec F actions).Entrusted env
              (((fleetMachine n env detectors).states F actions).map Fleet.hub) d) := by
  have hlast := hstart.trusted_run hruns
  refine ⟨fun d => (hlast.daemons d).objects, fun served hserved socketId inbound hcall => ?_⟩
  obtain ⟨i, hlt, rfl⟩ := List.mem_iff_getElem.mp hserved
  exact hlast.calls i _ socketId inbound (List.getElem?_eq_getElem hlt) hcall

/-- The task of `sampleDispatch` is started. -/
theorem Fleet.runners_entrusted_started :
    ∃ runner, (((fleetMachine 1 Env.sample .silent).exec .sample
        (sampleDispatch ++ [.receive soleDaemon .process])).daemons 0).objects 0 = some runner ∧
      ((fleetMachine 1 Env.sample .silent).exec .sample
        (sampleDispatch ++ [.receive soleDaemon .process])).Entrusted Env.sample
        (((fleetMachine 1 Env.sample .silent).states .sample
          (sampleDispatch ++ [.receive soleDaemon .process])).map Fleet.hub) 0 runner.taskId
        runner.input := by
  obtain ⟨runner, hrow⟩ := Option.isSome_iff_exists.mp (show ((((fleetMachine 1 Env.sample
    .silent).exec .sample (sampleDispatch ++ [.receive soleDaemon .process])).daemons
      0).objects 0).isSome = true by decide)
  exact ⟨runner, hrow, (Fleet.runners_entrusted Fleet.sample_initial
    (show (fleetMachine 1 Env.sample .silent).Runs .sample
      (sampleDispatch ++ [.receive soleDaemon .process]) by decide)).1 0 0 runner hrow⟩

end CodeCaller
