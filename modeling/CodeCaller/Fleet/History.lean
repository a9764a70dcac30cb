import CodeCaller.Daemon.Trust
import CodeCaller.Fleet.System
import CodeCaller.Hub.Archive
import CodeCaller.Hub.Replies

/-!
# The history of a fleet

Whatever the daemons, the network and the users do, the calls of the Hub act on what they have
seen, and what they have seen are states the run has passed.  `Recorded` is the invariant of a run
with its history from which the safety of the composed system is derived: one node of one call at a
time, its deed, and the archive that makes the reason of the deed good in the state it is done in.

### The pieces

* `Advance`: what happens to the calls in a step: nothing, a new call, a socket with the call for
  its connection, or one node of a call.  `Fleet.advance` reduces the actions of `Fleet.System` to
  these four, and the invariants above are about them.
* `Fleet.Recorded.deed`: the call of a node, its past, and its deed.
* `Fleet.Recorded.cases`: a step opens a socket at most, or is one deed that its call remembers.
* `rows_linked`: the first consequence, about references between rows at every node.

The samples at the end of the module are runs that the later modules use: one daemon, one user, a
task that is dispatched.  They are evaluated, so `enabled` has to be decidable.
-/

namespace CodeCaller

open Async

variable {n : ℕ} {env : Env} {detectors : Detectors} {F F' : Fleet n} {seen : List Hub}

/-! ## Messages under way -/

namespace DaemonClient

variable {client next : DaemonClient} {h : Hub}

/-- What a daemon has heard was under way already, or was sent to its room. -/
theorem mem_hear_inbox {sent : List Emission} {message : DaemonOutbound}
    (hmem : message ∈ (client.hear h sent).inbox) :
    message ∈ client.inbox ∨
      ∃ serverId, ⟨serverId, message⟩ ∈ sent ∧ client.room h = some serverId := by
  unfold hear inbox at hmem
  cases hsocket : client.socket with
  | none =>
      rw [hsocket] at hmem
      exact absurd hmem List.not_mem_nil
  | some connection =>
      rw [hsocket] at hmem
      rcases List.mem_append.mp hmem with hold | hnew
      · left
        unfold inbox
        rw [hsocket]
        exact hold
      · obtain ⟨emission, hsent, rfl⟩ := List.mem_map.mp hnew
        obtain ⟨hmem, hroom⟩ := List.mem_filter.mp hsent
        exact .inr ⟨emission.serverId, hmem, beq_iff_eq.mp hroom⟩

/-- The oldest message of a daemon leaves it, and nothing else changes. -/
theorem takeOutgoing_some {socketId : ℕ} {message : Outgoing}
    (htaken : Fleet.takeOutgoing client = some (socketId, message, next)) :
    client.unsent = message :: next.unsent ∧ next.inbox = client.inbox ∧
      next.objects = client.objects ∧ next.runners = client.runners ∧ next.line = client.line := by
  obtain ⟨connection, hsocket, hmatch⟩ := Option.bind_eq_some_iff.mp htaken
  cases houtbox : connection.outbox with
  | nil =>
      rw [houtbox] at hmatch
      cases hmatch
  | cons first rest =>
      rw [houtbox] at hmatch
      cases hmatch
      unfold unsent outbox inbox line
      rw [hsocket]
      simp [houtbox]

/-- The oldest message for a daemon reaches it, and nothing else changes. -/
theorem takeIncoming_some {message : DaemonOutbound}
    (htaken : Fleet.takeIncoming client = some (message, next)) :
    client.inbox = message :: next.inbox ∧ next.unsent = client.unsent ∧
      next.objects = client.objects ∧ next.runners = client.runners ∧ next.line = client.line := by
  obtain ⟨connection, hsocket, hmatch⟩ := Option.bind_eq_some_iff.mp htaken
  cases hinbox : connection.inbox with
  | nil =>
      rw [hinbox] at hmatch
      cases hmatch
  | cons first rest =>
      rw [hinbox] at hmatch
      cases hmatch
      unfold unsent outbox inbox line
      rw [hsocket]
      simp [hinbox]

end DaemonClient

/-- A delivery starts the call for the oldest message of a daemon. -/
theorem Fleet.deliver_some (env : Env) (detectors : Detectors) {d : Fin n}
    (henabled : F.enabled (.deliver d)) :
    ∃ socketId message client, takeOutgoing (F.daemons d) = some (socketId, message, client) ∧
      F.step env detectors (.deliver d) =
        serve env (.message socketId message.inbound) (message.runner.map fun runner => (d, runner))
          { F with daemons := Function.update F.daemons d client } := by
  cases htaken : takeOutgoing (F.daemons d) with
  | none =>
      change Option.any _ (takeOutgoing (F.daemons d)) = true at henabled
      rw [htaken] at henabled
      cases henabled
  | some taken =>
      obtain ⟨socketId, message, client⟩ := taken
      refine ⟨socketId, message, client, rfl, ?_⟩
      unfold Fleet.step Fleet.deliver
      dsimp only
      rw [htaken]

/-- A daemon that receives something handles the oldest message for it. -/
theorem Fleet.receive_some (env : Env) (detectors : Detectors) {d : Fin n} {outcome : SpawnOutcome}
    (henabled : F.enabled (.receive d outcome)) :
    ∃ message client, takeIncoming (F.daemons d) = some (message, client) ∧
      F.step env detectors (.receive d outcome) =
        F.setDaemon d (client.onMessage detectors outcome message) := by
  cases htaken : takeIncoming (F.daemons d) with
  | none =>
      change (takeIncoming (F.daemons d)).isSome = true at henabled
      rw [htaken] at henabled
      cases henabled
  | some taken =>
      obtain ⟨message, client⟩ := taken
      refine ⟨message, client, rfl, ?_⟩
      unfold Fleet.step Fleet.receive
      dsimp only
      rw [htaken]

/-! ## What a step does to the calls -/

/-- The Hub with a socket for a daemon. -/
def Hub.withSocket (h : Hub) (apiKey : JsString) : Hub :=
  { h with sockets := h.sockets.insert ⟨some apiKey, none, none⟩ }

/-- The calls of a fleet, over the Hub. -/
def Fleet.service (F : Fleet n) : Service Hub HubError Response (Served n) := ⟨F.pool, F.calls⟩

/-- **What happens to the calls in a step**: nothing, a new call, a socket with the call for its
connection, or one node of a call. -/
inductive Advance (env : Env) (F : Fleet n) : Fleet n → Prop where
  | idle {F' : Fleet n} (hservice : F'.service = F.service) : Advance env F F'
  | served {F' : Fleet n} (call : HubCall) (origin : Option (Fin n × ℕ))
      (hservice : F'.service = F.service.serve (perform env call) ⟨call, origin⟩) :
      Advance env F F'
  | opened {F' : Fleet n} (apiKey : JsString)
      (hservice : F'.service = (F.service.withShared (F.hub.withSocket apiKey)).serve
        (perform env (.handleConnection F.hub.sockets.next))
        ⟨.handleConnection F.hub.sockets.next, none⟩) : Advance env F F'
  | resumed {F' : Fleet n} (i : ℕ) (hlive : F.pool.live i = true)
      (hservice : F'.service = F.service.resume i) : Advance env F F'

/-- **Every action is one of the four.** -/
theorem Fleet.advance {action : Action n} (henabled : F.enabled action) :
    Advance env F (F.step env detectors action) := by
  cases action with
  | call call => exact .served call none rfl
  | resume i => exact .resumed i henabled rfl
  | connect d => exact .opened (F.daemons d).apiKey rfl
  | disconnect d => exact .idle rfl
  | drop socketId => exact .served (.handleDisconnect socketId) none rfl
  | deliver d =>
      obtain ⟨socketId, message, client, -, hdef⟩ := Fleet.deliver_some env detectors henabled
      rw [hdef]
      exact .served _ _ rfl
  | receive d outcome =>
      obtain ⟨message, client, -, hdef⟩ := Fleet.receive_some env detectors henabled
      rw [hdef]
      exact .idle rfl
  | heartbeat d => exact .idle rfl
  | child d runner event => exact .idle rfl
  | restart d => exact .idle rfl

namespace Advance

/-- Calls keep their places, and their pasts only grow. -/
theorem grows (h : Advance env F F') : F.service.Grows F'.service := by
  cases h with
  | idle hservice =>
      exact Service.grows_of_eq (congrArg (·.calls) hservice)
        (congrArg (·.pool.threads) hservice)
  | served call origin hservice =>
      rw [hservice]
      exact Service.grows_serve _ _
  | opened apiKey hservice =>
      have hshared : F.service.Grows (F.service.withShared (F.hub.withSocket apiKey)) :=
        Service.grows_of_eq rfl rfl
      rw [hservice]
      exact hshared.trans (Service.grows_serve _ _)
  | resumed i hlive hservice =>
      rw [hservice]
      exact Service.grows_resume

/-- A call keeps its place. -/
theorem call (h : Advance env F F') {i : ℕ} {served : Served n}
    (hserved : F.calls[i]? = some served) : F'.calls[i]? = some served :=
  h.grows.call hserved

/-- The past of a call only grows. -/
theorem thread (h : Advance env F F') {i : ℕ} {thread : Thread Hub HubError Response}
    (hthread : F.pool.threads[i]? = some thread) :
    ∃ thread', F'.pool.threads[i]? = some thread' ∧ thread.past <+: thread'.past :=
  h.grows.threads i thread hthread

end Advance

/-! ## Recorded runs -/

/-- **The calls act on what they have seen, and have seen what the run has passed.** -/
structure Fleet.Recorded (env : Env) (seen : List Hub) (F : Fleet n) : Prop where
  archive : Archive seen F.hub
  calls : F.service.Recorded (fun served => Deed env served.call)
    (fun served => served.call.MayAnswer) seen

/-- **One node of a call**: the call, its past, and its deed. -/
theorem Fleet.Recorded.deed (hF : F.Recorded env seen) {i : ℕ} (hlive : F.pool.live i = true) :
    ∃ served thread, F.calls[i]? = some served ∧ F.pool.threads[i]? = some thread ∧
      Within thread.past seen ∧
      Deed env served.call thread.past F.hub (F.pool.step i).shared := by
  obtain ⟨served, thread, program, hserved, hthread, -, hwithin, hdeed, -⟩ := hF.calls.deed hlive
  exact ⟨served, thread, hserved, hthread, hwithin, hdeed⟩

/-- A new socket is a change of the rows that needs no reason of a past. -/
theorem write_withSocket (h : Hub) (apiKey : JsString) :
    Write env (.openSocket (some apiKey)) [] h.rows (h.withSocket apiKey).rows :=
  .socketOpened h.rows rfl

/-- **Every step is recorded.** -/
theorem Fleet.Recorded.step (hF : F.Recorded env seen) (h : Advance env F F') :
    F'.Recorded env (seen ++ [F'.hub]) := by
  have hgrows : seen ⊆ seen ++ [F'.hub] := List.subset_append_left _ _
  cases h with
  | idle hservice =>
      have hhub : F'.hub = F.hub := congrArg (·.pool.shared) hservice
      refine ⟨hF.archive.same (congrArg Hub.rows hhub)
        (.of_eq (congrArg Hub.registrations hhub)), ?_⟩
      rw [hservice]
      exact hF.calls.mono hgrows
  | served call origin hservice =>
      have hhub : F'.hub = F.hub := congrArg (·.pool.shared) hservice
      refine ⟨hF.archive.same (congrArg Hub.rows hhub)
        (.of_eq (congrArg Hub.registrations hhub)), ?_⟩
      rw [hservice]
      exact (hF.calls.serve (perform_recalls env call)).mono hgrows
  | opened apiKey hservice =>
      have hhub : F'.hub = F.hub.withSocket apiKey := congrArg (·.pool.shared) hservice
      have hwrite : Write env (.openSocket (some apiKey)) [] F.hub.rows F'.hub.rows := by
        rw [hhub]
        exact write_withSocket F.hub apiKey
      refine ⟨hF.archive.written within_nil hwrite (.of_eq ?_), ?_⟩
      · rw [hhub]
        rfl
      rw [hservice, hhub]
      exact (hF.calls.withShared _).serve (perform_recalls env _)
  | resumed i hlive hservice =>
      have hhub : F'.hub = (F.pool.step i).shared := congrArg (·.pool.shared) hservice
      obtain ⟨served, thread, -, -, hwithin, hdeed⟩ := hF.deed hlive
      refine ⟨?_, ?_⟩
      · rw [hhub]
        exact hF.archive.step hwithin hdeed
      · rw [hservice, hhub]
        exact hF.calls.resume hlive

/-- **A step opens a socket of the Hub at most, or is one deed of one call**, which the call
remembers. -/
theorem Fleet.Recorded.cases (hF : F.Recorded env seen) (h : Advance env F F') :
    (∃ sockets, F'.hub = { F.hub with sockets } ∧ (sockets = F.hub.sockets ∨
        ∃ apiKey, sockets = F.hub.sockets.insert ⟨some apiKey, none, none⟩)) ∨
      ∃ (i : ℕ) (served : Served n) (thread : Thread Hub HubError Response)
        (program : HubM Response), F.calls[i]? = some served ∧ F.pool.threads[i]? = some thread ∧
        F'.calls[i]? = some served ∧
        F'.pool.threads[i]? = some ⟨program, thread.past ++ [(F.hub, F'.hub)]⟩ ∧
        Within thread.past seen ∧ Deed env served.call thread.past F.hub F'.hub := by
  cases h with
  | idle hservice =>
      have hhub : F'.hub = F.hub := congrArg (·.pool.shared) hservice
      exact .inl ⟨F.hub.sockets, hhub, .inl rfl⟩
  | served call origin hservice =>
      have hhub : F'.hub = F.hub := congrArg (·.pool.shared) hservice
      exact .inl ⟨F.hub.sockets, hhub, .inl rfl⟩
  | opened apiKey hservice =>
      have hhub : F'.hub = F.hub.withSocket apiKey := congrArg (·.pool.shared) hservice
      exact .inl ⟨(F.hub.withSocket apiKey).sockets, hhub, .inr ⟨apiKey, rfl⟩⟩
  | resumed i hlive hservice =>
      obtain ⟨served, thread, program, hserved, hthread, hself, hwithin, hdeed, -⟩ :=
        hF.calls.deed hlive
      have hcalls : F'.calls = F.calls := congrArg (·.calls) hservice
      have hpool : F'.pool = (F.service.resume i).pool := congrArg (·.pool) hservice
      have hhub : F'.hub = (F.service.resume i).pool.shared := congrArg (·.pool.shared) hservice
      refine .inr ⟨i, served, thread, program, hserved, hthread, hcalls ▸ hserved, ?_, hwithin, ?_⟩
      · rw [hpool, hself, hhub]
        rfl
      · rw [hhub]
        exact hdeed

/-- A socket keeps its key. -/
theorem Fleet.Recorded.sockets_evolve (hF : F.Recorded env seen) (h : Advance env F F') :
    F.hub.sockets.Evolves DaemonSocket.apiKey F'.hub.sockets := by
  rcases hF.cases h with ⟨sockets, hhub, rfl | ⟨apiKey, rfl⟩⟩ |
    ⟨i, served, thread, program, -, -, -, -, -, hdeed⟩
  · exact .of_eq (congrArg Hub.sockets hhub)
  · rw [hhub]
    exact Table.evolves_insert _ _
  · cases hdeed with
    | quiet hrows => exact .of_eq (congrArg Rows.sockets hrows)
    | wrote hwritten => exact hwritten.sockets_evolve
    | notified _ hrows => exact .of_eq (congrArg Rows.sockets hrows)

/-- A deployment at rest. -/
theorem Fleet.Initial.recorded (hstart : F.Initial) : F.Recorded env [F.hub] where
  archive := .start hstart.hub.linked
  calls := by
    have hservice : F.service = ⟨⟨F.hub, []⟩, []⟩ := by
      unfold Fleet.service
      rw [← hstart.threads, hstart.calls]
    rw [hservice]
    exact Service.recorded_start F.hub

/-! ## Runs that can be computed -/

instance (F : Fleet n) (call : HubCall) :
    Decidable (∀ jobId, call = .dispatch jobId → F.atWork jobId = false) :=
  match call with
  | .dispatch jobId =>
    decidable_of_iff (F.atWork jobId = false)
      ⟨fun h _ heq => HubCall.dispatch.inj heq ▸ h, fun h => h jobId rfl⟩
  | .submit .. | .findAllTasks .. | .findOneTask .. | .cancel .. | .listApprovals ..
  | .decideApproval .. | .createServer .. | .findAllServers .. | .findOneServer ..
  | .getHealth .. | .removeServer .. | .findPendingRegistrations .. | .decideRegistration ..
  | .createRegistration .. | .getRegistrationResult .. | .openSocket .. | .handleConnection ..
  | .handleDisconnect .. | .message .. | .watchdog => isTrue nofun

instance (F : Fleet n) (action : Action n) : Decidable (F.enabled action) :=
  match action with
  | .call _ => inferInstanceAs (Decidable (_ ∧ _ ∧ _))
  | .resume _ | .connect _ | .disconnect _ | .deliver _ | .receive _ _ | .child _ _ _ =>
    inferInstanceAs (Decidable (_ = true))
  | .drop _ => inferInstanceAs (Decidable (_ ∧ _ ∧ _))
  | .heartbeat _ | .restart _ => inferInstanceAs (Decidable True)

instance (F : Fleet n) (actions : List (Action n)) :
    Decidable ((fleetMachine n env detectors).Runs F actions) :=
  inferInstanceAs (Decidable (∀ visit ∈ (fleetMachine n env detectors).visits F actions,
    visit.1.enabled visit.2))

/-- A fleet of one daemon, with the key of the first server of user 0. -/
def Fleet.sample : Fleet 1 := .initial Hub.sample fun _ => js "a"

/-- A program whose output holds no prompt, and whose exits are like any other. -/
def Detectors.silent : Detectors := ⟨fun _ => none, fun _ _ _ => none⟩

/-- The daemon of a fleet that has one. -/
def soleDaemon : Fin 1 := 0

/-- The daemon connects, user 0 submits a task, the task is dispatched. -/
def sampleDispatch : List (Action 1) :=
  .connect soleDaemon :: List.replicate 6 (.resume 0) ++
    .call (.submit 0 ⟨0, .CODEX, sampleInput⟩) ::
    List.replicate 4 (.resume 1) ++ .call (.dispatch 0) :: List.replicate 13 (.resume 2)

/-- The sample deployment is one at rest. -/
theorem Fleet.sample_initial : Fleet.sample.Initial := Fleet.initial_initial Hub.sample_fresh _

/-- Every action of the sample is enabled when it is taken. -/
theorem sampleDispatch_runs :
    (fleetMachine 1 Env.sample .silent).Runs .sample sampleDispatch := by decide

/-! ## The rows of a fleet -/

/-- Every run is recorded, with the states of its Hub as the history. -/
theorem Fleet.Initial.recorded_run (hstart : F.Initial) {actions : List (Action n)}
    (hruns : (fleetMachine n env detectors).Runs F actions) :
    ((fleetMachine n env detectors).exec F actions).Recorded env
      (((fleetMachine n env detectors).states F actions).map Fleet.hub) := by
  refine Machine.exec_history (I := fun seen F' => F'.Recorded env (seen.map Fleet.hub))
    hstart.recorded (fun seen F' action hF' henabled => ?_) hruns
  rw [List.map_append]
  exact hF'.step (Fleet.advance henabled)

/-- **The rows refer to each other as they should at every await**: in every state of every run,
a task is on a stored server, an attempt is on a stored server of the owner of its task, an
approval is of a stored task that has no other, and has a time of decision exactly when it is
decided. -/
theorem Fleet.rows_linked {F : Fleet n} (hstart : F.Initial) {actions : List (Action n)}
    (hruns : (fleetMachine n env detectors).Runs F actions) :
    ((fleetMachine n env detectors).exec F actions).hub.rows.Linked :=
  have hlast := hstart.recorded_run hruns
  hlast.archive.linked _ hlast.archive.here

/-- The attempt of `sampleDispatch`. -/
theorem Fleet.rows_linked_dispatched :
    ∃ attempt server, ((fleetMachine 1 Env.sample .silent).exec .sample
        sampleDispatch).hub.attempts 0 = some attempt ∧
      ((fleetMachine 1 Env.sample .silent).exec .sample sampleDispatch).hub.servers
        attempt.serverId = some server ∧
      ((fleetMachine 1 Env.sample .silent).exec .sample sampleDispatch).hub.ownerOf attempt.taskId =
        some server.ownerId := by
  obtain ⟨attempt, hrow⟩ := Option.isSome_iff_exists.mp (show (((fleetMachine 1 Env.sample
    .silent).exec .sample sampleDispatch).hub.attempts 0).isSome = true by decide)
  obtain ⟨server, hserver, howner⟩ :=
    (Fleet.rows_linked Fleet.sample_initial sampleDispatch_runs).attempt_owner 0 attempt hrow
  exact ⟨attempt, server, hrow, hserver, howner⟩

end CodeCaller
