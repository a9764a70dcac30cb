import CodeCaller.App.Session

/-!
# What is sent and answered

What the app and the Hub know of each other in a deployment: a handler runs the call of the request
it belongs to, and a reply is the outcome of its handler.  Nothing of this is taken back: `Later`
says what stays from step to step.

* `Linked`: the links between calls and programs, requests and handlers, replies and outcomes.  It
  is an invariant of every deployment, and the only thing the later modules use of
  `Deployment.step`.
* `AppProtocol`: a protocol of the calls of the app, with what it lets one know of a call from its
  past.  A protocol is checked against the programs once, and `AppProtocol.step_sound` carries what
  is known through the steps of the whole deployment.

`App.Retries` and `App.StoredToken` are two such protocols.
-/

namespace CodeCaller

open Async

variable {env : Env} {jwt : JwtService} {compare : JsString → JsString → Bool}

/-- A body that is cut short does not change the status line. -/
@[simp] theorem HttpReply.status_cut {whole : Bool} {reply : HttpReply} :
    (reply.cut whole).status = reply.status := by
  unfold HttpReply.cut
  split <;> rfl

/-- Only `UnauthorizedException` is answered with 401. -/
theorem HubErrorKind.status_eq {kind : HubErrorKind} :
    kind.status = 401 ↔ kind = .unauthorized := by
  cases kind <;> decide

/-! ## What stays -/

/-- **What stays of a deployment**: what was sent, what was made of it, and the outcomes. -/
structure Deployment.Later (D D' : Deployment) : Prop where
  app : Carried D.app.shared D'.app.shared
  handled : ∀ n handling, D.handled n = some handling → D'.handled n = some handling
  calls : D.calls <+: D'.calls
  authCalls : D.authCalls <+: D'.authCalls
  hubCalls : D.hubCalls <+: D'.hubCalls
  auth : ∀ k outcome, D.auth.outcome? k = some outcome → D'.auth.outcome? k = some outcome
  hub : ∀ k outcome, D.hub.outcome? k = some outcome → D'.hub.outcome? k = some outcome

/-- A list that grows at its end keeps its items at their places. -/
theorem getElem?_mono {α : Type} {front items : List α} (h : front <+: items) {k : ℕ}
    {item : α} (hitem : front[k]? = some item) : items[k]? = some item := by
  obtain ⟨hlt, rfl⟩ := List.getElem?_eq_some_iff.mp hitem
  exact List.prefix_iff_getElem?.mp h k hlt

namespace Deployment

variable {D D' : Deployment}

theorem Later.refl (D : Deployment) : D.Later D :=
  ⟨.refl _, fun _ _ => id, List.prefix_rfl, List.prefix_rfl, List.prefix_rfl, fun _ _ => id,
    fun _ _ => id⟩

/-- What stays over each part of a run stays over the whole. -/
theorem Later.trans {D'' : Deployment} (h : D.Later D') (h' : D'.Later D'') : D.Later D'' :=
  ⟨h.app.trans h'.app, fun n _ hold => h'.handled n _ (h.handled n _ hold),
    h.calls.trans h'.calls, h.authCalls.trans h'.authCalls, h.hubCalls.trans h'.hubCalls,
    fun k _ hold => h'.auth k _ (h.auth k _ hold), fun k _ hold => h'.hub k _ (h.hub k _ hold)⟩

/-- An answer stays. -/
theorem Later.answer (h : D.Later D') {n : ℕ} {reply : HttpReply}
    (hanswer : D.answer n = some reply) : D'.answer n = some reply := by
  unfold Deployment.answer at hanswer ⊢
  cases hhandled : D.handled n with
  | none => rw [hhandled] at hanswer; cases hanswer
  | some handling =>
      rw [hhandled] at hanswer
      rw [h.handled n handling hhandled]
      cases handling with
      | refused => exact hanswer
      | rejected status => exact hanswer
      | auth k =>
          obtain ⟨outcome, houtcome, rfl⟩ := Option.map_eq_some_iff.mp hanswer
          exact congrArg (Option.map _) (h.auth k outcome houtcome)
      | call k =>
          obtain ⟨call, hcall, hended⟩ := Option.bind_eq_some_iff.mp hanswer
          obtain ⟨outcome, houtcome, rfl⟩ := Option.map_eq_some_iff.mp hended
          exact Option.bind_eq_some_iff.mpr ⟨call, getElem?_mono h.hubCalls hcall,
            congrArg (Option.map _) (h.hub k outcome houtcome)⟩

/-! ## Steps -/

/-- A new call of the app takes nothing back. -/
theorem later_tap (call : AppCall) : D.Later (D.tap call) :=
  { Later.refl D with calls := List.prefix_append _ _ }

/-- The Hub handles an attempt at most once. -/
theorem later_setHandled {n : ℕ} (hnew : D.handled n = none) (handling : Handling) :
    D.Later (D.setHandled n handling) := by
  refine { Later.refl D with handled := fun m old hold => ?_ }
  have hne : m ≠ n := by
    rintro rfl
    rw [hnew] at hold
    cases hold
  exact (Function.update_of_ne hne _ _).trans hold

/-- A call that the Hub starts is a new one, and what is handled stays handled. -/
theorem later_serve (call : HubCall) : D.Later (D.serve env call) :=
  { Later.refl D with
    hubCalls := List.prefix_append _ _
    hub := fun _ _ => Pool.outcome?_add }

/-- The calls of `AuthService` have a pool of their own. -/
theorem later_serveAuth (call : AuthCall) : D.Later (D.serveAuth env jwt compare call) :=
  { Later.refl D with
    authCalls := List.prefix_append _ _
    auth := fun _ _ => Pool.outcome?_add }

theorem later_tick : D.Later D.tick := { Later.refl D with }

/-- Whatever the app does, the attempts it has made stay. -/
theorem later_setApp {f : AppState → AppState} (h : Carried D.app.shared (f D.app.shared)) :
    D.Later (D.setApp f) :=
  { Later.refl D with app := h }

/-- A request is received once. -/
theorem later_receive {n : ℕ} (hnew : D.handled n = none) :
    D.Later (D.receive env jwt compare n) := by
  unfold receive
  split
  · exact .refl D
  split
  · split
    · exact later_tick.trans (later_setHandled (by exact hnew) _)
    · exact (later_tick.trans (later_serve _)).trans (later_setHandled (by exact hnew) _)
  · exact (later_serveAuth _).trans (later_setHandled (by exact hnew) _)

/-- A reply that arrives takes no reply away. -/
theorem carried_answered {n : ℕ} (s : AppState) (hnone : App.replyTo n s = none)
    (reply : HttpReply) :
    Carried s { s with attempts := s.attempts.modify n (·.answered reply) } := by
  intro m attempt hattempt
  by_cases heq : n = m
  · subst heq
    refine ⟨some reply, ?_, fun arrived harrived => ?_⟩
    · dsimp only
      rw [List.getElem?_modify_eq, hattempt]
      rfl
    · unfold App.replyTo at hnone
      rw [hattempt, Option.bind_some, harrived] at hnone
      cases hnone
  · refine ⟨attempt.reply, ?_, fun _ => id⟩
    dsimp only
    rw [List.getElem?_modify_ne _ _ heq]
    exact hattempt

/-- A reply is delivered once. -/
theorem later_deliver {n : ℕ} {whole : Bool} (hnone : App.replyTo n D.app.shared = none) :
    D.Later (D.deliver n whole) := by
  unfold deliver
  split
  · exact .refl D
  · exact later_setApp (carried_answered _ hnone _)

/-! ## Links -/

/-- **How a request was handled**: behind the guard, or by `AuthController`. -/
def Routed (D : Deployment) (request : AppRequest) : Handling → Prop
  | .refused => ∃ accessToken resource, request = .authorized accessToken resource
  | .rejected status => 400 ≤ status ∧ status ≠ 401
  | .auth k => ∃ call, request = .auth call ∧ D.authCalls[k]? = some call
  | .call k => ∃ accessToken resource user, request = .authorized accessToken resource ∧
      D.hubCalls[k]? = some (resource.call user)

/-- **The links of a deployment**: between its calls and their programs, what was sent and
what was made of it, and the replies and the outcomes. -/
structure Linked (D : Deployment) : Prop where
  calls : D.calls.length = D.app.threads.length
  authCalls : D.authCalls.length = D.auth.threads.length
  hubCalls : D.hubCalls.length = D.hub.threads.length
  handled : ∀ n handling, D.handled n = some handling →
    ∃ attempt, D.app.shared.attempts[n]? = some attempt ∧ D.Routed attempt.request handling
  replied : ∀ n reply, App.replyTo n D.app.shared = some reply →
    ∃ full whole, D.answer n = some full ∧ reply = full.cut whole

/-- How a request was handled stays so. -/
theorem Later.routed (h : D.Later D') {request : AppRequest} {handling : Handling}
    (hrouted : D.Routed request handling) : D'.Routed request handling := by
  cases handling with
  | refused => exact hrouted
  | rejected status => exact hrouted
  | auth k =>
      obtain ⟨call, hrequest, hcall⟩ := hrouted
      exact ⟨call, hrequest, getElem?_mono h.authCalls hcall⟩
  | call k =>
      obtain ⟨accessToken, resource, user, hrequest, hcall⟩ := hrouted
      exact ⟨accessToken, resource, user, hrequest, getElem?_mono h.hubCalls hcall⟩

/-- What is linked stays so, where nothing is handled or replied. -/
theorem Linked.later (hD : D.Linked) (h : D.Later D')
    (hcalls : D'.calls.length = D'.app.threads.length)
    (hauth : D'.authCalls.length = D'.auth.threads.length)
    (hhub : D'.hubCalls.length = D'.hub.threads.length)
    (hhandled : ∀ n handling, D'.handled n = some handling → D.handled n = some handling ∨
      ∃ attempt, D'.app.shared.attempts[n]? = some attempt ∧ D'.Routed attempt.request handling)
    (hreplied : ∀ n reply, App.replyTo n D'.app.shared = some reply →
      App.replyTo n D.app.shared = some reply ∨
        ∃ full whole, D.answer n = some full ∧ reply = full.cut whole) : D'.Linked := by
  refine ⟨hcalls, hauth, hhub, fun n handling hnow => ?_, fun n reply hnow => ?_⟩
  · rcases hhandled n handling hnow with hold | hnew
    · obtain ⟨attempt, hattempt, hrouted⟩ := hD.handled n handling hold
      obtain ⟨reply, hafter, -⟩ := h.app n attempt hattempt
      exact ⟨_, hafter, h.routed hrouted⟩
    · exact hnew
  · rcases hreplied n reply hnow with hold | hnew
    · obtain ⟨full, whole, hanswer, hcut⟩ := hD.replied n reply hold
      exact ⟨full, whole, h.answer hanswer, hcut⟩
    · obtain ⟨full, whole, hanswer, hcut⟩ := hnew
      exact ⟨full, whole, h.answer hanswer, hcut⟩

/-- An attempt is handled by a call of the request it carries. -/
theorem Linked.setHandled (hD : D.Linked) {n : ℕ} {handling : Handling} {attempt : Attempt}
    (hnew : D.handled n = none) (hattempt : D.app.shared.attempts[n]? = some attempt)
    (hrouted : D.Routed attempt.request handling) : (D.setHandled n handling).Linked := by
  refine hD.later (later_setHandled hnew handling) hD.calls hD.authCalls hD.hubCalls
    (fun m other hother => ?_) fun m reply hreply => .inl hreply
  by_cases heq : m = n
  · subst heq
    rw [show (D.setHandled m handling).handled m = some handling from Function.update_self ..]
      at hother
    cases hother
    exact .inr ⟨attempt, hattempt, hrouted⟩
  · exact .inl ((Function.update_of_ne heq _ _).symm.trans hother)

/-- A call of the Hub that no attempt has led to, such as a message of a daemon, links nothing. -/
theorem Linked.serve (hD : D.Linked) (call : HubCall) : (D.serve env call).Linked := by
  refine hD.later (later_serve call) hD.calls hD.authCalls ?_ (fun _ _ => .inl) fun _ _ => .inl
  change (D.hubCalls ++ [call]).length = (D.hub.threads ++ [_]).length
  rw [List.length_append, List.length_append, hD.hubCalls]
  rfl

/-- The same for the pool of `AuthService`. -/
theorem Linked.serveAuth (hD : D.Linked) (call : AuthCall) :
    (D.serveAuth env jwt compare call).Linked := by
  refine hD.later (later_serveAuth call) hD.calls ?_ hD.hubCalls (fun _ _ => .inl) fun _ _ => .inl
  change (D.authCalls ++ [call]).length = (D.auth.threads ++ [_]).length
  rw [List.length_append, List.length_append, hD.authCalls]
  rfl

/-- A handler is linked to the request it was begun for. -/
theorem Linked.receive (hD : D.Linked) {n : ℕ} (hnew : D.handled n = none) :
    (D.receive env jwt compare n).Linked := by
  unfold Deployment.receive
  cases hattempt : D.app.shared.attempts[n]? with
  | none => exact hD
  | some attempt =>
      obtain ⟨baseUrl, request, reply⟩ := attempt
      dsimp only
      cases request with
      | auth call =>
          refine (hD.serveAuth call).setHandled hnew hattempt ⟨call, rfl, ?_⟩
          change (D.authCalls ++ [call])[D.auth.threads.length]? = some call
          rw [← hD.authCalls, List.getElem?_concat_length]
      | authorized accessToken resource =>
          have htick : D.tick.Linked := { hD with }
          dsimp only
          split
          · exact htick.setHandled hnew hattempt ⟨accessToken, resource, rfl⟩
          · next user _ =>
              refine (htick.serve (resource.call user)).setHandled hnew hattempt
                ⟨accessToken, resource, user, rfl, ?_⟩
              change (D.hubCalls ++ [resource.call user])[D.hub.threads.length]? = _
              rw [← hD.hubCalls, List.getElem?_concat_length]

/-- A reply is linked to the outcome it was made from. -/
theorem Linked.deliver (hD : D.Linked) {n : ℕ} {whole : Bool}
    (hnone : App.replyTo n D.app.shared = none) : (D.deliver n whole).Linked := by
  have hlater : D.Later (D.deliver n whole) := later_deliver hnone
  unfold Deployment.deliver at hlater ⊢
  cases hanswer : D.answer n with
  | none => exact hD
  | some full =>
      rw [hanswer] at hlater
      refine hD.later hlater hD.calls hD.authCalls hD.hubCalls (fun _ _ => .inl)
        fun m reply hreply => ?_
      by_cases heq : n = m
      · subst heq
        refine .inr ⟨full, whole, hanswer, ?_⟩
        obtain ⟨attempt, hattempt, harrived⟩ := Option.bind_eq_some_iff.mp hreply
        change (D.app.shared.attempts.modify n _)[n]? = some attempt at hattempt
        rw [List.getElem?_modify_eq] at hattempt
        obtain ⟨before, -, rfl⟩ := Option.map_eq_some_iff.mp hattempt
        exact (Option.some.inj harrived).symm
      · refine .inl (Eq.trans ?_ hreply)
        unfold App.replyTo
        change _ = Option.bind (D.app.shared.attempts.modify n _)[m]? _
        rw [List.getElem?_modify_ne _ _ heq]

/-- A node of the app adds at most one attempt, which nobody has handled yet. -/
theorem Linked.app (hD : D.Linked) {shared : AppState} {request : AppRequest}
    {threads : List AppThread} (hlength : threads.length = D.app.threads.length)
    (hsends : Sends request D.app.shared shared) :
    Linked { D with app := ⟨shared, threads⟩ } := by
  refine hD.later { Later.refl D with app := hsends.carried } (hD.calls.trans hlength.symm)
    hD.authCalls hD.hubCalls (fun _ _ => .inl) fun n reply hreply => .inl ?_
  obtain ⟨attempt, hattempt, harrived⟩ := Option.bind_eq_some_iff.mp hreply
  rcases hsends.sent hattempt with hold | ⟨-, -, hnone⟩
  · exact Option.bind_eq_some_iff.mpr ⟨attempt, hold, harrived⟩
  · rw [hnone] at harrived
    cases harrived

/-- A call that begins has sent nothing. -/
theorem Linked.tap (hD : D.Linked) (call : AppCall) : (D.tap call).Linked := by
  refine hD.later (later_tap call) ?_ hD.authCalls hD.hubCalls (fun _ _ => .inl) fun _ _ => .inl
  change (D.calls ++ [call]).length = (D.app.threads ++ [_]).length
  rw [List.length_append, List.length_append, hD.calls]
  rfl

end Deployment

/-! ## Protocols of the app -/

/-- **A protocol of the calls of the app**, with what it lets one know of a call from its past.
Each node sends one request or none; what is known survives what the others do. -/
structure AppProtocol (A : Type) where
  start : AppCall → A
  Move : AppCall × A → (AppState → AppState) → AppState → AppCall × A → Prop
  Known : AppCall → A → AppThread → AppState → Prop
  follows : ∀ (call : AppCall) (s : AppState),
    call.program.Follows Carried Move (fun _ _ _ => True) (call, start call) s
  sends : ∀ {a a' : AppCall × A} {update : AppState → AppState} {s : AppState},
    Move a update s a' → ∃ request, Sends request s (update s)
  known_start : ∀ (call : AppCall) (s : AppState), Known call (start call) ⟨call.program, []⟩ s
  known_carried : ∀ {call : AppCall} {a : A} {thread : AppThread} {s s' : AppState},
    Known call a thread s → Carried s s' → Known call a thread s'
  known_move : ∀ {a a' : AppCall × A} {thread : AppThread} {update : AppState → AppState}
    {s : AppState} (program : AppM Unit), Known a.1 a.2 thread s → Move a update s a' →
      a'.1 = a.1 ∧ Known a'.1 a'.2 ⟨program, thread.past ++ [(s, update s)]⟩ (update s)

namespace AppProtocol

variable {A : Type} (p : AppProtocol A)

/-- What is known of the `i`-th call. -/
def Holds (calls : List AppCall) (i : ℕ) (a : AppCall × A) (thread : AppThread) (s : AppState) :
    Prop :=
  calls[i]? = some a.1 ∧ p.Known a.1 a.2 thread s

variable {p}

/-- What a move does keeps the attempts that were made. -/
theorem carried {a a' : AppCall × A} {update : AppState → AppState} {s : AppState}
    (hmove : p.Move a update s a') : Carried s (update s) :=
  (p.sends hmove).elim fun _ hsends => hsends.carried

/-- What is known of a thread stays known when another one moves. -/
theorem Holds.carried {calls : List AppCall} {i : ℕ} {a : AppCall × A} {thread : AppThread}
    {s s' : AppState} (h : p.Holds calls i a thread s) (hcarried : Carried s s') :
    p.Holds calls i a thread s' :=
  ⟨h.1, p.known_carried h.2 hcarried⟩

/-- The thread that moves is followed by the protocol. -/
theorem Holds.move {calls : List AppCall} {i : ℕ} {a a' : AppCall × A} {thread : AppThread}
    {update : AppState → AppState} {s : AppState} (program : AppM Unit)
    (h : p.Holds calls i a thread s) (hmove : p.Move a update s a') :
    p.Holds calls i a' ⟨program, thread.past ++ [(s, update s)]⟩ (update s) := by
  obtain ⟨hcall, hknown⟩ := p.known_move program h.2 hmove
  exact ⟨hcall ▸ h.1, hknown⟩

end AppProtocol

namespace Deployment

variable {D : Deployment} {A : Type} {p : AppProtocol A}

/-- **The invariant of a deployment**, with what a protocol lets one know of its calls. -/
structure Sound (p : AppProtocol A) (D : Deployment) : Prop where
  linked : D.Linked
  calls : D.app.Fits Carried p.Move (fun _ _ _ => True) (p.Holds D.calls)

/-- A new call stands at the beginning of the protocol. -/
theorem Sound.tap (hD : D.Sound p) (call : AppCall) : (D.tap call).Sound p := by
  refine ⟨hD.linked.tap call, ?_⟩
  have hbefore : D.app.Fits Carried p.Move (fun _ _ _ => True) (p.Holds (D.calls ++ [call])) :=
    hD.calls.mono fun i a thread _ hholds =>
      ⟨getElem?_mono (List.prefix_append _ _) hholds.1, hholds.2⟩
  refine hbefore.add (p.follows call _) ⟨?_, p.known_start call _⟩
  rw [← hD.linked.calls, List.getElem?_concat_length]

/-- **One node of a call** is a node of its protocol. -/
theorem Sound.node (hD : D.Sound p) {i : ℕ} (hlive : D.app.live i = true) :
    (D.app.step i).Fits Carried p.Move (fun _ _ _ => True) (p.Holds D.calls) ∧
      ∃ a update a' thread, D.app.threads[i]? = some thread ∧
        thread.program.effect? = some update ∧ p.Holds D.calls i a thread D.app.shared ∧
        p.Move a update D.app.shared a' ∧ (D.app.step i).shared = update D.app.shared :=
  hD.calls.step Carried.refl @Carried.trans (fun _ _ _ _ => AppProtocol.carried)
    (fun _ _ _ _ _ hholds => hholds.carried) (fun _ _ _ _ _ _ program => .move program) hlive

/-- One node of the app: the thread that moves follows its protocol, and for the others only the
shared state has grown. -/
theorem Sound.resume (hD : D.Sound p) {i : ℕ} (hlive : D.app.live i = true) :
    Sound p { D with app := D.app.step i } := by
  obtain ⟨hfits, a, update, a', thread, -, -, -, hmove, hshared⟩ := hD.node hlive
  refine ⟨?_, hfits⟩
  obtain ⟨request, hsends⟩ := p.sends hmove
  rw [← hshared] at hsends
  exact hD.linked.app Pool.step_length hsends

/-- Whatever happens outside the app. -/
theorem Sound.outside (hD : D.Sound p) {D' : Deployment} (hlinked : D'.Linked)
    (hcalls : D'.calls = D.calls) (hthreads : D'.app.threads = D.app.threads)
    (hcarried : Carried D.app.shared D'.app.shared) : D'.Sound p := by
  refine ⟨hlinked, ?_⟩
  have hmoved := hD.calls.moved @Carried.trans (fun _ _ _ _ _ hholds => hholds.carried) hcarried
  rw [hcalls]
  rwa [← hthreads] at hmoved

/-- No call has begun. -/
theorem Initial.sound (hD : D.Initial) : D.Sound p := by
  refine ⟨⟨?_, ?_, ?_, fun n handling hhandled => ?_, fun n reply hreply => ?_⟩,
    fun i thread hthread => ?_⟩
  · rw [hD.calls, hD.app]
    rfl
  · rw [hD.authCalls, hD.auth]
    rfl
  · rw [hD.hubCalls, hD.hub]
    rfl
  · rw [hD.handled n] at hhandled
    cases hhandled
  · unfold App.replyTo at hreply
    rw [hD.attempts] at hreply
    cases hreply
  · rw [hD.app] at hthread
    cases hthread

/-- The Hub reads a request, and the app does not see it. -/
theorem receive_app (n : ℕ) : (D.receive env jwt compare n).app = D.app ∧
    (D.receive env jwt compare n).calls = D.calls := by
  unfold receive
  split
  · exact ⟨rfl, rfl⟩
  · split
    · split <;> exact ⟨rfl, rfl⟩
    · exact ⟨rfl, rfl⟩

/-- A delivery fills in the answer of an attempt; the calls of the app find it at their next node.
-/
theorem deliver_app (n : ℕ) (whole : Bool) : (D.deliver n whole).app.threads = D.app.threads ∧
    (D.deliver n whole).calls = D.calls := by
  unfold deliver
  split <;> exact ⟨rfl, rfl⟩

/-- Every step of the deployment, by its kind. -/
theorem step_sound (hD : D.Sound p) {action : DeployAction} (henabled : D.enabled action) :
    (D.step env jwt compare action).Sound p := by
  cases action with
  | tap call => exact hD.tap call
  | resume i => exact hD.resume henabled
  | storage fails =>
      have hquiet : Sends (.auth (.refresh [])) D.app.shared
          { D.app.shared with storageFails := fails } := .inl rfl
      exact hD.outside (hD.linked.app rfl hquiet) rfl rfl hquiet.carried
  | receive n =>
      obtain ⟨happ, hcalls⟩ := @receive_app env jwt compare D n
      exact hD.outside (hD.linked.receive henabled.2) hcalls (congrArg _ happ)
        (later_receive henabled.2).app
  | reject n status =>
      obtain ⟨hlt, hnew, hstatus⟩ := henabled
      exact hD.outside (hD.linked.setHandled hnew (List.getElem?_eq_getElem hlt) hstatus) rfl rfl
        (.refl _)
  | serve call => exact hD.outside (hD.linked.serve call) rfl rfl (.refl _)
  | serveAuth call => exact hD.outside (hD.linked.serveAuth call) rfl rfl (.refl _)
  | hub k =>
      have hlater : D.Later { D with hub := D.hub.step k } :=
        { Later.refl D with hub := fun _ _ => Pool.outcome?_step }
      refine hD.outside ?_ rfl rfl (.refl _)
      exact hD.linked.later hlater hD.linked.calls hD.linked.authCalls
        (hD.linked.hubCalls.trans Pool.step_length.symm) (fun _ _ => .inl) fun _ _ => .inl
  | auth k =>
      have hlater : D.Later { D with auth := D.auth.step k } :=
        { Later.refl D with auth := fun _ _ => Pool.outcome?_step }
      refine hD.outside ?_ rfl rfl (.refl _)
      exact hD.linked.later hlater hD.linked.calls
        (hD.linked.authCalls.trans Pool.step_length.symm) hD.linked.hubCalls (fun _ _ => .inl)
        fun _ _ => .inl
  | deliver n whole =>
      obtain ⟨hthreads, hcalls⟩ := deliver_app (D := D) n whole
      exact hD.outside (hD.linked.deliver henabled.1) hcalls hthreads (later_deliver henabled.1).app

/-- A protocol of the app holds in all that the deployment can reach: the Hub, the network and the
clock cannot break it. -/
theorem reachable_sound (hreach : (deploymentMachine env jwt compare).Reachable D) :
    D.Sound p := by
  refine Machine.Reachable.invariant (I := Sound p) (fun _ => Initial.sound)
    (fun s action hsound henabled => ?_) hreach
  exact step_sound hsound henabled

end Deployment

end CodeCaller
