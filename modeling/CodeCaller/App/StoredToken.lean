import CodeCaller.App.Exchange
import CodeCaller.Hub.TokenRaces

/-!
# The stored token

`restoreSession` removes the stored token from its `catch`, whatever went wrong.  Where it only
catches that the Hub refused the token which is still stored, a token is never lost but by logout
or by a refusal of the Hub: `stored_token_kept`.

### The pieces

* `SessionPhase.Known`: what is known of a restore.  It has read the token in its first node, and
  what it has sent is to refresh that token.
* `CatchesRefusal`: the condition on a step.  Where the `catch` of a restore is about to remove the
  token that is stored, the restore has found that token, and was told 401.
* `Linked.refused`: a 401 is the answer of a handler of `refresh`, so the Hub has refused the token
  (`HubRefused`); nothing else on the way gives this status.
* `Sound.removes`: one step removes the token by a logout, or after a refusal.

The ways in which the condition fails are all in the `catch`: no reply from either URL, a reply
that cannot be read, an error of the Hub that is no refusal, and a refusal of a token that another
call has replaced in the meantime.
-/

namespace CodeCaller

open Async

variable {env : Env} {jwt : JwtService} {compare : JsString → JsString → Bool}

/-! ## What a call knows -/

/-- What is known of a call in a phase: a restore has read the token in its first node, and
what it has sent is to refresh it. -/
def SessionPhase.Known (call : AppCall) (thread : AppThread) (s : AppState) : SessionPhase → Prop
  | fresh => thread.past = []
  | asked token => call.restores = true →
      thread.past.head?.map (·.1.storage) = some token ∧
        ∀ n ∈ sentBy thread, ∃ value, token = some value ∧
          s.attempts[n]?.map (·.request) = some (.auth (.refresh value))

/-- What a call knows stays true when others move. -/
theorem SessionPhase.Known.carried {call : AppCall} {phase : SessionPhase} {thread : AppThread}
    {s s' : AppState} (hknown : phase.Known call thread s) (h : Carried s s') :
    phase.Known call thread s' := by
  cases phase with
  | fresh => exact hknown
  | asked token =>
      intro hrestores
      obtain ⟨hhead, hsent⟩ := hknown hrestores
      refine ⟨hhead, fun n hn => ?_⟩
      obtain ⟨value, htoken, hrequest⟩ := hsent n hn
      exact ⟨value, htoken, h.request hrequest⟩

/-- What a call has found at its first node stays the first. -/
theorem head?_past {thread : AppThread} {token : Option JsString} (node : AppState × AppState)
    (hhead : thread.past.head?.map (·.1.storage) = some token) :
    (thread.past ++ [node]).head?.map (·.1.storage) = some token := by
  rw [List.head?_append_of_ne_nil _ (by rintro hnil; rw [hnil] at hhead; cases hhead)]
  exact hhead

/-- What is known after a node that sends nothing. -/
theorem known_quiet {call : AppCall} {token : Option JsString} {thread : AppThread}
    {program : AppM Unit} {s s' : AppState}
    (hknown : (SessionPhase.asked token).Known call thread s) (hsent : s'.attempts = s.attempts) :
    (SessionPhase.asked token).Known call ⟨program, thread.past ++ [(s, s')]⟩ s' := by
  intro hrestores
  obtain ⟨hhead, hold⟩ := hknown hrestores
  refine ⟨head?_past _ hhead, fun n hn => ?_⟩
  rw [sent_quiet thread.program program hsent] at hn
  rw [hsent]
  exact hold n hn

/-- What is known after a node that sends a request. -/
theorem known_send {call : AppCall} {token : Option JsString} {thread : AppThread}
    {program : AppM Unit} {s s' : AppState} {baseUrl : JsString} {request : AppRequest}
    (hknown : (SessionPhase.asked token).Known call thread s)
    (hsent : s'.attempts = s.attempts ++ [⟨baseUrl, request, none⟩])
    (hmay : call.MaySend token request) :
    (SessionPhase.asked token).Known call ⟨program, thread.past ++ [(s, s')]⟩ s' := by
  intro hrestores
  obtain ⟨hhead, hold⟩ := hknown hrestores
  refine ⟨head?_past _ hhead, fun n hn => ?_⟩
  rw [sent_append thread.program program hsent, List.mem_append, List.mem_singleton] at hn
  rcases hn with hn | rfl
  · obtain ⟨value, htoken, hrequest⟩ := hold n hn
    have hcarried : Carried s s' := carried_of_sent hsent
    exact ⟨value, htoken, hcarried.request hrequest⟩
  · obtain ⟨value, htoken, rfl⟩ := hmay hrestores
    exact ⟨value, htoken, by rw [hsent, List.getElem?_concat_length]; rfl⟩

/-- **One move**, by its kind. -/
theorem SessionMove.known {a a' : AppCall × SessionPhase} {thread : AppThread}
    {update : AppState → AppState} {s : AppState} (program : AppM Unit)
    (hknown : a.2.Known a.1 thread s) (hmove : SessionMove a update s a') :
    a'.1 = a.1 ∧ a'.2.Known a'.1 ⟨program, thread.past ++ [(s, update s)]⟩ (update s) := by
  cases hmove with
  | ask hsent hstored =>
      refine ⟨rfl, fun _ => ?_⟩
      have hpast : thread.past = [] := hknown
      rw [hpast]
      refine ⟨rfl, fun n hn => ?_⟩
      rw [sent_quiet program program hsent] at hn
      cases hn
  | giveUp _ heffect => exact ⟨rfl, known_quiet hknown (removeItem_attempts heffect s)⟩
  | node hnode =>
      refine ⟨rfl, ?_⟩
      cases hnode with
      | quiet hsent _ => exact known_quiet hknown hsent
      | save value hsent _ => exact known_quiet hknown hsent
      | remove hsent _ => exact known_quiet hknown hsent
      | send hsends hstored hmay =>
          rcases hsends with hsent | ⟨baseUrl, hsent⟩
          · exact known_quiet hknown hsent
          · exact known_send hknown hsent hmay

/-- At the beginning nothing is known. -/
theorem AppCall.known_phase (call : AppCall) (s : AppState) :
    call.phase.Known call ⟨call.program, []⟩ s := by
  unfold AppCall.phase
  split
  · exact rfl
  · next hnot => exact fun hrestores => absurd hrestores hnot

/-- **The protocol of the stored token.** -/
def sessionProtocol : AppProtocol SessionPhase where
  start := AppCall.phase
  Move := SessionMove
  Known call phase thread s := phase.Known call thread s
  follows := AppCall.follows
  sends := SessionMove.sends
  known_start := AppCall.known_phase
  known_carried := SessionPhase.Known.carried
  known_move := SessionMove.known

namespace Deployment

variable {D : Deployment}

/-! ## Refusals -/

/-- **The Hub has answered that a token is invalid**: a handler of `refresh` ended so. -/
def HubRefused (D : Deployment) (token : JsString) : Prop :=
  ∃ k message, D.authCalls[k]? = some (.refresh token) ∧
    D.auth.outcome? k = some (.error ⟨.unauthorized, message⟩)

/-- A refusal comes from an exception of the service, not from the network. -/
theorem unauthorized_of_status {outcome : Except HubError (Option TokenPair)}
    (h : (HttpReply.ofAuth outcome).status = 401) :
    ∃ message, outcome = .error ⟨.unauthorized, message⟩ := by
  rcases outcome with ⟨kind, message⟩ | _ | pair
  · obtain rfl : kind = .unauthorized := HubErrorKind.status_eq.mp h
    exact ⟨message, rfl⟩
  · cases h
  · cases h

/-- **A 401 is the answer of the Hub**: nothing else on the way gives it. -/
theorem Linked.refused (hD : D.Linked) {n : ℕ} {token : JsString}
    (hrequest : D.app.shared.attempts[n]?.map (·.request) = some (.auth (.refresh token)))
    (hstatus : (App.replyTo n D.app.shared).map (·.status) = some 401) : D.HubRefused token := by
  obtain ⟨reply, hreply, hunauthorized⟩ := Option.map_eq_some_iff.mp hstatus
  obtain ⟨full, whole, hanswer, rfl⟩ := hD.replied n reply hreply
  have hfull : full.status = 401 := HttpReply.status_cut.symm.trans hunauthorized
  unfold Deployment.answer at hanswer
  cases hhandled : D.handled n with
  | none => rw [hhandled] at hanswer; cases hanswer
  | some handling =>
      rw [hhandled] at hanswer
      obtain ⟨attempt, hattempt, hrouted⟩ := hD.handled n handling hhandled
      rw [hattempt, Option.map_some] at hrequest
      have hrefresh : attempt.request = .auth (.refresh token) := Option.some.inj hrequest
      rw [hrefresh] at hrouted
      cases handling with
      | refused =>
          obtain ⟨accessToken, resource, hother⟩ := hrouted
          cases hother
      | rejected status =>
          cases hanswer
          exact absurd hfull hrouted.2
      | auth k =>
          obtain ⟨call, hcall, hauth⟩ := hrouted
          cases hcall
          obtain ⟨outcome, houtcome, rfl⟩ := Option.map_eq_some_iff.mp hanswer
          obtain ⟨message, rfl⟩ := unauthorized_of_status hfull
          exact ⟨k, message, hauth, houtcome⟩
      | call k =>
          obtain ⟨accessToken, resource, user, hother, -⟩ := hrouted
          cases hother

/-! ## The stored token -/

/-- What a restore was told of a token: it is the one the restore has found, and the last of
its requests was answered with 401. -/
def ToldInvalid (thread : AppThread) (token : JsString) (s : AppState) : Prop :=
  thread.past.head?.map (·.1.storage) = some (some token) ∧
    ∃ n, (sentBy thread).getLast? = some n ∧ (App.replyTo n s).map (·.status) = some 401

/-- **Where the `catch` of a restore is about to remove the stored token, the Hub has refused
it.** -/
def CatchesRefusal (D : Deployment) : DeployAction → Prop
  | .resume i => ∀ call thread token, D.calls[i]? = some call → call.restores = true →
      D.app.threads[i]? = some thread → thread.program.effect? = App.removeItem.effect? →
      D.app.shared.storageFails = false → D.app.shared.storage = some token →
      ToldInvalid thread token D.app.shared
  | _ => True

/-- One step removes the stored token by a logout, or after the Hub has refused it. -/
theorem Sound.removes (hD : D.Sound sessionProtocol) {action : DeployAction} {token : JsString}
    (henabled : D.enabled action) (hcatches : D.CatchesRefusal action)
    (hstored : D.app.shared.storage = some token)
    (hremoved : (D.step env jwt compare action).app.shared.storage = none) :
    (∃ i active tokens, action = .resume i ∧ D.calls[i]? = some (.logout active tokens)) ∨
      D.HubRefused token := by
  -- whatever leaves the storage as it was is excluded
  have hkept : (D.step env jwt compare action).app.shared.storage = D.app.shared.storage →
      False := fun hsame => by
    rw [hsame, hstored] at hremoved
    cases hremoved
  cases action with
  | tap call => exact (hkept rfl).elim
  | storage fails => exact (hkept rfl).elim
  | receive n =>
      exact (hkept (congrArg (·.shared.storage) (receive_app (D := D) n).1)).elim
  | reject n status => exact (hkept rfl).elim
  | serve call => exact (hkept rfl).elim
  | serveAuth call => exact (hkept rfl).elim
  | hub k => exact (hkept rfl).elim
  | auth k => exact (hkept rfl).elim
  | deliver n whole =>
      refine (hkept ?_).elim
      change (D.deliver n whole).app.shared.storage = _
      unfold deliver
      split <;> rfl
  | resume i =>
      obtain ⟨-, a, update, a', thread, hthread, heffect, ⟨hcall, hphase⟩, hmove, hshared⟩ :=
        hD.node henabled
      have hafter : (D.step env jwt compare (.resume i)).app.shared = update D.app.shared := hshared
      rw [hafter] at hremoved hkept
      change SessionMove a update D.app.shared a' at hmove
      cases hmove with
      | ask _ hsame => exact (hkept hsame).elim
      | node hnode =>
          cases hnode with
          | send _ hsame _ => exact (hkept hsame).elim
          | quiet _ hsame => exact (hkept hsame).elim
          | save value _ hsaved =>
              rw [hsaved] at hremoved
              cases hremoved
          -- a call that ends the session is a logout
          | remove _ hends =>
              obtain ⟨active, tokens, rfl⟩ := AppCall.ends_iff.mp hends
              exact .inl ⟨i, active, tokens, rfl, hcall⟩
      | @giveUp call found update s hrestores hgiveUp =>
          -- where the storage fails nothing is removed
          have hworks : D.app.shared.storageFails = false := by
            cases hgiveUp
            by_contra hfails
            exact hkept (by dsimp only; rw [if_pos (Bool.eq_true_of_not_eq_false hfails)])
          obtain ⟨hfound, n, hlast, hstatus⟩ := hcatches call thread token hcall hrestores hthread
            (heffect.trans hgiveUp.symm) hworks hstored
          obtain ⟨hhead, hsent⟩ := hphase hrestores
          obtain ⟨value, rfl, hrequest⟩ := hsent n (List.mem_of_getLast? hlast)
          obtain rfl : value = token := Option.some.inj (Option.some.inj (hhead.symm.trans hfound))
          exact .inr (hD.linked.refused hrequest hstatus)

/-- **A good session is kept.**  In every run in which a restore gives its token up only when
the Hub has refused it, the stored token is removed by a logout only, or after the Hub has
answered that this very token is invalid. -/
theorem stored_token_kept {first : Deployment} {actions : List DeployAction}
    (hstart : first.Initial) (hruns : (deploymentMachine env jwt compare).Runs first actions)
    (hcatches : ∀ visit ∈ (deploymentMachine env jwt compare).visits first actions,
      visit.1.CatchesRefusal visit.2) :
    ∀ visit ∈ (deploymentMachine env jwt compare).visits first actions, ∀ token,
      visit.1.app.shared.storage = some token →
      (visit.1.step env jwt compare visit.2).app.shared.storage = none →
        (∃ i active tokens, visit.2 = .resume i ∧
          visit.1.calls[i]? = some (.logout active tokens)) ∨ visit.1.HubRefused token := by
  intro visit hvisit token hstored hremoved
  have hreach : (deploymentMachine env jwt compare).Reachable visit.1 :=
    (Machine.Reachable.of_start hstart).visits hruns hvisit
  exact (reachable_sound hreach).removes (hruns visit hvisit) (hcatches visit hvisit) hstored
    hremoved

/-- Nothing is asked of a step that keeps the token. -/
theorem catchesRefusal_of_kept {action : DeployAction}
    (h : (D.step env jwt compare action).app.shared.storage.isSome = true) :
    D.CatchesRefusal action := by
  cases action with
  | resume i =>
      intro call thread token _ _ hthread heffect hworks _
      have hupdate : (D.app.threads[i]?.bind fun thread => thread.program.effect?) =
          App.removeItem.effect? := by
        rw [hthread]
        exact heffect
      change (D.app.step i).shared.storage.isSome = true at h
      rw [Pool.step_shared_of_effect? hupdate] at h
      dsimp only at h
      rw [hworks] at h
      cases h
  | _ => exact trivial

/-- A deployment with a stored token, before the app has started. -/
def sample (token : JsString) : Deployment where
  app := ⟨⟨none, App.PRIMARY_API_BASE_URL, some token, false, []⟩, []⟩
  calls := []
  hub := ⟨Hub.sample, []⟩
  auth := ⟨AuthState.sample, []⟩
  authCalls := []
  hubCalls := []
  handled _ := none

/-- An app that is started with a token in its storage. -/
theorem sample_initial (token : JsString) : (sample token).Initial :=
  ⟨rfl, rfl, rfl, rfl, rfl, rfl, rfl, fun _ => rfl⟩

/-- **A token that the Hub does not know**: it is removed once the Hub has said so. -/
theorem stored_token_kept_refused :
    let machine := deploymentMachine Env.authSample JwtService.sample fun _ _ => false
    let front : List DeployAction := [.tap (.restoreSession App.PRIMARY_API_BASE_URL), .resume 0,
      .resume 0, .receive 0, .auth 0, .deliver 0 true, .resume 0]
    let D := machine.exec (sample (js "old")) front
    D.app.shared.storage = some (js "old") ∧
      (machine.step D (.resume 0)).app.shared.storage = none ∧
      D.HubRefused (js "old") := by
  intro machine front D
  have hstored : D.app.shared.storage = some (js "old") := by decide
  have hremoved : (machine.step D (.resume 0)).app.shared.storage = none := by decide
  have hcalls : (D.calls.all fun call => !call.ends) = true := by decide
  have hruns : machine.Runs (sample (js "old")) (front ++ [.resume 0]) := by decide
  have hfront : ∀ visit ∈ machine.visits (sample (js "old")) front,
      (machine.step visit.1 visit.2).app.shared.storage.isSome = true := by decide
  have htold : D.app.threads[0]?.map (fun thread => (thread.past.head?.map (·.1.storage),
      (sentBy thread).getLast?, (App.replyTo 0 D.app.shared).map (·.status))) =
        some (some (some (js "old")), some 0, some 401) := by decide
  have hvisits : machine.visits (sample (js "old")) (front ++ [.resume 0]) =
      machine.visits (sample (js "old")) front ++ [(D, .resume 0)] := Machine.visits_append ..
  clear_value D
  have hlast : D.CatchesRefusal (.resume 0) := by
    intro call thread token _ _ hthread _ _ htoken
    rw [hthread, Option.map_some, Option.some.injEq, Prod.mk.injEq, Prod.mk.injEq] at htold
    obtain rfl := Option.some.inj (hstored.symm.trans htoken)
    exact ⟨htold.1, 0, htold.2.1, htold.2.2⟩
  have hkept := stored_token_kept (sample_initial (js "old")) hruns (by
    rw [hvisits]
    exact List.forall_mem_append.mpr
      ⟨fun visit hvisit => catchesRefusal_of_kept (hfront visit hvisit),
        List.forall_mem_singleton.mpr hlast⟩) (D, .resume 0)
    (by rw [hvisits]; exact List.mem_append_right _ List.mem_cons_self) (js "old") hstored hremoved
  refine ⟨hstored, hremoved, hkept.resolve_left ?_⟩
  rintro ⟨i, active, tokens, -, hcall⟩
  have hother := List.all_eq_true.mp hcalls _ (List.mem_of_getElem? hcall)
  cases hother

/-- **A good session that is thrown away**: neither URL was reached when the app started. -/
theorem stored_token_lost :
    let machine := deploymentMachine Env.authSample JwtService.sample fun _ _ => false
    let front : List DeployAction := [.tap (.restoreSession App.PRIMARY_API_BASE_URL), .resume 0,
      .resume 0, .resume 0, .resume 0, .resume 0]
    let D := machine.exec (sample sampleToken) front
    machine.Runs (sample sampleToken) (front ++ [.resume 0]) ∧
      D.app.shared.storage = some sampleToken ∧
      (machine.step D (.resume 0)).app.shared.storage = none ∧
      ¬((∃ i active tokens, DeployAction.resume 0 = .resume i ∧
        D.calls[i]? = some (.logout active tokens)) ∨ D.HubRefused sampleToken) := by
  intro machine front D
  refine ⟨by decide, by decide, by decide, ?_⟩
  rintro (⟨i, active, tokens, hi, hcall⟩ | ⟨k, message, hcall, -⟩)
  · cases hi
    cases hcall
  · cases hcall

end Deployment

end CodeCaller
