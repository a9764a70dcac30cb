import CodeCaller.App.Exchange

/-!
# One tap, and what it does

`fetchHub` sends a request to one URL after the other until a reply arrives.  What was sent before
may still be handled, so one call makes the Hub process its request up to once for each URL;
`request` does it all again when the first reply was 401, which is a refusal.

### The pieces

* `Round`, `RoundMove`: one round over the URLs, as a protocol of its own with the request as a
  parameter; `fetchFrom_follows` embeds it in the protocol of a call.
* `RetryPhase`, `RetryMove`: a first round, a refresh of the session after a refusal, a second
  round.
* `Tried`: what is known of a round with some URLs left.  Each of the others was tried once, in
  their order, and those before the last were given up: the call was resumed without a reply.
* `AppCall.retries`: every call of the app follows the protocol.

What the Hub makes of a request that was given up is not known to the app.  That is the whole of
the difficulty: the retry on the other URL may find the first one handled.
-/

namespace CodeCaller

open Async

/-! ## Rounds of `fetchHub` -/

/-- How far the loop over the URLs is: about to try these, waiting for the reply to the request
it sent last, or left with the reply to one. -/
inductive Round where
  | idle (urls : List JsString)
  | waiting (n : ℕ) (urls : List JsString)
  | settled (n : ℕ)

/-- **What one node of the loop does.** -/
inductive RoundMove (request : AppRequest) : Round → AppState → AppState → Round → Prop
  | send {url : JsString} {urls : List JsString} {s s' : AppState}
      (hsent : s'.attempts = s.attempts ++ [⟨url, request, none⟩]) :
      RoundMove request (.idle (url :: urls)) s s' (.waiting s.attempts.length urls)
  | giveUp {n : ℕ} {urls : List JsString} {s s' : AppState} (hsent : s'.attempts = s.attempts)
      (hnone : App.replyTo n s = none) : RoundMove request (.waiting n urls) s s' (.idle urls)
  | answer {n : ℕ} {urls : List JsString} {s s' : AppState} (hsent : s'.attempts = s.attempts) :
      RoundMove request (.waiting n urls) s s' (.settled n)
  | settle {n : ℕ} {s s' : AppState} (hsent : s'.attempts = s.attempts) :
      RoundMove request (.settled n) s s' (.settled n)

/-- A move of a round sends its request or nothing. -/
theorem RoundMove.sends {request : AppRequest} {r r' : Round} {s s' : AppState}
    (h : RoundMove request r s s' r') : Sends request s s' := by
  cases h with
  | send hsent => exact .inr ⟨_, hsent⟩
  | giveUp hsent _ => exact .inl hsent
  | answer hsent => exact .inl hsent
  | settle hsent => exact .inl hsent

section Loop

open App

variable {A : Type} {move : A → AppState → AppState → A → Prop} {embed : Round → A}
  {request : AppRequest} {active : JsString}
  {post : A → AppState → Except AppError HttpReply → Prop}

/-- One turn of the loop, from a phase in which the request may be sent. -/
theorem fetchFrom_cons {a : A} {url : JsString} {urls : List JsString}
    {lastError : Option AppError} {s : AppState}
    (hsend : ∀ s₁ s₂, Carried s s₁ → s₂.attempts = s₁.attempts ++ [⟨url, request, none⟩] →
      move a s₁ s₂ (embed (.waiting s₁.attempts.length urls)))
    (hmove : ∀ r s s' r', RoundMove request r s s' r' → move (embed r) s s' (embed r'))
    (hreply : ∀ n s reply, replyTo n s = some reply → post (embed (.settled n)) s (.ok reply))
    (hrest : ∀ err s, (fetchFrom active request (some err) urls).Follows Carried (Proc.moves move)
      post (embed (.idle urls)) s) :
    (fetchFrom active request lastError (url :: urls)).Follows Carried
      (Proc.moves move) post a s := by
  refine .tryCatch Carried.refl (.bind Carried.refl (.bind Carried.refl
    (Proc.follows_take fun s₁ hs₁ => ⟨_, hsend s₁ _ hs₁ rfl, fun s₂ _ => ?_⟩)))
  refine Proc.follows_atomically fun s₃ _ => ?_
  cases hanswer : replyTo s₁.attempts.length s₃ with
  | none => exact ⟨_, hmove _ _ _ _ (.giveUp (by dsimp only; rw [hanswer]) hanswer),
    fun s₄ _ => hrest _ s₄⟩
  | some reply =>
      refine ⟨_, hmove _ _ _ _ (.answer (by dsimp only; rw [hanswer])), fun s₄ hs₄ => ?_⟩
      dsimp only
      have hpost : ∀ s₅, Carried s₃ s₅ →
        post (embed (.settled s₁.attempts.length)) s₅ (.ok reply) :=
        fun s₅ hs₅ => hreply _ _ _ (hs₅.replyTo hanswer)
      refine .ite (fun _ => .bind Carried.refl (Proc.follows_modify fun s₅ hs₅ =>
        ⟨_, hmove _ _ _ _ (.settle rfl), fun s₆ hs₆ => ?_⟩)) fun _ => ?_
      · have hactive : Sends request s₅ { s₅ with activeApiBaseUrl := url } := .inl rfl
        exact fun s₇ hs₇ => hpost s₇ ((hs₄.trans hs₅).trans (hactive.carried.trans (hs₆.trans hs₇)))
      · exact fun s₅ hs₅ => hpost s₅ (hs₄.trans hs₅)

/-- `fetchFrom` as a part of a longer protocol, by induction on the URLs: the round has tried the
URLs before, each once, and none of them has answered. -/
theorem fetchFrom_follows
    (hmove : ∀ r s s' r', RoundMove request r s s' r' → move (embed r) s s' (embed r'))
    (hreply : ∀ n s reply, replyTo n s = some reply → post (embed (.settled n)) s (.ok reply))
    (herror : ∀ s err, post (embed (.idle [])) s (.error err)) :
    ∀ (urls : List JsString) (lastError : Option AppError) (s : AppState),
      (fetchFrom active request lastError urls).Follows Carried (Proc.moves move) post
        (embed (.idle urls)) s
  | [], _, _ => fun s' _ => herror s' _
  | _ :: urls, _, _ => fetchFrom_cons (fun _ _ _ hsent => hmove _ _ _ _ (.send hsent)) hmove hreply
      fun err s => fetchFrom_follows hmove hreply herror urls (some err) s

end Loop

/-! ## The calls -/

/-- Whether a request is the one a call makes, whatever the token it carries. -/
def AppCall.Posts : AppCall → AppRequest → Prop
  | fetchHub _ posted, sent => sent = posted
  | request _ _ resource, sent => ∃ accessToken, sent = .authorized accessToken resource
  | createTask _ _ selectedServerId workerType prompt, sent =>
    ∃ accessToken serverId, selectedServerId = some serverId ∧
      sent = .authorized accessToken (.createTask ⟨serverId, workerType,
        .object [(js "prompt", .string (JsString.trim prompt))]⟩)
  | _, _ => False

/-- Whether a call makes a request of its own. -/
def AppCall.posts : AppCall → Bool
  | fetchHub _ _ | request _ _ _ | createTask _ _ _ _ _ => true
  | _ => false

/-- Whether a call refreshes the session and tries again. -/
def AppCall.renews : AppCall → Bool
  | request _ _ _ | createTask _ _ _ _ _ => true
  | _ => false

/-- How far a call is with its request. -/
inductive RetryPhase where
  | first (round : Round)
  /-- The request with this number was refused, and the session refreshed. -/
  | second (refused : ℕ) (round : Round)
  | other

/-- Where a call begins: the ones that send nothing with the session have no round to make. -/
def AppCall.retryPhase (call : AppCall) : RetryPhase :=
  if call.posts then .first (.idle (App.orderedUrls call.active)) else .other

/-- **The protocol of a request**: a round over the URLs; after a refusal the session is
refreshed, and there is a second round. -/
inductive RetryMove : AppCall × RetryPhase → AppState → AppState → AppCall × RetryPhase → Prop
  | first {call : AppCall} {request : AppRequest} {r r' : Round} {s s' : AppState}
      (hposts : call.Posts request) (hround : RoundMove request r s s' r') :
      RetryMove (call, .first r) s s' (call, .first r')
  | renew {call : AppCall} {n : ℕ} {s s' : AppState} (refreshToken : JsString)
      (hrenews : call.renews = true) (hrefresh : Sends (.auth (.refresh refreshToken)) s s') :
      RetryMove (call, .first (.settled n)) s s' (call, .first (.settled n))
  | again {call : AppCall} {request : AppRequest} {n : ℕ} {r : Round} {s s' : AppState}
      (hposts : call.Posts request) (hrenews : call.renews = true)
      (hrefused : (App.replyTo n s).map (·.status) = some 401)
      (hround : RoundMove request (.idle (App.orderedUrls call.active)) s s' r) :
      RetryMove (call, .first (.settled n)) s s' (call, .second n r)
  | second {call : AppCall} {request : AppRequest} {n : ℕ} {r r' : Round} {s s' : AppState}
      (hposts : call.Posts request) (hround : RoundMove request r s s' r') :
      RetryMove (call, .second n r) s s' (call, .second n r')
  | other {call : AppCall} {request : AppRequest} {s s' : AppState} (hsends : Sends request s s') :
      RetryMove (call, .other) s s' (call, .other)

/-- A node of a call sends one request or none. -/
theorem RetryMove.sends {a a' : AppCall × RetryPhase} {s s' : AppState}
    (h : RetryMove a s s' a') : ∃ request, Sends request s s' := by
  cases h with
  | first _ hround => exact ⟨_, hround.sends⟩
  | renew refreshToken _ hrefresh => exact ⟨_, hrefresh⟩
  | again _ _ _ hround => exact ⟨_, hround.sends⟩
  | second _ hround => exact ⟨_, hround.sends⟩
  | other hsends => exact ⟨_, hsends⟩

section Calls

open App

variable {call : AppCall} {active refreshToken : JsString}

/-- A program of the app that follows the protocol of the retries. -/
abbrev RetryFollows {α : Type} (p : AppM α) (post : AppCall × RetryPhase → AppState →
    Except AppError α → Prop) (call : AppCall) (phase : RetryPhase) (s : AppState) : Prop :=
  p.Follows Carried (Proc.moves RetryMove) post (call, phase) s

/-- The refresh of a session sends nothing but the request to refresh it. -/
theorem refreshSession_sends : (refreshSession active refreshToken).Guarantees
    (Sends (.auth (.refresh refreshToken))) := by
  have hnodes : (refreshSession active refreshToken).Guarantees
      (SessionNode (.restoreSession active) (some refreshToken)) :=
    refreshSession_stays fun _ => ⟨refreshToken, rfl, rfl⟩
  refine hnodes.mono fun s s' hnode => ?_
  cases hnode with
  | send hsends _ hmay =>
      obtain ⟨value, hvalue, rfl⟩ := hmay rfl
      cases hvalue
      exact hsends
  | quiet hsent _ => exact .inl hsent
  | save value hsent _ => exact .inl hsent
  | remove hsent _ => exact .inl hsent

/-- What `request` goes on with after the refresh. -/
theorem again_follows {resource : Resource} {n : ℕ} {rest : HttpReply → AppM HttpReply}
    (hrenews : call.renews = true)
    (hposts : ∀ accessToken, call.Posts (.authorized accessToken resource))
    (hrest : ∀ response a s, (rest response).Follows Carried (Proc.moves RetryMove)
      (fun _ _ _ => True) a s) (accessToken : JsString) (s : AppState)
    (hrefused : ∀ s', Carried s s' → (replyTo n s').map (·.status) = some 401) :
    RetryFollows (fetchHub call.active (.authorized accessToken resource) >>= rest)
      (fun _ _ _ => True) call (.first (.settled n)) s := by
  have hsecond : ∀ r s s' r', RoundMove (.authorized accessToken resource) r s s' r' →
      RetryMove (call, .second n r) s s' (call, .second n r') :=
    fun _ _ _ _ hround => .second (hposts _) hround
  refine .bind Carried.refl (fetchFrom_cons (fun s₁ s₂ hs₁ hsent => ?_) hsecond
    (fun _ _ response _ => hrest response _ _)
    fun err s₁ => fetchFrom_follows hsecond (fun _ _ response _ => hrest response _ _)
      (fun _ _ => trivial) _ (some err) s₁)
  exact .again (hposts _) hrenews (hrefused s₁ hs₁) (.send hsent)

/-- **`request` follows the protocol.** -/
theorem request_follows {tokens : Option AuthTokens} {resource : Resource}
    (hrenews : call.renews = true)
    (hposts : ∀ accessToken, call.Posts (.authorized accessToken resource)) (s : AppState) :
    RetryFollows (App.request call.active tokens resource) (fun _ _ _ => True) call
      (.first (.idle (orderedUrls call.active))) s := by
  cases tokens with
  | none => exact fun _ _ => trivial
  | some pair =>
      have hfirst : ∀ r s s' r', RoundMove (.authorized pair.accessToken resource) r s s' r' →
          RetryMove (call, .first r) s s' (call, .first r') :=
        fun _ _ _ _ hround => .first (hposts _) hround
      have hrest : ∀ response (a : AppCall × RetryPhase) s, (App.checked response).Follows Carried
          (Proc.moves RetryMove) (fun _ _ _ => True) a s := by
        intro response a s
        unfold App.checked
        refine .ite (fun _ => .bind Carried.refl fun _ _ => trivial) fun _ => ?_
        dsimp only
        split
        · exact fun _ _ => trivial
        · exact fun _ _ => trivial
      refine .bind Carried.refl (fetchFrom_follows hfirst (fun n s₁ response hresponse => ?_)
        (fun _ _ => trivial) _ none s)
      refine .ite (fun hstatus => ?_) fun _ => hrest response _ s₁
      have hrefused : ∀ s', Carried s₁ s' → (replyTo n s').map (·.status) = some 401 :=
        fun s' hs' => by rw [hs'.replyTo hresponse, Option.map_some, hstatus]
      refine .bind Carried.refl (refreshSession_sends.follows @Carried.trans
        (fun _ hsends s => ⟨.renew pair.refreshToken hrenews (hsends s), (hsends s).carried⟩)
        fun s₂ outcome hs₂ => ?_)
      cases outcome with
      | error error => trivial
      | ok refreshed =>
          exact again_follows hrenews hposts hrest refreshed.accessToken s₂ fun s' hs' =>
            hrefused s' (hs₂.trans hs')

/-- **Every call follows the protocol.** -/
theorem AppCall.retries (call : AppCall) (s : AppState) :
    RetryFollows call.program (fun _ _ _ => True) call call.retryPhase s := by
  have hother : RetryFollows call.program (fun _ _ _ => True) call .other s := by
    refine (call.follows s).weaken fun a update s a' hmove => ?_
    obtain ⟨request, hsends⟩ := hmove.sends
    exact .other hsends
  cases call with
  | restoreSession active => exact hother
  | login active email password => exact hother
  | logout active tokens => exact hother
  | fetchHub active request =>
      have hfirst : ∀ r s s' r', RoundMove request r s s' r' →
          RetryMove (.fetchHub active request, .first r) s s'
            (.fetchHub active request, .first r') :=
        fun r s s' r' hround => by
          have hposts : (AppCall.fetchHub active request).Posts request := rfl
          exact .first hposts hround
      exact .bind Carried.refl (fetchFrom_follows hfirst (fun _ _ _ _ _ _ => trivial)
        (fun _ _ => trivial) _ none s)
  | request active tokens resource =>
      have hrequest := @request_follows (.request active tokens resource) tokens resource rfl
        (fun accessToken => ⟨accessToken, rfl⟩) s
      refine .bind Carried.refl (hrequest.mono fun a s outcome _ => ?_)
      cases outcome with
      | ok response => exact fun _ _ => trivial
      | error error => trivial
  | createTask active tokens selectedServerId workerType prompt =>
      change RetryFollows (App.createTask active tokens selectedServerId workerType prompt) _ _ _ s
      unfold App.createTask
      split
      · exact fun _ _ => trivial
      · exact fun _ _ => trivial
      · next serverId _ =>
        have hrequest := @request_follows
          (.createTask active tokens (some serverId) workerType prompt) tokens
          (.createTask ⟨serverId, workerType,
            .object [(js "prompt", .string (JsString.trim prompt))]⟩) rfl
          (fun accessToken => ⟨accessToken, serverId, rfl, rfl⟩) s
        refine .tryCatch Carried.refl (.bind Carried.refl (hrequest.mono fun a s outcome _ => ?_))
        cases outcome with
        | ok response => exact fun _ _ => trivial
        | error error => exact fun _ _ => trivial

end Calls

/-! ## What is known of a round -/

/-- The URL a request was sent to. -/
def urlOf (s : AppState) (n : ℕ) : Option JsString := s.attempts[n]?.map (·.baseUrl)

/-- **A request was given up** before the request `bound` was sent: the call was resumed
without a reply to it. -/
def GivenUp (past : List (AppState × AppState)) (n bound : ℕ) : Prop :=
  ∃ node ∈ past, n < node.1.attempts.length ∧ node.1.attempts.length ≤ bound ∧
    App.replyTo n node.1 = none

/-- **A round, with these URLs left**: each of the others was tried once, in their order, with
the request of the call, and the ones before it were given up. -/
structure Tried (call : AppCall) (ns : List ℕ) (past : List (AppState × AppState)) (s : AppState)
    (rest : List JsString) : Prop where
  urls : ns.map (urlOf s) ++ rest.map some = (App.orderedUrls call.active).map some
  posts : ∀ n ∈ ns, ∃ request, s.attempts[n]?.map (·.request) = some request ∧ call.Posts request
  givenUp : ns.Pairwise (GivenUp past)

/-- What is known where a round is. -/
def Round.Known (call : AppCall) (ns : List ℕ) (past : List (AppState × AppState)) (s : AppState) :
    Round → Prop
  | idle rest => Tried call ns past s rest ∧ ∀ n ∈ ns, GivenUp past n s.attempts.length
  | waiting m rest => Tried call ns past s rest ∧ m ∈ ns ∧
      ∀ n ∈ ns, n = m ∨ GivenUp past n s.attempts.length
  | settled m => (∃ rest, Tried call ns past s rest) ∧ m ∈ ns

/-- No attempt is taken back. -/
theorem Carried.length {s s' : AppState} (h : Carried s s') :
    s.attempts.length ≤ s'.attempts.length := by
  by_contra hlt
  rw [Nat.not_le] at hlt
  obtain ⟨reply, hafter, -⟩ := h s'.attempts.length _ (List.getElem?_eq_getElem hlt)
  rw [List.getElem?_eq_none (Nat.le_refl _)] at hafter
  cases hafter

/-- Nor is its URL changed. -/
theorem Carried.urlOf {s s' : AppState} (h : Carried s s') {n : ℕ} {url : JsString}
    (hurl : urlOf s n = some url) : CodeCaller.urlOf s' n = some url := by
  unfold CodeCaller.urlOf at hurl ⊢
  obtain ⟨attempt, hattempt, rfl⟩ := Option.map_eq_some_iff.mp hurl
  obtain ⟨reply, hafter, -⟩ := h n attempt hattempt
  rw [hafter, Option.map_some]

section Known

variable {call : AppCall} {ns : List ℕ} {past past' : List (AppState × AppState)}
  {s s' : AppState} {rest : List JsString}

/-- What was given up stays so. -/
theorem GivenUp.later {n bound bound' : ℕ} (h : GivenUp past n bound) (hpast : past ⊆ past')
    (hle : bound ≤ bound') : GivenUp past' n bound' := by
  obtain ⟨node, hnode, hsent, hbound, hnone⟩ := h
  exact ⟨node, hpast hnode, hsent, hbound.trans hle, hnone⟩

/-- What was tried was sent before. -/
theorem Tried.lt (h : Tried call ns past s rest) {n : ℕ} (hn : n ∈ ns) :
    n < s.attempts.length := by
  obtain ⟨request, hrequest, -⟩ := h.posts n hn
  obtain ⟨attempt, hattempt, -⟩ := Option.map_eq_some_iff.mp hrequest
  exact (List.getElem?_eq_some_iff.mp hattempt).1

/-- The URLs of what was sent stay. -/
theorem Tried.urlOf_later (h : Tried call ns past s rest) (hcarried : Carried s s') :
    ns.map (urlOf s') = ns.map (urlOf s) := by
  refine List.map_congr_left fun n hn => ?_
  obtain ⟨request, hrequest, -⟩ := h.posts n hn
  obtain ⟨attempt, hattempt, -⟩ := Option.map_eq_some_iff.mp hrequest
  have hurl : urlOf s n = some attempt.baseUrl := congrArg (Option.map _) hattempt
  rw [hurl, hcarried.urlOf hurl]

/-- What is known of a round survives what the others do. -/
theorem Tried.later (h : Tried call ns past s rest) (hcarried : Carried s s')
    (hpast : past ⊆ past') : Tried call ns past' s' rest := by
  refine ⟨?_, fun n hn => ?_, h.givenUp.imp fun hgiven => hgiven.later hpast (Nat.le_refl _)⟩
  · rw [h.urlOf_later hcarried]
    exact h.urls
  · obtain ⟨request, hrequest, hposts⟩ := h.posts n hn
    exact ⟨request, hcarried.request hrequest, hposts⟩

/-- What is known of a round stays known, when others move and when more is sent. -/
theorem Round.Known.later {r : Round} (h : r.Known call ns past s) (hcarried : Carried s s')
    (hpast : past ⊆ past') : r.Known call ns past' s' := by
  cases r with
  | idle rest =>
      exact ⟨h.1.later hcarried hpast, fun n hn => (h.2 n hn).later hpast hcarried.length⟩
  | waiting m rest =>
      exact ⟨h.1.later hcarried hpast, h.2.1, fun n hn =>
        (h.2.2 n hn).imp_right fun hgiven => hgiven.later hpast hcarried.length⟩
  | settled m =>
      obtain ⟨⟨rest, htried⟩, hm⟩ := h
      exact ⟨⟨rest, htried.later hcarried hpast⟩, hm⟩

/-- In each of its phases a round knows what it has tried. -/
theorem Round.Known.tried {r : Round} (h : r.Known call ns past s) :
    ∃ rest, Tried call ns past s rest := by
  cases r with
  | idle rest => exact ⟨rest, h.1⟩
  | waiting m rest => exact ⟨rest, h.1⟩
  | settled m => exact h.1

/-- The request for one more URL. -/
theorem Tried.send {url : JsString} {request : AppRequest}
    (h : Tried call ns past s (url :: rest)) (hposts : call.Posts request)
    (hgiven : ∀ n ∈ ns, GivenUp past n s.attempts.length)
    (hsent : s'.attempts = s.attempts ++ [⟨url, request, none⟩]) (hpast : past ⊆ past') :
    Tried call (ns ++ [s.attempts.length]) past' s' rest := by
  have hcarried : Carried s s' := carried_of_sent hsent
  have hlater := h.later hcarried hpast
  have hnew : s'.attempts[s.attempts.length]? = some ⟨url, request, none⟩ := by
    rw [hsent, List.getElem?_concat_length]
  refine ⟨?_, fun n hn => ?_, ?_⟩
  · rw [← hlater.urls, List.map_append, List.append_assoc]
    refine congrArg _ ?_
    change [urlOf s' s.attempts.length] ++ rest.map some = some url :: rest.map some
    unfold urlOf
    rw [hnew]
    rfl
  · rcases List.mem_append.mp hn with hold | hlast
    · exact hlater.posts n hold
    · rw [List.mem_singleton.mp hlast, hnew]
      exact ⟨request, rfl, hposts⟩
  · refine List.pairwise_append.mpr ⟨hlater.givenUp, List.pairwise_singleton _ _, ?_⟩
    intro n hn m hm
    rw [List.mem_singleton.mp hm]
    exact (hgiven n hn).later hpast (Nat.le_refl _)

/-- **What is known after one node of a round**, with what the node has sent. -/
theorem RoundMove.known {request : AppRequest} {r r' : Round} (hposts : call.Posts request)
    (hmove : RoundMove request r s s' r') (hknown : r.Known call ns past s) :
    ∃ new, (∀ program program',
      sentBy ⟨program', past ++ [(s, s')]⟩ = sentBy ⟨program, past⟩ ++ new) ∧
      r'.Known call (ns ++ new) (past ++ [(s, s')]) s' := by
  have hpast : past ⊆ past ++ [(s, s')] := List.subset_append_left _ _
  have hcarried : Carried s s' := hmove.sends.carried
  have hquiet : s'.attempts = s.attempts → ∀ program program',
      sentBy ⟨program', past ++ [(s, s')]⟩ = sentBy ⟨program, past⟩ ++ [] := fun hsent _ _ => by
    rw [List.append_nil]
    exact sent_quiet _ _ hsent
  cases hmove with
  | @send url rest _ _ hsent =>
      refine ⟨[s.attempts.length], fun _ _ => sent_append _ _ hsent, ?_⟩
      refine ⟨hknown.1.send hposts hknown.2 hsent hpast, List.mem_append_right _ List.mem_cons_self,
        fun n hn => ?_⟩
      rcases List.mem_append.mp hn with hold | hlast
      · exact .inr ((hknown.2 n hold).later hpast hcarried.length)
      · exact .inl (List.mem_singleton.mp hlast)
  | @giveUp m rest _ _ hsent hnone =>
      refine ⟨[], hquiet hsent, ?_⟩
      rw [List.append_nil]
      refine ⟨hknown.1.later hcarried hpast, fun n hn => ?_⟩
      rcases hknown.2.2 n hn with rfl | hgiven
      · exact ⟨(s, s'), List.mem_append_right _ List.mem_cons_self, hknown.1.lt hn, hcarried.length,
          hnone⟩
      · exact hgiven.later hpast hcarried.length
  | answer hsent =>
      refine ⟨[], hquiet hsent, ?_⟩
      rw [List.append_nil]
      exact ⟨⟨_, hknown.1.later hcarried hpast⟩, hknown.2.1⟩
  | settle hsent =>
      refine ⟨[], hquiet hsent, ?_⟩
      rw [List.append_nil]
      exact hknown.later hcarried hpast

end Known

/-! ## What is known of a call -/

/-- The requests to refresh the session, between the rounds. -/
def Renewals (call : AppCall) (ns : List ℕ) (s : AppState) : Prop :=
  (call.renews = false → ns = []) ∧
    ∀ n ∈ ns, ∃ token, s.attempts[n]?.map (·.request) = some (.auth (.refresh token))

/-- **What is known of a call in a phase**: which of its requests belong to which round. -/
def RetryPhase.Known (call : AppCall) (thread : AppThread) (s : AppState) : RetryPhase → Prop
  | first r => ∃ ns renewals, sentBy thread = ns ++ renewals ∧ r.Known call ns thread.past s ∧
      Renewals call renewals s ∧ (renewals = [] ∨ ∃ n, r = .settled n)
  | second n r => call.renews = true ∧ ∃ ns renewals ms, sentBy thread = ns ++ renewals ++ ms ∧
      (Round.settled n).Known call ns thread.past s ∧ Renewals call renewals s ∧
      (App.replyTo n s).map (·.status) = some 401 ∧ r.Known call ms thread.past s
  | other => call.posts = false

section Retry

variable {call : AppCall} {thread : AppThread} {s s' : AppState}

/-- A refusal stays a refusal. -/
theorem Renewals.later {ns : List ℕ} (h : Renewals call ns s) (hcarried : Carried s s') :
    Renewals call ns s' := by
  refine ⟨h.1, fun n hn => ?_⟩
  obtain ⟨token, hrequest⟩ := h.2 n hn
  exact ⟨token, hcarried.request hrequest⟩

/-- The answer of an attempt does not change. -/
theorem Carried.status {n status : ℕ} (hcarried : Carried s s')
    (h : (App.replyTo n s).map (·.status) = some status) :
    (App.replyTo n s').map (·.status) = some status := by
  obtain ⟨reply, hreply, rfl⟩ := Option.map_eq_some_iff.mp h
  rw [hcarried.replyTo hreply, Option.map_some]

/-- What is known of a call stays known when another one moves. -/
theorem RetryPhase.Known.carried {phase : RetryPhase} (h : phase.Known call thread s)
    (hcarried : Carried s s') : phase.Known call thread s' := by
  cases phase with
  | first r =>
      obtain ⟨ns, renewals, hsent, hround, hrenewals, hlast⟩ := h
      exact ⟨ns, renewals, hsent, hround.later hcarried (List.Subset.refl _),
        hrenewals.later hcarried, hlast⟩
  | second n r =>
      obtain ⟨hrenews, ns, renewals, ms, hsent, hfirst, hrenewals, hstatus, hround⟩ := h
      exact ⟨hrenews, ns, renewals, ms, hsent, hfirst.later hcarried (List.Subset.refl _),
        hrenewals.later hcarried, hcarried.status hstatus,
        hround.later hcarried (List.Subset.refl _)⟩
  | other => exact h

/-- A round that has not begun. -/
theorem Round.known_start (call : AppCall) (past : List (AppState × AppState)) (s : AppState) :
    (Round.idle (App.orderedUrls call.active)).Known call [] past s :=
  ⟨⟨rfl, nofun, .nil⟩, nofun⟩

/-- What a node adds to the attempts of its call are attempts of its request. -/
theorem Sends.sentBy {request : AppRequest} {past : List (AppState × AppState)}
    (h : Sends request s s') : ∃ new, (∀ program program',
      CodeCaller.sentBy ⟨program', past ++ [(s, s')]⟩ = CodeCaller.sentBy ⟨program, past⟩ ++ new) ∧
        ∀ n ∈ new, s'.attempts[n]?.map (·.request) = some request := by
  rcases h with hsent | ⟨baseUrl, hsent⟩
  · refine ⟨[], fun _ _ => ?_, nofun⟩
    rw [List.append_nil]
    exact sent_quiet _ _ hsent
  · refine ⟨[s.attempts.length], fun _ _ => sent_append _ _ hsent, fun n hn => ?_⟩
    rw [List.mem_singleton.mp hn, hsent, List.getElem?_concat_length, Option.map_some]

/-- **One move**, by its kind: what is known of the phase before gives what is to be known of the
phase after. -/
theorem RetryMove.known {a a' : AppCall × RetryPhase} {update : AppState → AppState}
    (program : AppM Unit) (hknown : a.2.Known a.1 thread s)
    (hmove : RetryMove a s (update s) a') :
    a'.1 = a.1 ∧ a'.2.Known a'.1 ⟨program, thread.past ++ [(s, update s)]⟩ (update s) := by
  have hpast : thread.past ⊆ thread.past ++ [(s, update s)] := List.subset_append_left _ _
  have hcarried : Carried s (update s) := hmove.sends.elim fun _ hsends => hsends.carried
  cases hmove with
  | first hposts hround =>
      obtain ⟨ns, renewals, hsent, hknown, hrenewals, rfl | ⟨n, rfl⟩⟩ := hknown
      · obtain ⟨new, hnew, hafter⟩ := hround.known hposts hknown
        refine ⟨rfl, ns ++ new, [], ?_, hafter, hrenewals.later hcarried, .inl rfl⟩
        rw [hnew thread.program program, hsent, List.append_nil, List.append_nil]
      · cases hround with
        | settle hquiet =>
            refine ⟨rfl, ns, renewals, ?_, hknown.later hcarried hpast, hrenewals.later hcarried,
              .inr ⟨n, rfl⟩⟩
            exact (sent_quiet thread.program program hquiet).trans hsent
  | renew refreshToken hrenews hrefresh =>
      obtain ⟨ns, renewals, hsent, hknown, hrenewals, -⟩ := hknown
      obtain ⟨new, hnew, hrequests⟩ := hrefresh.sentBy
      refine ⟨rfl, ns, renewals ++ new, ?_, hknown.later hcarried hpast, ?_, .inr ⟨_, rfl⟩⟩
      · rw [hnew thread.program program, hsent, List.append_assoc]
      · refine ⟨fun hnot => absurd (hnot.symm.trans hrenews) (by decide), fun n hn => ?_⟩
        rcases List.mem_append.mp hn with hold | hlast
        · exact (hrenewals.later hcarried).2 n hold
        · exact ⟨refreshToken, hrequests n hlast⟩
  | again hposts hrenews hrefused hround =>
      obtain ⟨ns, renewals, hsent, hknown, hrenewals, -⟩ := hknown
      obtain ⟨new, hnew, hafter⟩ := hround.known hposts (Round.known_start _ thread.past s)
      refine ⟨rfl, hrenews, ns, renewals, new, ?_, hknown.later hcarried hpast,
        hrenewals.later hcarried, hcarried.status hrefused, hafter⟩
      rw [hnew thread.program program, hsent]
  | second hposts hround =>
      obtain ⟨hrenews, ns, renewals, ms, hsent, hfirst, hrenewals, hstatus, hknown⟩ := hknown
      obtain ⟨new, hnew, hafter⟩ := hround.known hposts hknown
      refine ⟨rfl, hrenews, ns, renewals, ms ++ new, ?_, hfirst.later hcarried hpast,
        hrenewals.later hcarried, hcarried.status hstatus, hafter⟩
      rw [hnew thread.program program, hsent, List.append_assoc]
  | other hsends => exact ⟨rfl, hknown⟩

end Retry

/-- At the beginning nothing is known, and nothing has to be. -/
theorem AppCall.known_retryPhase (call : AppCall) (s : AppState) :
    call.retryPhase.Known call ⟨call.program, []⟩ s := by
  unfold AppCall.retryPhase
  split
  · exact ⟨[], [], rfl, Round.known_start _ _ _, ⟨fun _ => rfl, nofun⟩, .inl rfl⟩
  · next hnot => exact Bool.eq_false_of_not_eq_true hnot

/-- **The protocol of what is sent.** -/
def retryProtocol : AppProtocol RetryPhase where
  start := AppCall.retryPhase
  Move := Proc.moves RetryMove
  Known call phase thread s := phase.Known call thread s
  follows := AppCall.retries
  sends := RetryMove.sends
  known_start := AppCall.known_retryPhase
  known_carried := RetryPhase.Known.carried
  known_move := RetryMove.known

end CodeCaller
