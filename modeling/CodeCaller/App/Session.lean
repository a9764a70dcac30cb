import CodeCaller.App.Deployment

/-!
# The calls of the app, node by node

What one node of a call of the app can do: look for the stored token, send a request, write the
stored token or remove it.  Only `restoreSession` and `logout` remove it, and a restore sends
nothing but requests to refresh the token it found.

`Carried` is what the calls rely on from each other: what was sent stays, and a reply stays.  It is
kept by every node, so what a call knows of its requests it knows for good.  `sentBy` reads the
requests of a call off its past, as the nodes at which one was added.
-/

namespace CodeCaller

open Async

/-! ## What is sent -/

/-- A call of the app under way. -/
abbrev AppThread := Thread AppState AppError Unit

/-- **What the calls of the app rely on**: what was sent stays, and a reply stays. -/
def Carried (s s' : AppState) : Prop :=
  ∀ (n : ℕ) (attempt : Attempt), s.attempts[n]? = some attempt →
    ∃ reply, s'.attempts[n]? = some { attempt with reply } ∧
      ∀ arrived, attempt.reply = some arrived → reply = some arrived

/-- One node sends a request, or nothing. -/
def Sends (request : AppRequest) (s s' : AppState) : Prop :=
  s'.attempts = s.attempts ∨ ∃ baseUrl, s'.attempts = s.attempts ++ [⟨baseUrl, request, none⟩]

theorem Carried.refl (s : AppState) : Carried s s :=
  fun _ attempt h => ⟨attempt.reply, h, fun _ harrived => harrived⟩

/-- What is carried over each part of a run is carried over the whole. -/
theorem Carried.trans {a b c : AppState} (hab : Carried a b) (hbc : Carried b c) :
    Carried a c := by
  intro n attempt hattempt
  obtain ⟨reply, hmid, hkept⟩ := hab n attempt hattempt
  obtain ⟨reply', hlast, hkept'⟩ := hbc n _ hmid
  exact ⟨reply', hlast, fun arrived harrived => hkept' arrived (hkept arrived harrived)⟩

/-- A request that was sent is the one that was sent. -/
theorem Carried.request {s s' : AppState} (h : Carried s s') {n : ℕ} {request : AppRequest}
    (hrequest : s.attempts[n]?.map (·.request) = some request) :
    s'.attempts[n]?.map (·.request) = some request := by
  obtain ⟨attempt, hattempt, rfl⟩ := Option.map_eq_some_iff.mp hrequest
  obtain ⟨reply, hafter, -⟩ := h n attempt hattempt
  rw [hafter, Option.map_some]

/-- A reply that has arrived has arrived. -/
theorem Carried.replyTo {s s' : AppState} (h : Carried s s') {n : ℕ} {reply : HttpReply}
    (hreply : App.replyTo n s = some reply) : App.replyTo n s' = some reply := by
  unfold App.replyTo at hreply ⊢
  obtain ⟨attempt, hattempt, harrived⟩ := Option.bind_eq_some_iff.mp hreply
  obtain ⟨reply', hafter, hkept⟩ := h n attempt hattempt
  rw [hafter, Option.bind_some]
  exact hkept reply harrived

section Sends

variable {request : AppRequest} {s s' : AppState}

/-- An attempt stays as it was made. -/
theorem Sends.attempt (h : Sends request s s') {n : ℕ} {attempt : Attempt}
    (hattempt : s.attempts[n]? = some attempt) : s'.attempts[n]? = some attempt := by
  rcases h with hsame | ⟨baseUrl, hsent⟩
  · rw [hsame]
    exact hattempt
  · obtain ⟨hlt, -⟩ := List.getElem?_eq_some_iff.mp hattempt
    rw [hsent, List.getElem?_append_left hlt]
    exact hattempt

/-- Sending changes nothing that was sent before. -/
theorem Sends.carried (h : Sends request s s') : Carried s s' :=
  fun _ attempt hattempt => ⟨attempt.reply, h.attempt hattempt, fun _ harrived => harrived⟩

/-- A new attempt keeps the earlier ones. -/
theorem carried_of_sent {baseUrl : JsString}
    (h : s'.attempts = s.attempts ++ [⟨baseUrl, request, none⟩]) : Carried s s' :=
  Sends.carried (.inr ⟨baseUrl, h⟩)

/-- What is sent was there before, or is the request of the node. -/
theorem Sends.sent (h : Sends request s s') {n : ℕ} {attempt : Attempt}
    (hattempt : s'.attempts[n]? = some attempt) :
    s.attempts[n]? = some attempt ∨
      n = s.attempts.length ∧ attempt.request = request ∧ attempt.reply = none := by
  rcases h with hsame | ⟨baseUrl, hsent⟩
  · exact .inl (hsame ▸ hattempt)
  · rw [hsent] at hattempt
    rcases Nat.lt_or_ge n s.attempts.length with hlt | hge
    · rw [List.getElem?_append_left hlt] at hattempt
      exact .inl hattempt
    · obtain ⟨hlt, -⟩ := List.getElem?_eq_some_iff.mp hattempt
      rw [List.length_append, List.length_singleton] at hlt
      obtain rfl : n = s.attempts.length := Nat.le_antisymm (Nat.le_of_lt_succ hlt) hge
      rw [List.getElem?_concat_length] at hattempt
      cases hattempt
      exact .inr ⟨rfl, rfl, rfl⟩

end Sends

/-- The requests a call has sent: at these nodes it added one. -/
def sentBy (thread : AppThread) : List ℕ :=
  thread.past.filterMap fun node =>
    if node.1.attempts.length < node.2.attempts.length then some node.1.attempts.length else none

/-- A node that makes no attempt is not counted. -/
theorem sent_quiet (program program' : AppM Unit) {s s' : AppState}
    {past : List (AppState × AppState)} (h : s'.attempts = s.attempts) :
    sentBy ⟨program', past ++ [(s, s')]⟩ = sentBy ⟨program, past⟩ := by
  unfold sentBy
  rw [List.filterMap_append, List.filterMap_cons, if_neg (by rw [h]; exact lt_irrefl _)]
  exact List.append_nil _

/-- A node that makes an attempt is counted with the number of the attempt. -/
theorem sent_append (program program' : AppM Unit) {s s' : AppState}
    {past : List (AppState × AppState)} {attempt : Attempt}
    (h : s'.attempts = s.attempts ++ [attempt]) :
    sentBy ⟨program', past ++ [(s, s')]⟩ =
      sentBy ⟨program, past⟩ ++ [s.attempts.length] := by
  unfold sentBy
  rw [List.filterMap_append, List.filterMap_cons, if_pos]
  · rfl
  · rw [h, List.length_append, List.length_singleton]
    exact Nat.lt_succ_self _

/-! ## The session in the storage -/

/-- How far a call is with the stored token: it has not looked for it, or found this. -/
inductive SessionPhase where
  | fresh
  | asked (token : Option JsString)

/-- Whether a call restores the session. -/
def AppCall.restores : AppCall → Bool
  | restoreSession _ => true
  | _ => false

/-- Whether a call ends it. -/
def AppCall.ends : AppCall → Bool
  | logout _ _ => true
  | _ => false

/-- Only `logout` ends a session by itself: a restore that fails removes the token too, by a move
of its own (`giveUp`). -/
theorem AppCall.ends_iff {call : AppCall} :
    call.ends = true ↔ ∃ active tokens, call = .logout active tokens := by
  refine ⟨fun hends => ?_, fun ⟨active, tokens, hcall⟩ => by rw [hcall]; rfl⟩
  cases call with
  | logout active tokens => exact ⟨active, tokens, rfl⟩
  | _ => cases hends

/-- The phase a call begins in. -/
def AppCall.phase (call : AppCall) : SessionPhase := if call.restores then .fresh else .asked none

/-- Whether a call that found a token may send a request. -/
def AppCall.MaySend (call : AppCall) (token : Option JsString) (request : AppRequest) : Prop :=
  call.restores = true → ∃ value, token = some value ∧ request = .auth (.refresh value)

/-- **What one node of a call does** to what was sent and to the stored token, once a restore
has looked for it. -/
inductive SessionNode (call : AppCall) (token : Option JsString) : AppState → AppState → Prop
  | send {s s' : AppState} {request : AppRequest} (hsends : Sends request s s')
      (hstored : s'.storage = s.storage) (hmay : call.MaySend token request) :
      SessionNode call token s s'
  | quiet {s s' : AppState} (hsent : s'.attempts = s.attempts) (hstored : s'.storage = s.storage) :
      SessionNode call token s s'
  | save {s s' : AppState} (value : JsString) (hsent : s'.attempts = s.attempts)
      (hstored : s'.storage = some value) : SessionNode call token s s'
  | remove {s s' : AppState} (hsent : s'.attempts = s.attempts) (hends : call.ends = true) :
      SessionNode call token s s'

/-- **The protocol of the calls**: a restore looks for the token first, and it alone goes on to
`removeItem` from its `catch`. -/
inductive SessionMove : AppCall × SessionPhase → (AppState → AppState) → AppState →
    AppCall × SessionPhase → Prop
  | ask {call : AppCall} {update : AppState → AppState} {s : AppState}
      (hsent : (update s).attempts = s.attempts) (hstored : (update s).storage = s.storage) :
      SessionMove (call, .fresh) update s (call, .asked s.storage)
  | node {call : AppCall} {token : Option JsString} {update : AppState → AppState} {s : AppState}
      (hnode : SessionNode call token s (update s)) :
      SessionMove (call, .asked token) update s (call, .asked token)
  | giveUp {call : AppCall} {token : Option JsString} {update : AppState → AppState} {s : AppState}
      (hrestores : call.restores = true) (heffect : App.removeItem.effect? = some update) :
      SessionMove (call, .asked token) update s (call, .asked token)

/-- The storage is not the network. -/
theorem removeItem_attempts {update : AppState → AppState}
    (heffect : App.removeItem.effect? = some update) (s : AppState) :
    (update s).attempts = s.attempts := by
  cases heffect
  dsimp only
  split <;> rfl

/-- Every node makes at most one attempt. -/
theorem SessionNode.sends {call : AppCall} {token : Option JsString} {s s' : AppState}
    (h : SessionNode call token s s') : ∃ request, Sends request s s' := by
  cases h with
  | send hsends _ _ => exact ⟨_, hsends⟩
  | quiet hsent _ => exact ⟨.auth (.refresh []), .inl hsent⟩
  | save value hsent _ => exact ⟨.auth (.refresh []), .inl hsent⟩
  | remove hsent _ => exact ⟨.auth (.refresh []), .inl hsent⟩

/-- Every move makes at most one attempt. -/
theorem SessionMove.sends {a a' : AppCall × SessionPhase} {update : AppState → AppState}
    {s : AppState} (h : SessionMove a update s a') : ∃ request, Sends request s (update s) := by
  cases h with
  | ask hsent _ => exact ⟨.auth (.refresh []), .inl hsent⟩
  | node hnode => exact hnode.sends
  | giveUp _ heffect => exact ⟨.auth (.refresh []), .inl (removeItem_attempts heffect s)⟩

/-! ## The functions of the app -/

section Functions

open App

variable {call : AppCall} {token : Option JsString} {active : JsString}

theorem SessionNode.refl (s : AppState) : SessionNode call token s s := .quiet rfl rfl

/-- An operation of the storage either takes effect or fails and changes nothing. -/
theorem asyncStorage_guarantees {α : Type} {G : AppState → AppState → Prop}
    {operation : AppState → α × AppState} (hfails : ∀ s, G s s)
    (h : ∀ s, G s (operation s).2) : (asyncStorage operation).Guarantees G := by
  refine Proc.guarantees_atomically fun s => ?_
  split
  · exact hfails s
  · exact h s

/-- A pair is stored as a whole: there is never half a session. -/
theorem saveTokens_stays {pair : AuthTokens} :
    (saveTokens (some pair)).Guarantees (SessionNode call token) :=
  (Proc.guarantees_modify fun _ => .quiet rfl rfl).bind fun _ =>
    asyncStorage_guarantees .refl fun _ => .save pair.refreshToken rfl rfl

/-- The token is removed only where a call may end the session. -/
theorem removeItem_stays (hends : call.ends = true) :
    removeItem.Guarantees (SessionNode call token) :=
  asyncStorage_guarantees .refl fun _ => .remove rfl hends

/-- By induction on the URLs that are left: each is one more attempt of the same request. -/
theorem fetchFrom_stays {request : AppRequest} (hmay : call.MaySend token request) :
    ∀ (urls : List JsString) (lastError : Option AppError),
      (fetchFrom active request lastError urls).Guarantees (SessionNode call token)
  | [], _ => Proc.guarantees_throw _
  | baseUrl :: rest, lastError => by
      have hfetch : (fetch baseUrl request).Guarantees (SessionNode call token) := by
        refine (Proc.guarantees_take fun s => .send (.inr ⟨baseUrl, rfl⟩) rfl hmay).bind fun n =>
          Proc.guarantees_atomically fun s => ?_
        cases replyTo n s with
        | none => exact .refl s
        | some reply => exact .refl s
      refine Proc.Guarantees.tryCatch (hfetch.bind fun response => ?_)
        fun err => fetchFrom_stays hmay rest (some err)
      exact .ite (fun _ => (Proc.guarantees_modify fun s => .quiet rfl rfl).bind fun _ =>
        Proc.guarantees_pure _) fun _ => Proc.guarantees_pure _

/-- All attempts of a request carry it as it is. -/
theorem fetchHub_stays {request : AppRequest} (hmay : call.MaySend token request) :
    (fetchHub active request).Guarantees (SessionNode call token) :=
  fetchFrom_stays hmay _ none

/-- The pair that is stored was in the answer. -/
theorem openSession_stays {response : HttpReply} :
    (openSession response).Guarantees (SessionNode call token) := by
  refine .ite (fun _ => .bind (Proc.guarantees_throw _) fun _ => ?_) fun _ => ?_
  all_goals
    refine .bind ?_ fun pair => saveTokens_stays.bind fun _ => Proc.guarantees_pure _
    unfold parseTokens
    split
    · exact Proc.guarantees_pure _
    · exact Proc.guarantees_throw _

/-- The refresh is sent with the token of the session, and its pair replaces the session. -/
theorem refreshSession_stays {refreshToken : JsString}
    (hmay : call.MaySend token (.auth (.refresh refreshToken))) :
    (refreshSession active refreshToken).Guarantees (SessionNode call token) :=
  (fetchHub_stays hmay).bind fun _ => openSession_stays

/-- The end of `request`, from its last response on. -/
def App.checked (response : HttpReply) : AppM HttpReply := do
  if !response.ok then
    throw (.failed response.status response.body)
  match response.body with
  | .unreadable => throw .network
  | _ => return response

/-- A request, and after a 401 the refresh and the request again. -/
theorem request_stays {tokens : Option AuthTokens} {resource : Resource}
    (hmay : ∀ request, call.MaySend token request) :
    (App.request active tokens resource).Guarantees (SessionNode call token) := by
  cases tokens with
  | none => exact Proc.guarantees_throw _
  | some pair =>
      refine (fetchHub_stays (hmay _)).bind fun first => ?_
      have hrest : ∀ response, (App.checked response).Guarantees (SessionNode call token) := by
        intro response
        unfold App.checked
        refine .ite (fun _ => .bind (Proc.guarantees_throw _) fun _ => ?_) fun _ => ?_
        all_goals
          split
          · exact Proc.guarantees_throw _
          · exact Proc.guarantees_pure _
      refine .ite (fun _ => ?_) fun _ => hrest first
      exact (refreshSession_stays (hmay _)).bind fun refreshed =>
        (fetchHub_stays (hmay _)).bind hrest

/-! ## The calls -/

/-- That a program follows the protocol. -/
abbrev SessionFollows (p : AppM Unit) (call : AppCall) (phase : SessionPhase) (s : AppState) :
    Prop :=
  p.Follows Carried SessionMove (fun _ _ _ => True) (call, phase) s

/-- A node that stays is a move of the protocol that stays. -/
theorem SessionNode.stays {update : AppState → AppState}
    (h : ∀ s, SessionNode call token s (update s)) (s : AppState) :
    SessionMove (call, .asked token) update s (call, .asked token) ∧ Carried s (update s) :=
  ⟨.node (h s), (h s).sends.elim fun _ hsends => hsends.carried⟩

/-- A program whose nodes all stay follows the protocol from wherever the session is. -/
theorem SessionNode.follows {p : AppM Unit} (hp : p.Guarantees (SessionNode call token))
    (s : AppState) : SessionFollows p call (.asked token) s :=
  hp.follows @Carried.trans (fun _ => SessionNode.stays) fun _ _ _ => trivial

/-- The token is removed before the Hub is told, and nobody waits for the Hub. -/
theorem logout_stays {tokens : Option AuthTokens} (hmay : ∀ request, call.MaySend token request)
    (hends : call.ends = true) :
    (logout active tokens).Guarantees (SessionNode call token) := by
  have hsave : (saveTokens none).Guarantees (SessionNode call token) :=
    (Proc.guarantees_modify fun _ => .quiet rfl rfl).bind fun _ => removeItem_stays hends
  refine hsave.bind fun _ => ?_
  split
  · exact Proc.guarantees_pure _
  · exact Proc.guarantees_pure _
  · exact .tryCatch ((fetchHub_stays (hmay _)).bind fun _ => Proc.guarantees_pure _) fun _ =>
      Proc.guarantees_pure _

/-- Nothing is sent without a server and a prompt. -/
theorem createTask_stays {tokens : Option AuthTokens} {selectedServerId : Option ServerId}
    {workerType : WorkerType} {prompt : JsString}
    (hmay : ∀ request, call.MaySend token request) :
    (createTask active tokens selectedServerId workerType prompt).Guarantees
      (SessionNode call token) := by
  unfold createTask
  split
  · exact Proc.guarantees_pure _
  · exact Proc.guarantees_pure _
  · exact .tryCatch ((request_stays hmay).bind fun _ => Proc.guarantees_pure _) fun _ =>
      Proc.guarantees_pure _

/-- The `catch` of a restore. -/
theorem removeItem_follows (hrestores : call.restores = true) (s : AppState) :
    SessionFollows removeItem call (.asked token) s :=
  Proc.follows_atomically fun _ _ => ⟨_, .giveUp hrestores rfl, fun _ _ => trivial⟩

/-- A restore asks for the token it found to be refreshed, and for nothing else. -/
theorem restoreSession_follows (s : AppState) :
    SessionFollows (restoreSession active) (.restoreSession active) .fresh s := by
  have hremove : ∀ token s, SessionFollows removeItem (.restoreSession active) (.asked token) s :=
    fun _ s => removeItem_follows rfl s
  refine .tryCatch Carried.refl (.bind Carried.refl (Proc.follows_atomically fun s' _ => ?_))
  refine ⟨(.restoreSession active, .asked s'.storage), ?_, fun s'' _ => ?_⟩
  · refine .ask ?_ ?_
    all_goals
      dsimp only
      split <;> rfl
  by_cases hfails : s'.storageFails = true
  · rw [if_pos hfails]
    exact hremove _ _
  · rw [if_neg hfails]
    dsimp only
    split
    · exact fun _ _ => trivial
    · exact fun _ _ => trivial
    · next value _ hstored =>
        rw [hstored]
        have hrefresh : (refreshSession active value).Guarantees
            (SessionNode (.restoreSession active) (some value)) :=
          refreshSession_stays fun _ => ⟨value, rfl, rfl⟩
        refine (hrefresh.bind fun _ => Proc.guarantees_pure _).follows @Carried.trans
          (fun _ => SessionNode.stays) fun s' outcome _ => ?_
        cases outcome with
        | ok value => trivial
        | error error => exact hremove _ _

/-- **Every call follows the protocol.** -/
theorem AppCall.follows (call : AppCall) (s : AppState) :
    SessionFollows call.program call call.phase s := by
  have hmay : ∀ {call : AppCall}, call.restores = false → ∀ token request,
      call.MaySend token request := fun hnot _ _ hrestores => by
    rw [hnot] at hrestores
    cases hrestores
  cases call with
  | restoreSession active => exact restoreSession_follows s
  | login active email password =>
      exact SessionNode.follows ((fetchHub_stays (hmay rfl _ _)).bind fun _ =>
        openSession_stays.bind fun _ => Proc.guarantees_pure _) s
  | logout active tokens => exact SessionNode.follows (logout_stays (hmay rfl _) rfl) s
  | request active tokens resource =>
      exact SessionNode.follows ((request_stays (hmay rfl _)).bind fun _ =>
        Proc.guarantees_pure _) s
  | createTask active tokens selectedServerId workerType prompt =>
      exact SessionNode.follows (createTask_stays (hmay rfl _)) s
  | fetchHub active request =>
      exact SessionNode.follows ((fetchHub_stays (hmay rfl _ _)).bind fun _ =>
        Proc.guarantees_pure _) s

end Functions

end CodeCaller
