import CodeCaller.App.Retries
import CodeCaller.App.StoredToken

/-!
# What the Hub makes of one tap

A handler of `submit` creates at most one task, and is never answered with 401.  With what is known
of the calls of the app, this bounds what one call makes the Hub do: `one_tap`.

* `SubmitMove`: the protocol of the handlers of the Hub, with one bit: whether the task was
  created. `perform_submits` says that every handler follows it, whatever else is interleaved.
* `processed`, `tasksCreatedFor`, `Refused`: what the Hub has made of the requests of a call, and
  what the app was answered.
* `posts_le`: a call sends at most four times, twice in each of two rounds.
* `created_le`: at most three of these create a task.  There is a second round only after a reply
  of 401, and the request that was refused has created nothing.

`one_tap_twice` and `one_tap_thrice` are runs in which one tap creates two and three tasks.
-/

namespace CodeCaller

open Async

variable {env : Env} {jwt : JwtService} {compare : JsString → JsString → Bool}

/-- `POST /tasks`. -/
def AppRequest.createsTask : AppRequest → Bool
  | .authorized _ (.createTask _) => true
  | _ => false

/-! ## Handlers of `submit` -/

/-- A call of the Hub under way. -/
abbrev HubThread := Thread Hub HubError Response

/-- Whether a call is one of `submit`. -/
def HubCall.submits : HubCall → Bool
  | submit _ _ => true
  | _ => false

/-- How many tasks a handler has created. -/
def tasksCreated (thread : HubThread) : ℕ :=
  (thread.past.map fun node => node.2.tasks.next - node.1.tasks.next).sum

/-- **The protocol of the handlers**: `submit` creates a task once. -/
inductive SubmitMove : HubCall × Bool → Hub → Hub → HubCall × Bool → Prop
  | quiet {call : HubCall} {created : Bool} {h h' : Hub} (hsame : h'.tasks.next = h.tasks.next) :
      SubmitMove (call, created) h h' (call, created)
  | create {call : HubCall} {h h' : Hub} (hnext : h'.tasks.next = h.tasks.next + 1) :
      SubmitMove (call, false) h h' (call, true)
  | other {call : HubCall} {h h' : Hub} (hnot : call.submits = false) :
      SubmitMove (call, false) h h' (call, false)

/-- How a handler ends: `submit` does not end with `unauthorized`. -/
def SubmitEnd (a : HubCall × Bool) (_ : Hub) (outcome : Except HubError Response) : Prop :=
  a.1.submits = true → ∀ error, outcome = .error error → error.kind ≠ .unauthorized

/-- What is known of the handler of a call. -/
def SubmitKnown (calls : List HubCall) (k : ℕ) (a : HubCall × Bool) (thread : HubThread) (_ : Hub) :
    Prop :=
  calls[k]? = some a.1 ∧ (a.1.submits = true → tasksCreated thread = a.2.toNat)

/-- Other calls may do anything: what a handler of `submit` does does not depend on them. -/
abbrev Anything (_ _ : Hub) : Prop := True

/-- A program of the Hub that follows the protocol of `submit`. -/
abbrev SubmitFollows {α : Type} (p : HubM α)
    (post : HubCall × Bool → Hub → Except HubError α → Prop) (a : HubCall × Bool) (h : Hub) :
    Prop :=
  p.Follows Anything (Proc.moves SubmitMove) post a h

theorem anything_trans {a b c : Hub} (_ : Anything a b) (_ : Anything b c) : Anything a c := trivial

section Submit

variable {ownerId : UserId} {dto : CreateTaskDto}

/-- What `submit` does after the server was found. -/
theorem create_follows (call : HubCall) (h : Hub) :
    SubmitFollows (do
      let (id, task) ← Prisma.taskCreate env dto.serverId dto.workerType dto.input
      enqueueDispatch id
      TasksService.ensureWatchdogScheduled
      return (id, task))
      (fun _ _ outcome => ∀ error, outcome = .error error → error.kind ≠ .unauthorized)
      (call, false) h := by
  refine .bind (fun _ => trivial) (Proc.follows_atomically_moves fun h₁ _ => ?_)
  cases hserver : h₁.servers dto.serverId with
  | none =>
      refine ⟨(call, false), .error .foreignKeyConstraint, h₁, ?_, .quiet rfl,
        fun _ _ error herror => ?_⟩
      · rw [Proc.run_atomically, hserver]
      · cases herror
        exact nofun
  | some server =>
      refine ⟨(call, true), _, _, by rw [Proc.run_atomically, hserver], .create rfl, fun h₂ _ => ?_⟩
      dsimp only
      refine .bind (fun _ => trivial) (Proc.follows_atomically fun h₃ _ =>
        ⟨(call, true), .quiet rfl, fun h₄ _ => ?_⟩)
      refine .bind (fun _ => trivial) (Proc.follows_atomically fun h₅ _ =>
        ⟨(call, true), .quiet rfl, fun h₆ _ => ?_⟩)
      exact fun _ _ => nofun

/-- `submit` looks the server up, creates the task once and then enqueues it. What it fails with
after that is not 401: the guard has let the request in before. -/
theorem submit_follows (call : HubCall) (h : Hub) :
    SubmitFollows (TasksService.submit env ownerId dto)
      (fun _ _ outcome => ∀ error, outcome = .error error → error.kind ≠ .unauthorized)
      (call, false) h := by
  refine .bind (fun _ => trivial) (.bind (fun _ => trivial) (.bind (fun _ => trivial)
    (Proc.follows_read fun h₁ _ => ⟨(call, false), .quiet rfl, fun h₂ _ => ?_⟩)))
  dsimp only
  cases h₁.servers dto.serverId with
  | none =>
      intro _ _ error herror
      cases herror
      exact nofun
  | some server =>
      refine .ite (fun _ => ?_) fun _ => ?_
      · intro _ _ error herror
        cases herror
        exact nofun
      · exact fun _ _ _ _ => create_follows call _

/-- **Every handler follows the protocol.** -/
theorem perform_submits (call : HubCall) (h : Hub) :
    SubmitFollows (perform env call) SubmitEnd (call, false) h := by
  by_cases hsubmits : call.submits = true
  · cases call with
    | submit ownerId dto =>
        refine .bind (fun _ => trivial) ((submit_follows _ h).mono fun a s outcome hend => ?_)
        cases outcome with
        | ok created => exact fun _ _ _ => nofun
        | error error =>
            rintro - _ ⟨⟩
            exact hend error rfl
    | _ => cases hsubmits
  · have hnot : call.submits = false := Bool.eq_false_of_not_eq_true hsubmits
    have hany : (perform env call).Guarantees Anything :=
      Proc.guarantees_of_forall (fun _ _ => trivial) _
    exact hany.follows @anything_trans (fun _ _ _ => ⟨.other hnot, trivial⟩) fun _ _ _ hyes =>
      absurd hyes hsubmits

end Submit

/-! ## Handlers in a deployment -/

/-- What a handler has created is counted node by node. -/
theorem tasksCreated_append (program program' : HubM Response) {past : List (Hub × Hub)}
    {h h' : Hub} :
    tasksCreated ⟨program', past ++ [(h, h')]⟩ =
      tasksCreated ⟨program, past⟩ + (h'.tasks.next - h.tasks.next) := by
  unfold tasksCreated
  rw [List.map_append, List.sum_append, List.map_singleton, List.sum_singleton]

/-- The bit says how many tasks the handler has created. -/
theorem SubmitMove.known {calls : List HubCall} {k : ℕ} {a a' : HubCall × Bool} {thread : HubThread}
    {update : Hub → Hub} {h : Hub} (program : HubM Response)
    (hknown : SubmitKnown calls k a thread h)
    (hmove : SubmitMove a h (update h) a') :
    SubmitKnown calls k a' ⟨program, thread.past ++ [(h, update h)]⟩ (update h) := by
  obtain ⟨hcall, hcreated⟩ := hknown
  cases hmove with
  | quiet hsame =>
      refine ⟨hcall, fun hsubmits => ?_⟩
      rw [tasksCreated_append thread.program, hsame, Nat.sub_self, Nat.add_zero]
      exact hcreated hsubmits
  | create hnext =>
      refine ⟨hcall, fun hsubmits => ?_⟩
      rw [tasksCreated_append thread.program, hnext, hcreated hsubmits,
        Nat.add_sub_cancel_left]
      rfl
  | other hnot => exact ⟨hcall, fun hsubmits => absurd (hnot.symm.trans hsubmits) (by decide)⟩

namespace Deployment

variable {D : Deployment}

/-- The handlers follow their protocols. -/
def Submits (D : Deployment) : Prop :=
  D.hub.Fits Anything (Proc.moves SubmitMove) SubmitEnd (SubmitKnown D.hubCalls)

/-- A new call stands at the beginning of its protocol. -/
theorem Submits.serve (hD : D.Submits) (hlinked : D.Linked) (call : HubCall) :
    (D.serve env call).Submits := by
  have hbefore : D.hub.Fits Anything (Proc.moves SubmitMove) SubmitEnd
      (SubmitKnown (D.hubCalls ++ [call])) :=
    Pool.Fits.mono hD fun k a thread _ hknown =>
      ⟨getElem?_mono (List.prefix_append _ _) hknown.1, hknown.2⟩
  refine hbefore.add (perform_submits call _) ⟨?_, fun _ => rfl⟩
  rw [← hlinked.hubCalls, List.getElem?_concat_length]

/-- A node of a call is a move of its protocol. -/
theorem Submits.step (hD : D.Submits) {k : ℕ} (hlive : D.hub.live k = true) :
    Submits { D with hub := D.hub.step k } :=
  (Pool.Fits.step (J := SubmitKnown D.hubCalls) (fun _ => trivial) @anything_trans
    (fun _ _ _ _ _ => trivial) (fun _ _ _ _ _ hknown _ => hknown)
    (fun _ _ _ _ _ _ program hknown hmove => SubmitMove.known program hknown hmove) hD hlive).1

/-- The request is let in, and its call begins, or it is refused, and no call does. -/
theorem Submits.receive (hD : D.Submits) (hlinked : D.Linked) (n : ℕ) :
    (D.receive env jwt compare n).Submits := by
  unfold Deployment.receive
  split
  · exact hD
  · split
    · split
      · exact hD
      · exact Submits.serve (D := D.tick) hD { hlinked with } _
    · exact hD

/-- Every step of the deployment, by its kind. -/
theorem Submits.next (hD : D.Submits) (hlinked : D.Linked) {action : DeployAction}
    (henabled : D.enabled action) : (D.step env jwt compare action).Submits := by
  cases action with
  | hub k => exact hD.step henabled
  | serve call => exact hD.serve hlinked call
  | receive n => exact hD.receive hlinked n
  | deliver n whole =>
      change (D.deliver n whole).Submits
      unfold deliver
      split <;> exact hD
  | _ => exact hD

/-- The handlers of every deployment that is reached. -/
theorem reachable_submits (hreach : (deploymentMachine env jwt compare).Reachable D) :
    D.Submits := by
  refine (Machine.Reachable.invariant (I := fun D => D.Sound retryProtocol ∧ D.Submits)
    (fun D (hD : D.Initial) => ⟨hD.sound, fun k thread hthread => ?_⟩)
    (fun D action hboth henabled => ?_) hreach).2
  · rw [hD.hub] at hthread
    cases hthread
  · exact ⟨step_sound hboth.1 henabled, hboth.2.next hboth.1.linked henabled⟩

/-! ## What one call makes the Hub do -/

/-- The requests of a call that a handler of the Hub has processed. -/
def processed (D : Deployment) (thread : AppThread) : List ℕ :=
  (sentBy thread).filter fun n => (D.handled n).any Handling.processed

/-- A request that was sent is `POST /tasks`. -/
def isPost (D : Deployment) (n : ℕ) : Bool :=
  D.app.shared.attempts[n]?.any (·.request.createsTask)

/-- A request that was sent is `POST /auth/refresh`. -/
def IsRefresh (D : Deployment) (n : ℕ) : Prop :=
  ∃ token, D.app.shared.attempts[n]?.map (·.request) = some (.auth (.refresh token))

/-- The app was answered 401 to a request. -/
def Refused (D : Deployment) (n : ℕ) : Prop :=
  (App.replyTo n D.app.shared).map (·.status) = some 401

/-- How many tasks the handler of a request has created. -/
def tasksCreatedFor (D : Deployment) (n : ℕ) : ℕ :=
  match D.handled n with
  | some (.call k) => (D.hub.threads[k]?.map tasksCreated).getD 0
  | _ => 0

/-- How many tasks a call has created. -/
def tasksCreatedBy (D : Deployment) (thread : AppThread) : ℕ :=
  ((sentBy thread).map D.tasksCreatedFor).sum

/-- The active URL is one of the two. -/
theorem reachable_active (hreach : (deploymentMachine env jwt compare).Reachable D) :
    ∀ call ∈ D.calls, call.active ∈ App.API_BASE_URLS := by
  refine Machine.Reachable.invariant
    (I := fun D => ∀ call ∈ D.calls, call.active ∈ App.API_BASE_URLS)
    (fun D (hD : D.Initial) => ?_) (fun D action hactive henabled => ?_) hreach
  · rw [hD.calls]
    exact nofun
  · have hsame : (D.step env jwt compare action).calls = D.calls → ∀ call ∈
        (D.step env jwt compare action).calls, call.active ∈ App.API_BASE_URLS := fun heq => by
      rw [heq]
      exact hactive
    cases action with
    | tap call =>
        intro other hother
        rcases List.mem_append.mp hother with hold | hnew
        · exact hactive other hold
        · rw [List.mem_singleton.mp hnew]
          exact henabled
    | receive n => exact hsame (receive_app n).2
    | deliver n whole => exact hsame (deliver_app n whole).2
    | _ => exact hsame rfl

/-- So `fetchHub` has two URLs to try, each once. -/
theorem orderedUrls_of_mem {active : JsString} (h : active ∈ App.API_BASE_URLS) :
    (App.orderedUrls active).Nodup ∧ (App.orderedUrls active).length = 2 := by
  unfold App.API_BASE_URLS at h
  rcases List.mem_cons.mp h with rfl | hlast
  · decide
  · rw [List.mem_singleton.mp hlast]
    decide

/-- A round has tried each URL once at most. -/
theorem tried_nodup {call : AppCall} {ns : List ℕ}
    {past : List (AppState × AppState)} {s : AppState} {rest : List JsString}
    (h : Tried call ns past s rest) (hactive : call.active ∈ App.API_BASE_URLS) :
    (ns.map (urlOf s)).Nodup ∧ ns.length ≤ 2 := by
  obtain ⟨hnodup, hlength⟩ := orderedUrls_of_mem hactive
  have hall : (ns.map (urlOf s) ++ rest.map some).Nodup := by
    rw [h.urls]
    exact hnodup.map (Option.some_injective _)
  refine ⟨(List.nodup_append.mp hall).1, ?_⟩
  have htotal := congrArg List.length h.urls
  rw [List.length_append, List.length_map, List.length_map, List.length_map, hlength] at htotal
  omega

section Created

variable {n : ℕ}

/-- The handler of a request to create a task is a `submit`. -/
theorem Linked.submit (hlinked : D.Linked) {n k : ℕ} (hpost : D.isPost n = true)
    (hhandled : D.handled n = some (.call k)) :
    ∃ user dto, D.hubCalls[k]? = some (.submit user dto) := by
  obtain ⟨attempt, hattempt, token, resource, user, hresource, hcall⟩ :=
    hlinked.handled n _ hhandled
  unfold isPost at hpost
  rw [hattempt, Option.any_some, hresource] at hpost
  cases resource with
  | createTask dto => exact ⟨user, dto, hcall⟩
  | _ => exact absurd hpost Bool.false_ne_true

/-- An attempt is handled by at most one call, and a call of `submit` creates at most one task. -/
theorem tasksCreatedFor_le (hlinked : D.Linked) (hsubmits : D.Submits)
    (hpost : D.isPost n = true) : D.tasksCreatedFor n ≤ 1 := by
  unfold tasksCreatedFor
  split
  · next k hhandled =>
    obtain ⟨user, dto, hcall⟩ := hlinked.submit hpost hhandled
    cases hthread : D.hub.threads[k]? with
    | none => exact Nat.zero_le _
    | some thread =>
        obtain ⟨⟨call, created⟩, -, hknown, hcreated⟩ := hsubmits k thread hthread
        obtain rfl : call = .submit user dto := Option.some.inj (hknown.symm.trans hcall)
        change tasksCreated thread ≤ 1
        rw [hcreated rfl]
        exact Bool.toNat_le created
  · exact Nat.zero_le _

/-- A request that was answered with 401 has created nothing. -/
theorem tasksCreatedFor_refused (hlinked : D.Linked) (hsubmits : D.Submits)
    (hpost : D.isPost n = true) (hrefused : D.Refused n) : D.tasksCreatedFor n = 0 := by
  unfold tasksCreatedFor
  split
  · next k hhandled =>
    obtain ⟨reply, hreply, hunauthorized⟩ := Option.map_eq_some_iff.mp hrefused
    obtain ⟨full, whole, hanswer, rfl⟩ := hlinked.replied n reply hreply
    unfold Deployment.answer at hanswer
    rw [hhandled] at hanswer
    obtain ⟨served, hserved, hreplied⟩ := Option.bind_eq_some_iff.mp hanswer
    obtain ⟨outcome, houtcome, rfl⟩ := Option.map_eq_some_iff.mp hreplied
    obtain ⟨thread, hthread, hended⟩ := Option.bind_eq_some_iff.mp houtcome
    obtain ⟨user, dto, hcall⟩ := hlinked.submit hpost hhandled
    obtain rfl : served = .submit user dto := Option.some.inj (hserved.symm.trans hcall)
    obtain ⟨⟨call, created⟩, hfollows, hknown, -⟩ := hsubmits k thread hthread
    obtain rfl : call = .submit user dto := Option.some.inj (hknown.symm.trans hcall)
    have hend : SubmitEnd (.submit user dto, created) D.hub.shared outcome :=
      hfollows.ended trivial hended
    cases outcome with
    | ok response =>
        have hok : 201 = 401 := HttpReply.status_cut.symm.trans hunauthorized
        cases hok
    | error error =>
        refine absurd ?_ (hend rfl error rfl)
        exact HubErrorKind.status_eq.mp (HttpReply.status_cut.symm.trans hunauthorized)
  · rfl

/-- A refresh creates nothing. -/
theorem IsRefresh.created (hlinked : D.Linked) (h : D.IsRefresh n) : D.tasksCreatedFor n = 0 := by
  obtain ⟨refreshToken, hrequest⟩ := h
  unfold tasksCreatedFor
  split
  · next k hhandled =>
    obtain ⟨attempt, hattempt, token, resource, user, hresource, -⟩ := hlinked.handled n _ hhandled
    rw [hattempt, Option.map_some, hresource] at hrequest
    cases hrequest
  · rfl

/-- A refresh is not a request for a task. -/
theorem IsRefresh.not_isPost (h : D.IsRefresh n) : D.isPost n = false := by
  obtain ⟨token, hrequest⟩ := h
  obtain ⟨attempt, hattempt, hsent⟩ := Option.map_eq_some_iff.mp hrequest
  unfold isPost
  rw [hattempt, Option.any_some, hsent]
  rfl

end Created

end Deployment

/-! ## One tap -/

/-- As many as there are attempts, if each counts at most once. -/
theorem sum_map_le {f : ℕ → ℕ} {ns : List ℕ} (hle : ∀ n ∈ ns, f n ≤ 1) :
    (ns.map f).sum ≤ ns.length := by
  induction ns with
  | nil => exact Nat.le_refl _
  | cons n ns ih =>
      rw [List.map_cons, List.sum_cons, List.length_cons]
      have hn := hle n List.mem_cons_self
      have hrest := ih fun m hm => hle m (List.mem_cons_of_mem _ hm)
      omega

/-- Where each of some numbers is one at most, and one of them is zero. -/
theorem sum_map_lt {f : ℕ → ℕ} {ns : List ℕ} {m : ℕ} (hle : ∀ n ∈ ns, f n ≤ 1) (hm : m ∈ ns)
    (hzero : f m = 0) : (ns.map f).sum < ns.length := by
  obtain ⟨front, back, rfl⟩ := List.append_of_mem hm
  have hfront := sum_map_le fun n hn => hle n (List.mem_append_left _ hn)
  have hback := sum_map_le fun n hn => hle n (List.mem_append_right _ (List.mem_cons_of_mem _ hn))
  rw [List.map_append, List.map_cons, List.sum_append, List.sum_cons, List.length_append,
    List.length_cons, hzero]
  omega

namespace Deployment

variable {D : Deployment}

/-- **One call of `fetchHub`** has sent its request to each URL once at most, and to the second
after it was resumed without a reply from the first. -/
theorem fetchHub_sent (hD : D.Sound retryProtocol)
    (hactive : ∀ call ∈ D.calls, call.active ∈ App.API_BASE_URLS) {i : ℕ} {thread : AppThread}
    {active : JsString} {request : AppRequest}
    (hcall : D.calls[i]? = some (.fetchHub active request))
    (hthread : D.app.threads[i]? = some thread) :
    (∀ n ∈ sentBy thread, D.app.shared.attempts[n]?.map (·.request) = some request) ∧
      ((sentBy thread).map (urlOf D.app.shared)).Nodup ∧ (sentBy thread).length ≤ 2 ∧
        (sentBy thread).Pairwise (GivenUp thread.past) := by
  obtain ⟨⟨call, phase⟩, -, hknown, hphase⟩ := hD.calls i thread hthread
  obtain rfl : call = .fetchHub active request := Option.some.inj (hknown.symm.trans hcall)
  change phase.Known (.fetchHub active request) thread D.app.shared at hphase
  cases phase with
  | other => cases hphase
  | second n r => cases hphase.1
  | first r =>
      obtain ⟨ns, renewals, hsent, hround, hrenewals, -⟩ := hphase
      rw [hrenewals.1 rfl, List.append_nil] at hsent
      obtain ⟨rest, htried⟩ := hround.tried
      rw [hsent]
      refine ⟨fun n hn => ?_, (tried_nodup htried (hactive _ (List.mem_of_getElem? hcall))).1,
        (tried_nodup htried (hactive _ (List.mem_of_getElem? hcall))).2, htried.givenUp⟩
      obtain ⟨sent, hrequest, hposts⟩ := htried.posts n hn
      rw [hrequest, show sent = request from hposts]

/-- A round of `createTask` posts tasks. -/
theorem tried_posts {active : JsString} {tokens : Option AuthTokens}
    {selectedServerId : Option ServerId} {workerType : WorkerType} {prompt : JsString}
    {ns : List ℕ} {past : List (AppState × AppState)} {rest : List JsString}
    (htried : Tried (.createTask active tokens selectedServerId workerType prompt) ns past
      D.app.shared rest) {n : ℕ} (hn : n ∈ ns) : D.isPost n = true := by
  obtain ⟨request, hrequest, accessToken, serverId, -, hposts⟩ := htried.posts n hn
  obtain ⟨attempt, hattempt, rfl⟩ := Option.map_eq_some_iff.mp hrequest
  unfold isPost
  rw [hattempt, Option.any_some, hposts]
  rfl

/-- **One call of `createTask`** sends two rounds of `POST /tasks`, with refreshes between
them; the second round is there only if a request of the first was answered with 401. -/
theorem createTask_sent (hD : D.Sound retryProtocol)
    (hactive : ∀ call ∈ D.calls, call.active ∈ App.API_BASE_URLS) {i : ℕ} {thread : AppThread}
    {active : JsString} {tokens : Option AuthTokens} {selectedServerId : Option ServerId}
    {workerType : WorkerType} {prompt : JsString}
    (hcall : D.calls[i]? =
      some (.createTask active tokens selectedServerId workerType prompt))
    (hthread : D.app.threads[i]? = some thread) : ∃ first renewals second,
      sentBy thread = first ++ renewals ++ second ∧ first.length ≤ 2 ∧ second.length ≤ 2 ∧
        (∀ n ∈ first ++ second, D.isPost n = true) ∧ (∀ n ∈ renewals, D.IsRefresh n) ∧
          (second ≠ [] → ∃ n ∈ first, D.Refused n) := by
  obtain ⟨⟨call, phase⟩, -, hknown, hphase⟩ := hD.calls i thread hthread
  obtain rfl : call = .createTask active tokens selectedServerId workerType prompt :=
    Option.some.inj (hknown.symm.trans hcall)
  have hurl := hactive _ (List.mem_of_getElem? hcall)
  change phase.Known (.createTask active tokens selectedServerId workerType prompt) thread
    D.app.shared at hphase
  cases phase with
  | other => cases hphase
  | first r =>
      obtain ⟨ns, renewals, hsent, hround, hrenewals, -⟩ := hphase
      obtain ⟨rest, htried⟩ := hround.tried
      refine ⟨ns, renewals, [], by rw [hsent, List.append_nil], (tried_nodup htried hurl).2,
        Nat.zero_le _, fun n hn => ?_, hrenewals.2, fun hne => absurd rfl hne⟩
      rw [List.append_nil] at hn
      exact tried_posts htried hn
  | second refused r =>
      obtain ⟨-, ns, renewals, ms, hsent, ⟨⟨left, hbefore⟩, hmem⟩, hrenewals, hstatus, hround⟩ :=
        hphase
      obtain ⟨rest, htried⟩ := hround.tried
      refine ⟨ns, renewals, ms, hsent, (tried_nodup hbefore hurl).2, (tried_nodup htried hurl).2,
        fun n hn => ?_, hrenewals.2, fun _ => ⟨refused, hmem, hstatus⟩⟩
      rcases List.mem_append.mp hn with hfirst | hsecond
      · exact tried_posts hbefore hfirst
      · exact tried_posts htried hsecond

section Posts

variable {first renewals second : List ℕ}

/-- Of two rounds and the refreshes between them, four requests at most are posts. -/
theorem posts_le (hfirst : first.length ≤ 2) (hsecond : second.length ≤ 2)
    (hrenewals : ∀ n ∈ renewals, D.IsRefresh n) :
    ((first ++ renewals ++ second).filter D.isPost).length ≤ 4 := by
  have hnone : renewals.filter D.isPost = [] := List.filter_eq_nil_iff.mpr fun n hn => by
    rw [(hrenewals n hn).not_isPost]
    exact Bool.false_ne_true
  rw [List.filter_append, List.filter_append, hnone, List.append_nil, List.length_append]
  have hleft := List.length_filter_le D.isPost first
  have hright := List.length_filter_le D.isPost second
  omega

/-- Of two rounds that create a task for each request at most, the first has a request that
creates none where there is a second. -/
theorem created_le (hfirst : first.length ≤ 2) (hsecond : second.length ≤ 2)
    (hle : ∀ n ∈ first ++ second, D.tasksCreatedFor n ≤ 1)
    (hrenewals : ∀ n ∈ renewals, D.tasksCreatedFor n = 0)
    (hrefused : second ≠ [] → ∃ n ∈ first, D.tasksCreatedFor n = 0) :
    ((first ++ renewals ++ second).map D.tasksCreatedFor).sum ≤ 3 := by
  have hzero : (renewals.map D.tasksCreatedFor).sum = 0 := by
    refine List.sum_eq_zero_iff_forall_eq_nat.mpr fun created hcreated => ?_
    obtain ⟨n, hn, rfl⟩ := List.mem_map.mp hcreated
    exact hrenewals n hn
  have hleft := sum_map_le fun n hn => hle n (List.mem_append_left _ hn)
  have hright := sum_map_le fun n hn => hle n (List.mem_append_right _ hn)
  rw [List.map_append, List.map_append, List.sum_append, List.sum_append, hzero]
  by_cases hnil : second = []
  · rw [hnil, List.map_nil, List.sum_nil]
    omega
  · obtain ⟨m, hm, hnone⟩ := hrefused hnil
    have hlt := sum_map_lt (fun n hn => hle n (List.mem_append_left _ hn)) hm hnone
    omega

end Posts

/-- **One tap, bounded effects.**  One call of `fetchHub` makes the Hub process its request at
most once for each URL, so at most twice, and sends it to the second only after it was resumed
without a reply from the first.  One call of `createTask` creates at most three tasks: it sends
at most four `POST /tasks`, each of which creates one task at most, and none if it was answered
with 401. -/
theorem one_tap (hreach : (deploymentMachine env jwt compare).Reachable D) {i : ℕ}
    {thread : AppThread} (hthread : D.app.threads[i]? = some thread) :
    (∀ active request, D.calls[i]? = some (.fetchHub active request) →
      (∀ n ∈ sentBy thread, D.app.shared.attempts[n]?.map (·.request) = some request) ∧
        ((D.processed thread).map (urlOf D.app.shared)).Nodup ∧ (D.processed thread).length ≤ 2 ∧
          (sentBy thread).Pairwise (GivenUp thread.past)) ∧
      ∀ active tokens selectedServerId workerType prompt,
        D.calls[i]? = some (.createTask active tokens selectedServerId workerType prompt) →
          D.tasksCreatedBy thread ≤ 3 ∧ ((sentBy thread).filter D.isPost).length ≤ 4 ∧
            ∀ n ∈ sentBy thread, D.tasksCreatedFor n ≤ 1 ∧
              (D.Refused n → D.tasksCreatedFor n = 0) := by
  have hD : D.Sound retryProtocol := reachable_sound hreach
  have hsubmits := reachable_submits hreach
  have hactive := reachable_active hreach
  constructor
  · intro active request hcall
    obtain ⟨hrequests, hnodup, htwo, hgiven⟩ := fetchHub_sent hD hactive hcall hthread
    have hsub : (D.processed thread).Sublist (sentBy thread) := List.filter_sublist
    exact ⟨hrequests, (hsub.map _).nodup hnodup, hsub.length_le.trans htwo, hgiven⟩
  · intro active tokens selectedServerId workerType prompt hcall
    obtain ⟨first, renewals, second, hsent, hfirst, hsecond, hposts, hrenewals, hrefused⟩ :=
      createTask_sent hD hactive hcall hthread
    have hle : ∀ n ∈ first ++ second, D.tasksCreatedFor n ≤ 1 := fun n hn =>
      tasksCreatedFor_le hD.linked hsubmits (hposts n hn)
    have hnone : ∀ n ∈ first ++ second, D.Refused n → D.tasksCreatedFor n = 0 := fun n hn =>
      tasksCreatedFor_refused hD.linked hsubmits (hposts n hn)
    have hrefresh : ∀ n ∈ renewals, D.tasksCreatedFor n = 0 := fun n hn =>
      (hrenewals n hn).created hD.linked
    unfold tasksCreatedBy
    rw [hsent]
    refine ⟨created_le hfirst hsecond hle hrefresh fun hne => ?_, posts_le hfirst hsecond hrenewals,
      fun n hn => ?_⟩
    · obtain ⟨m, hm, hanswered⟩ := hrefused hne
      exact ⟨m, hm, hnone m (List.mem_append_left _ hm) hanswered⟩
    · by_cases hpost : n ∈ first ++ second
      · exact ⟨hle n hpost, hnone n hpost⟩
      · -- what is not of the two rounds is a refresh
        have hrenewal : n ∈ renewals := by
          simp only [List.mem_append] at hn hpost
          tauto
        rw [hrefresh n hrenewal]
        exact ⟨Nat.zero_le 1, fun _ => rfl⟩

/-- A service whose access token `t` expires at once; `access` is what it signs from then on. -/
def expiring : JwtService :=
  { JwtService.sample with
    verify := fun token secret date =>
      if secret = js "a" ∧ (token = js "t" ∧ date < 1 ∨ token = js "access") then
        some ⟨0, js "e", none⟩
      else JwtService.sample.verify token secret date }

/-- **A request processed through both URLs**: the first reply came too late. -/
theorem one_tap_twice :
    let machine := deploymentMachine Env.authSample expiring fun _ _ => false
    let posted := AppRequest.authorized (js "access") (.createTask ⟨0, .CODEX, sampleInput⟩)
    let D := machine.exec (sample sampleToken)
      ([.tap (.fetchHub App.PRIMARY_API_BASE_URL posted), .resume 0, .receive 0, .hub 0, .hub 0,
        .hub 0, .hub 0] ++ [.resume 0, .resume 0, .receive 1, .hub 1, .hub 1, .hub 1, .hub 1])
    ∃ thread, D.app.threads[0]? = some thread ∧ (D.processed thread).length = 2 ∧
      ((D.processed thread).map (urlOf D.app.shared)).Nodup := by
  intro machine posted D
  have hreach : machine.Reachable D :=
    (Machine.Reachable.of_start (sample_initial sampleToken)).exec (by decide)
  have hthread : D.app.threads[0]?.map (fun thread => (D.processed thread).length) = some 2 := by
    decide
  have hcall : D.calls[0]? = some (.fetchHub App.PRIMARY_API_BASE_URL posted) := rfl
  obtain ⟨thread, hzero, htwo⟩ := Option.map_eq_some_iff.mp hthread
  exact ⟨thread, hzero, htwo, ((one_tap hreach hzero).1 _ posted hcall).2.1⟩

/-- **One tap, three tasks**: the first request is processed without a reply, the second is
refused as the access token has expired by then, and with a new one both are processed. -/
theorem one_tap_thrice :
    let machine := deploymentMachine Env.authSample expiring fun _ _ => false
    let D := machine.exec (sample sampleToken)
      ([.tap (.createTask App.PRIMARY_API_BASE_URL (some ⟨js "t", sampleToken⟩) (some 0) .CODEX
          (js "do")), .resume 0, .receive 0, .hub 0, .hub 0, .hub 0, .hub 0, .resume 0, .resume 0,
        .receive 1, .deliver 1 true, .resume 0, .resume 0, .resume 0, .receive 2] ++
        List.replicate 9 (.auth 0) ++ [.deliver 2 true, .resume 0, .resume 0, .resume 0, .resume 0,
        .receive 3, .hub 1, .hub 1, .hub 1, .hub 1, .resume 0, .resume 0, .receive 4, .hub 2,
        .hub 2, .hub 2, .hub 2])
    machine.Reachable D ∧ D.hub.shared.tasks.next = 3 ∧
      ∃ thread, D.app.threads[0]? = some thread ∧ D.tasksCreatedBy thread = 3 := by
  intro machine D
  refine ⟨(Machine.Reachable.of_start (sample_initial sampleToken)).exec (by decide +kernel),
    by decide +kernel, ?_⟩
  have hcreated : D.app.threads[0]?.map D.tasksCreatedBy = some 3 := by decide +kernel
  exact Option.map_eq_some_iff.mp hcreated

end Deployment

end CodeCaller
