import CodeCaller.Hub.Credentials
import CodeCaller.Hub.Nodes

/-!
# Concurrent calls on one registration request

`decide` and `getResult` act on a row they read before: they check its status there, and update the
request by its id alone.  A pool of such calls on one request, with sweeps of expired requests
among them, keeps its promises as long as every call acts on the status it found: a call that found
the request pending goes on only while no server was granted, and a call that found it approved
delivers only while it still is.

What a call may do from what it found is the protocol `RegistrationMove`.

### The pieces

* `CallPool.Current`: the condition on a schedule.  It compares what a call has found with the
  state in which it goes on.
* `decideRegistration_follows`, `getResult_follows`, `findPending_follows`: each program follows
  the protocol, whatever the others do.  Here the code is looked at, and nowhere after.
* `Accounted`: the account of a pool, in which the servers created and the keys handed out are
  booked against the status of the request.  `Accounted.step` keeps it under a current schedule.
* `registration_settled`, and `registration_not_settled` for two approvals that both found the
  request pending.
-/

namespace CodeCaller

open Async

/-- The status of a request. -/
def Hub.registrationStatus (h : Hub) (id : RegistrationId) : Option ServerRegistrationStatus :=
  (h.registrations id).map (·.status)

/-- Whether a server was granted for a request, by its status. -/
def ServerRegistrationStatus.granted : ServerRegistrationStatus → Bool
  | APPROVED | CREDENTIAL_DELIVERED => true
  | PENDING | REJECTED | EXPIRED => false

def Hub.granted (h : Hub) (id : RegistrationId) : Bool :=
  (h.registrationStatus id).any (·.granted)

/-- The calls on a request that read it and then act on it. -/
def HubCall.actsOn (id : RegistrationId) : HubCall → Bool
  | decideRegistration _ request _ | getRegistrationResult request _ => request == id
  | _ => false

/-- The calls that expire what is pending and past its time. -/
def HubCall.sweeps : HubCall → Bool
  | findPendingRegistrations _ => true
  | _ => false

/-- The API key in an answer. -/
def Response.apiKey : Response → Option JsString
  | registrationResult result => result.apiKey
  | _ => none

/-- The status of a request as a call found it: in the state its first node ran
in. -/
def foundStatus (id : RegistrationId) (thread : Thread Hub HubError Response) :
    Option ServerRegistrationStatus :=
  thread.past.head?.bind fun visit => visit.1.registrationStatus id

/-- **The condition on a schedule**: a call that found the request approved goes on
while it still is; a call that found it pending and has read the clock goes on
while it is neither approved nor delivered. -/
def CallPool.Current (id : RegistrationId) (calls : List HubCall) (P : CallPool) (i : ℕ) : Prop :=
  (calls[i]?.any (·.actsOn id)) = true → ∀ thread ∈ P.threads[i]?,
    (foundStatus id thread = some .APPROVED → P.shared.registrationStatus id = some .APPROVED) ∧
      (foundStatus id thread = some .PENDING → 2 ≤ thread.past.length →
        P.shared.granted id = false)

instance (id : RegistrationId) (calls : List HubCall) (P : CallPool) (i : ℕ) :
    Decidable (CallPool.Current id calls P i) :=
  inferInstanceAs (Decidable ((calls[i]?.any (·.actsOn id)) = true → ∀ thread ∈ P.threads[i]?,
    (foundStatus id thread = some .APPROVED → P.shared.registrationStatus id = some .APPROVED) ∧
      (foundStatus id thread = some .PENDING → 2 ≤ thread.past.length →
        P.shared.granted id = false)))

/-- **What is promised of a request**: one server at most is created for it, it is
granted exactly when there is one, and its key is handed out once at most. -/
structure CallPool.Settled (h : Hub) (id : RegistrationId) (P : CallPool) : Prop where
  created : P.shared.servers.next = h.servers.next ∨ P.shared.servers.next = h.servers.next + 1
  granted : P.shared.granted id = true ↔ P.shared.servers.next = h.servers.next + 1
  handed : ∀ i j first second, P.outcome? i = some (.ok first) → first.apiKey ≠ none →
    P.outcome? j = some (.ok second) → second.apiKey ≠ none → i = j

/-! ## The protocol of a call -/

/-- What a call knows of the request. -/
inductive RegistrationPhase where
  | fresh
  | found (status : Option ServerRegistrationStatus)
  /-- It found the request pending and has read the clock. -/
  | ready
  /-- It acts no more, or sweeps only. -/
  | idle
  /-- It erased the key it answers with. -/
  | handed
deriving DecidableEq

/-- The request and the number of servers stay. -/
def SameGrant (id : RegistrationId) (h h' : Hub) : Prop :=
  h'.registrationStatus id = h.registrationStatus id ∧ h'.servers.next = h.servers.next

/-- **The steps of a call on a request.** -/
inductive RegistrationMove (id : RegistrationId) :
    RegistrationPhase → Hub → Hub → RegistrationPhase → Prop where
  | stay {a : RegistrationPhase} {h h' : Hub} (hsame : SameGrant id h h')
      (hfresh : a ≠ .fresh) : RegistrationMove id a h h' a
  | query {h : Hub} : RegistrationMove id .fresh h h (.found (h.registrationStatus id))
  | clock {h h' : Hub} (hsame : SameGrant id h h') :
      RegistrationMove id (.found (some .PENDING)) h h' .ready
  | refuse {h h' : Hub} {status : ServerRegistrationStatus}
      (hstatus : h'.registrationStatus id = some status) (hrefused : status.granted = false)
      (hservers : h'.servers.next = h.servers.next) : RegistrationMove id .ready h h' .idle
  | approve {h h' : Hub} (hstatus : h'.registrationStatus id = some .APPROVED)
      (hservers : h'.servers.next = h.servers.next + 1) : RegistrationMove id .ready h h' .idle
  | deliver {h h' : Hub} (hstatus : h'.registrationStatus id = some .CREDENTIAL_DELIVERED)
      (hservers : h'.servers.next = h.servers.next) :
      RegistrationMove id (.found (some .APPROVED)) h h' .handed
  | sweep {h h' : Hub} (hgranted : h'.granted id = h.granted id)
      (hdelivered : h.registrationStatus id = some .CREDENTIAL_DELIVERED →
        h'.registrationStatus id = some .CREDENTIAL_DELIVERED)
      (hservers : h'.servers.next = h.servers.next) : RegistrationMove id .idle h h' .idle

/-- The steps of a call as its protocol. -/
abbrev registrationMoves (id : RegistrationId) :
    RegistrationPhase → (Hub → Hub) → Hub → RegistrationPhase → Prop :=
  Proc.moves (RegistrationMove id)

/-- Who answers with a key has erased it. -/
def KeyErased (a : RegistrationPhase) (_ : Hub) (outcome : Except HubError Response) : Prop :=
  ∀ answer, outcome = .ok answer → answer.apiKey ≠ none → a = .handed

section Calls

variable {env : Env} {id : RegistrationId} {h : Hub} {a : RegistrationPhase} {α : Type}

/-- Nothing is relied on. -/
abbrev anyway (_ _ : Hub) : Prop := True

theorem SameGrant.refl (h : Hub) : SameGrant id h h := ⟨rfl, rfl⟩

/-- An update of the request, if it is there. -/
theorem registrationUpdate_follows {a' : RegistrationPhase}
    {f : ServerRegistrationRequest → ServerRegistrationRequest}
    {post : RegistrationPhase → Hub → Except HubError ServerRegistrationRequest → Prop}
    (hfresh : a ≠ .fresh)
    (hmove : ∀ s row, s.registrations id = some row →
      RegistrationMove id a s { s with registrations := s.registrations.modify id f } a')
    (hpost : ∀ row t, post a' t (.ok (f row))) (herror : ∀ t error, post a t (.error error)) :
    (Prisma.registrationUpdate id f).Follows anyway (registrationMoves id) post a h := by
  refine Proc.follows_atomically_moves fun s _ => ?_
  cases hrow : s.registrations id with
  | none =>
      refine ⟨a, .error .recordNotFound, s, ?_, .stay (SameGrant.refl s) hfresh,
        fun t _ => herror t _⟩
      rw [Proc.run_atomically, hrow]
  | some row =>
      exact ⟨a', _, _, registrationUpdate_run hrow, hmove s row hrow, fun t _ => hpost row t⟩

theorem status_modify {f : ServerRegistrationRequest → ServerRegistrationRequest}
    {status : ServerRegistrationStatus} (hf : ∀ row, (f row).status = status)
    {row : ServerRegistrationRequest} (hrow : h.registrations id = some row) :
    ({ h with registrations := h.registrations.modify id f } : Hub).registrationStatus id =
      some status := by
  unfold Hub.registrationStatus
  rw [Table.modify_apply, if_pos rfl, hrow, Option.map_some, Option.map_some, hf]

/-- `expireIfNeeded` on the request as it was found. -/
theorem expireIfNeeded_follows {request : ServerRegistrationRequest}
    {post : RegistrationPhase → Hub → Except HubError ServerRegistrationRequest → Prop}
    (hkept : request.status ≠ .PENDING → ∀ t, post (.found (some request.status)) t (.ok request))
    (hready : request.status = .PENDING → ∀ t, post .ready t (.ok request))
    (hexpired : ∀ (row : ServerRegistrationRequest) t, post .idle t (.ok row.expired))
    (herror : ∀ t error, post .ready t (.error error)) :
    (ServerRegistrationsService.expireIfNeeded env id request).Follows anyway
      (registrationMoves id) post (.found (some request.status)) h := by
  unfold ServerRegistrationsService.expireIfNeeded
  refine .ite (fun hdone => Proc.follows_pure fun t _ => hkept hdone t) fun hpending => ?_
  have hpending := not_not.mp hpending
  rw [hpending]
  refine .bind (fun _ => trivial) (Proc.follows_take fun s _ => ⟨.ready, .clock ⟨rfl, rfl⟩,
    fun t _ => ?_⟩)
  refine .ite (fun _ => Proc.follows_pure fun t _ => hready hpending t) fun _ => ?_
  exact registrationUpdate_follows nofun
    (fun s row hrow => .refuse (status_modify (fun _ => rfl) hrow) rfl rfl) hexpired herror

/-- The transaction of an approval. -/
theorem approveTransaction_follows {ownerId : UserId} {request : ServerRegistrationRequest}
    {apiKeyHash : JsString} {envelope : RequestSecretEnvelope}
    {post : RegistrationPhase → Hub → Except HubError ServerRegistrationRequest → Prop}
    (hpost : ∀ a t outcome, post a t outcome) :
    (ServerRegistrationsService.approveTransaction env ownerId id request apiKeyHash
      envelope).Follows anyway (registrationMoves id) post .ready h := by
  refine Proc.follows_atomically_moves fun s _ => ?_
  cases hrow : s.registrations id with
  | none =>
      refine ⟨.ready, .error .recordNotFound, s, ?_, .stay (SameGrant.refl s) nofun,
        fun t _ => hpost _ t _⟩
      unfold ServersService.serverCreate Prisma.registrationUpdate
      simp only [Proc.run_bind, Proc.run_atomically, hrow]
  | some row =>
      obtain ⟨s', hrun, hledger, -⟩ :=
        @approveTransaction_run env s ownerId id request row apiKeyHash envelope hrow
      refine ⟨.idle, _, s', hrun, .approve ?_ ?_, fun t _ => hpost _ t _⟩
      · unfold Hub.registrationStatus
        rw [show s'.registrations = _ from congrArg Ledger.registrations hledger,
          Table.modify_apply, if_pos rfl, hrow]
        rfl
      · rw [show s'.servers = _ from congrArg Ledger.servers hledger, Table.insert_next]

/-- **`decide` acts on what it found.** -/
theorem decideRegistration_follows {ownerId : UserId} {approve : Bool} :
    (perform env (.decideRegistration ownerId id approve)).Follows anyway (registrationMoves id)
      KeyErased .fresh h := by
  -- it answers with no key
  have hanswer : ∀ (p : HubM PublicRegistration) a s,
      p.Follows anyway (registrationMoves id) (fun _ _ _ => True) a s →
      (.registration <$> p : HubM Response).Follows anyway
        (registrationMoves id) KeyErased a s := by
    intro p a s hp
    refine .bind (fun _ => trivial) (hp.mono fun a t outcome _ => ?_)
    cases outcome with
    | ok registration =>
        refine Proc.follows_pure fun t _ answer heq hkey => ?_
        cases heq
        exact absurd rfl hkey
    | error error => exact nofun
  refine hanswer _ _ _ ?_
  unfold ServerRegistrationsService.decide
  refine .bind (fun _ => trivial) (Proc.follows_read fun s₁ _ => ⟨_, .query, fun s₂ _ => ?_⟩)
  unfold Hub.registrationStatus
  dsimp only
  cases hrow : s₁.registrations id with
  | none => exact Proc.follows_throw fun _ _ => trivial
  | some request =>
    refine .ite (fun _ => Proc.follows_throw fun _ _ => trivial) fun _ => ?_
    refine .bind (fun _ => trivial) (expireIfNeeded_follows (fun hdone t => ?_)
      (fun hpending t => ?_) (fun row t => ?_) fun _ _ => trivial)
    · exact .ite (fun _ => Proc.follows_pure fun _ _ => trivial) fun hnot => absurd hdone hnot
    · refine .ite (fun _ => Proc.follows_pure fun _ _ => trivial) fun _ => .ite (fun _ => ?_)
        fun _ => ?_
      · exact .bind (fun _ => trivial) (registrationUpdate_follows nofun
          (fun s row hrow => .refuse (status_modify (fun _ => rfl) hrow) rfl rfl)
          (fun _ _ => Proc.follows_pure fun _ _ => trivial) fun _ _ => trivial)
      · refine .bind (fun _ => trivial) (Proc.follows_take fun s _ => ⟨.ready,
          .stay ⟨rfl, rfl⟩ nofun, fun t _ => .bind (fun _ => trivial)
          (Proc.follows_take fun s _ => ⟨.ready, .stay ⟨rfl, rfl⟩ nofun, fun t _ =>
            .bind (fun _ => trivial) (approveTransaction_follows fun a t outcome => ?_)⟩)⟩)
        cases outcome with
        | ok approved => exact Proc.follows_pure fun _ _ => trivial
        | error error => trivial
    · exact .ite (fun _ => Proc.follows_pure fun _ _ => trivial) fun hnot => absurd nofun hnot

/-- **`getResult` acts on what it found.** -/
theorem getResult_follows {secret : JsString} :
    (perform env (.getRegistrationResult id secret)).Follows anyway (registrationMoves id)
      KeyErased .fresh h := by
  -- the answer has a key only where the handler has ended at `handed`
  have hanswer : ∀ (p : HubM DaemonRegistrationResult) a s,
      p.Follows anyway (registrationMoves id) (fun a _ outcome => ∀ result, outcome = .ok result →
        result.apiKey ≠ none → a = .handed) a s →
      (.registrationResult <$> p : HubM Response).Follows anyway (registrationMoves id)
        KeyErased a s := by
    intro p a s hp
    refine .bind (fun _ => trivial) (hp.mono fun a t outcome hkey => ?_)
    cases outcome with
    | ok result =>
        refine Proc.follows_pure fun t _ answer heq hhanded => ?_
        cases heq
        exact hkey result rfl hhanded
    | error error => exact nofun
  -- `toDaemonResult` has none
  have hnothing : ∀ (row : ServerRegistrationRequest) (a : RegistrationPhase) (s : Hub),
      (pure (ServerRegistrationsService.toDaemonResult id row) :
        HubM DaemonRegistrationResult).Follows
        anyway (registrationMoves id) (fun a _ outcome => ∀ result, outcome = .ok result →
          result.apiKey ≠ none → a = .handed) a s := by
    intro row a s
    refine Proc.follows_pure fun t _ result heq hhanded => ?_
    cases heq
    exact absurd rfl hhanded
  refine hanswer _ _ _ ?_
  unfold ServerRegistrationsService.getResult
  refine .ite (fun _ => Proc.follows_throw fun _ _ => nofun) fun _ => ?_
  refine .bind (fun _ => trivial) (Proc.follows_read fun s₁ _ => ⟨_, .query, fun s₂ _ => ?_⟩)
  unfold Hub.registrationStatus
  dsimp only
  cases hrow : s₁.registrations id with
  | none => exact Proc.follows_throw fun _ _ => nofun
  | some request =>
    refine .ite (fun _ => Proc.follows_throw fun _ _ => nofun) fun _ => ?_
    refine .bind (fun _ => trivial) (expireIfNeeded_follows (fun hdone t => ?_)
      (fun hpending t => ?_) (fun row t => ?_) fun _ _ => nofun)
    · refine .ite (fun _ => hnothing _ _ _) fun happroved => ?_
      have happroved := not_not.mp happroved
      rw [happroved]
      split
      · exact hnothing _ _ _
      · split
        · exact Proc.follows_throw fun _ _ => nofun
        · refine .bind (fun _ => trivial) (registrationUpdate_follows nofun
            (fun s row hrow => .deliver (status_modify (fun _ => rfl) hrow) rfl)
            (fun row t => Proc.follows_pure fun _ _ _ _ _ => rfl) fun _ _ => nofun)
    · exact .ite (fun _ => hnothing _ _ _) fun hnot => absurd (by rw [hpending]; exact nofun) hnot
    · exact .ite (fun _ => hnothing _ _ _) fun hnot => absurd nofun hnot

/-- A sweep leaves the status of a request, or expires it. -/
theorem status_map (date : Time) :
    ({ h with registrations := h.registrations.map fun request =>
        if request.status = .PENDING ∧ request.expiresAt < date then
          { request with status := .EXPIRED }
        else request } : Hub).registrationStatus id = h.registrationStatus id ∨
      h.registrationStatus id = some .PENDING ∧
        ({ h with registrations := h.registrations.map fun request =>
          if request.status = .PENDING ∧ request.expiresAt < date then
            { request with status := .EXPIRED }
          else request } : Hub).registrationStatus id = some .EXPIRED := by
  unfold Hub.registrationStatus
  rw [Table.map_apply]
  cases h.registrations id with
  | none => exact .inl rfl
  | some row =>
      rw [Option.map_some, Option.map_some, Option.map_some]
      split
      · next hlate => exact .inr ⟨congrArg some hlate.1, rfl⟩
      · exact .inl rfl

/-- **A sweep** only expires what is pending. -/
theorem findPending_follows {ownerId : UserId} :
    (perform env (.findPendingRegistrations ownerId)).Follows anyway (registrationMoves id)
      KeyErased .idle h := by
  refine .bind (fun _ => trivial) (.bind (fun _ => trivial) (.bind (fun _ => trivial) ?_))
  refine Proc.follows_take fun s _ => ⟨.idle, .stay ⟨rfl, rfl⟩ nofun, fun t _ => ?_⟩
  refine Proc.follows_atomically fun s _ => ⟨.idle, .sweep ?_ ?_ rfl, fun t _ => ?_⟩
  · unfold Hub.granted
    rcases @status_map id s _ with hsame | ⟨hpending, hexpired⟩
    · rw [hsame]
    · rw [hpending, hexpired]
      rfl
  · intro hdelivered
    rcases @status_map id s _ with hsame | ⟨hpending, -⟩
    · exact hsame.trans hdelivered
    · rw [hpending] at hdelivered
      cases hdelivered
  · refine .bind (fun _ => trivial) (Proc.follows_read fun s _ => ⟨.idle,
      .stay ⟨rfl, rfl⟩ nofun, fun t _ => Proc.follows_pure fun t _ => Proc.follows_pure ?_⟩)
    intro t _ answer heq hkey
    cases heq
    exact absurd rfl hkey

end Calls

/-! ## The pool -/

/-- What a phase says of the past of a call. -/
def RegistrationPhase.Fits (id : RegistrationId) (thread : Thread Hub HubError Response) :
    RegistrationPhase → Prop
  | fresh => thread.past = []
  | found status => thread.past ≠ [] ∧ foundStatus id thread = status
  | ready => 2 ≤ thread.past.length ∧ foundStatus id thread = some .PENDING
  | idle | handed => True

/-- **What a pool of calls on one request looks like** while its schedule is
current: `n` is the number of servers to begin with. -/
structure Accounted (id : RegistrationId) (calls : List HubCall) (n : ℕ)
    (phase : ℕ → RegistrationPhase) (P : CallPool) : Prop where
  fits : ∀ (i : ℕ) thread, P.threads[i]? = some thread → (phase i).Fits id thread
  acts : ∀ i, phase i ≠ .idle → (calls[i]?.any (·.actsOn id)) = true
  created : P.shared.servers.next = if P.shared.granted id = true then n + 1 else n
  delivered : ∀ i, phase i = .handed →
    P.shared.registrationStatus id = some .CREDENTIAL_DELIVERED
  single : ∀ i j, phase i = .handed → phase j = .handed → i = j

section Pool

variable {env : Env} {id : RegistrationId} {calls : List HubCall} {n : ℕ} {h : Hub}
  {phase : ℕ → RegistrationPhase} {P : CallPool} {i : ℕ}

/-- The phase a call starts from. -/
def startPhase (id : RegistrationId) (calls : List HubCall) (i : ℕ) : RegistrationPhase :=
  if (calls[i]?.any (·.actsOn id)) = true then .fresh else .idle

/-- What a call found stays. -/
theorem foundStatus_append {thread : Thread Hub HubError Response} {program : HubM Response}
    {visits : List (Hub × Hub)} (hpast : thread.past ≠ []) :
    foundStatus id ⟨program, thread.past ++ visits⟩ = foundStatus id thread := by
  unfold foundStatus
  rw [List.head?_append_of_ne_nil _ hpast]

theorem granted_of_status {status : ServerRegistrationStatus}
    (hstatus : h.registrationStatus id = some status) : h.granted id = status.granted := by
  unfold Hub.granted
  rw [hstatus]
  rfl

/-- A step that keeps the status keeps the grant. -/
theorem SameGrant.granted {h' : Hub} (hsame : SameGrant id h h') :
    h'.granted id = h.granted id := by
  unfold Hub.granted
  rw [hsame.1]

/-- The past of a call grows as its phase says. -/
theorem RegistrationMove.fits {a a' : RegistrationPhase} {h' : Hub}
    {thread : Thread Hub HubError Response} {program : HubM Response}
    (hmove : RegistrationMove id a h h' a') (hfits : a.Fits id thread) :
    a'.Fits id ⟨program, thread.past ++ [(h, h')]⟩ := by
  cases hmove with
  | stay hsame hfresh =>
      cases a with
      | fresh => exact absurd rfl hfresh
      | found status => exact ⟨by simp, (foundStatus_append hfits.1).trans hfits.2⟩
      | ready =>
          have hpast : thread.past ≠ [] := List.length_pos_iff.mp (by have := hfits.1; omega)
          refine ⟨?_, (foundStatus_append hpast).trans hfits.2⟩
          rw [List.length_append]
          exact Nat.le_add_right_of_le hfits.1
      | idle => trivial
      | handed => trivial
  | query =>
      have hpast : thread.past = [] := hfits
      exact ⟨by simp, by simp [foundStatus, hpast]⟩
  | clock hsame =>
      refine ⟨?_, (foundStatus_append hfits.1).trans hfits.2⟩
      have hlength := List.length_pos_iff.mpr hfits.1
      simp only [List.length_append, List.length_singleton]
      omega
  | refuse => trivial
  | approve => trivial
  | deliver => trivial
  | sweep => trivial

/-- A call that moves acts on the request, or sweeps and stays idle. -/
theorem RegistrationMove.idle {a' : RegistrationPhase} {h' : Hub}
    (hmove : RegistrationMove id .idle h h' a') : a' = .idle := by
  cases hmove <;> rfl

/-- **What a current step comes to**: nothing, the grant, or the delivery. -/
inductive GrantStep (id : RegistrationId) (h h' : Hub) (a a' : RegistrationPhase) : Prop where
  | kept (hgranted : h'.granted id = h.granted id) (hservers : h'.servers.next = h.servers.next)
      (hdelivered : h.registrationStatus id = some .CREDENTIAL_DELIVERED →
        h'.registrationStatus id = some .CREDENTIAL_DELIVERED)
      (hhanded : a' = .handed → a = .handed)
  | granted (hopen : h.granted id = false) (hgranted : h'.granted id = true)
      (hservers : h'.servers.next = h.servers.next + 1) (hhanded : a' ≠ .handed)
  | delivered (happroved : h.registrationStatus id = some .APPROVED)
      (hdelivered : h'.registrationStatus id = some .CREDENTIAL_DELIVERED)
      (hservers : h'.servers.next = h.servers.next)

/-- Under a current schedule a step is nothing, the grant, or the delivery. -/
theorem RegistrationMove.grants {a a' : RegistrationPhase} {h' : Hub}
    {thread : Thread Hub HubError Response} (hmove : RegistrationMove id a h h' a')
    (hfits : a.Fits id thread)
    (hcurrent : a ≠ .idle →
      (foundStatus id thread = some .APPROVED → h.registrationStatus id = some .APPROVED) ∧
      (foundStatus id thread = some .PENDING → 2 ≤ thread.past.length → h.granted id = false)) :
    GrantStep id h h' a a' := by
  cases hmove with
  | stay hsame => exact .kept hsame.granted hsame.2 (fun h => hsame.1.trans h) fun h => h
  | query => exact .kept rfl rfl (fun h => h) nofun
  | clock hsame => exact .kept hsame.granted hsame.2 (fun h => hsame.1.trans h) nofun
  | refuse hstatus hrefused hservers =>
      have hopen := (hcurrent nofun).2 hfits.2 hfits.1
      refine .kept ?_ hservers (fun hdelivered => ?_) nofun
      · rw [granted_of_status hstatus, hrefused, hopen]
      · rw [granted_of_status hdelivered] at hopen
        cases hopen
  | approve hstatus hservers =>
      exact .granted ((hcurrent nofun).2 hfits.2 hfits.1) (granted_of_status hstatus) hservers nofun
  | deliver hstatus hservers =>
      exact .delivered ((hcurrent nofun).1 hfits.2) hstatus hservers
  | sweep hgranted hdelivered hservers => exact .kept hgranted hservers hdelivered nofun

/-- **One step of the protocols keeps the account**, where the schedule is current. -/
theorem Accounted.step {a' : RegistrationPhase} (haccount : Accounted id calls n phase P)
    (hlive : P.live i = true) (hcurrent : CallPool.Current id calls P i)
    (hmove : RegistrationMove id (phase i) P.shared (P.step i).shared a') :
    Accounted id calls n (Function.update phase i a') (P.step i) := by
  obtain ⟨thread, hthread, -⟩ := Pool.live_iff.mp hlive
  have hfits := haccount.fits i thread hthread
  have hacts := haccount.acts i
  -- the account depends on what the step grants, and on nothing else of the protocol
  have hgrants := hmove.grants hfits fun hphase => hcurrent (hacts hphase) thread hthread
  constructor
  · refine Pool.forall_step (J := fun _ a thread => RegistrationPhase.Fits id thread a) hlive
      haccount.fits fun other program shared hother _ hshared => ?_
    rw [← hshared]
    exact hmove.fits (haccount.fits i other hother)
  · intro j hj
    by_cases heq : j = i
    · subst heq
      rw [Function.update_self] at hj
      refine hacts fun hidle => hj ?_
      rw [hidle] at hmove
      exact hmove.idle
    · rw [Function.update_of_ne heq] at hj
      exact haccount.acts j hj
  · -- a server is created by the step that approves a request, and by no other
    have hcreated := haccount.created
    cases hgrants with
    | kept hgranted hservers => rw [hservers, hgranted, hcreated]
    | granted hopen hgranted hservers =>
        rw [hopen, if_neg nofun] at hcreated
        rw [hservers, hgranted, hcreated]
        rfl
    | delivered happroved hdelivered hservers =>
        rw [granted_of_status happroved] at hcreated
        rw [hservers, granted_of_status hdelivered, hcreated]
        rfl
  · intro j hj
    cases hgrants with
    | kept hgranted hservers hdelivered hhanded =>
        refine hdelivered ?_
        by_cases heq : j = i
        · subst heq
          rw [Function.update_self] at hj
          exact haccount.delivered j (hhanded hj)
        · rw [Function.update_of_ne heq] at hj
          exact haccount.delivered j hj
    | granted hopen hgranted hservers hhanded =>
        by_cases heq : j = i
        · subst heq
          rw [Function.update_self] at hj
          exact absurd hj hhanded
        · rw [Function.update_of_ne heq] at hj
          rw [granted_of_status (haccount.delivered j hj)] at hopen
          cases hopen
    | delivered _ hdelivered _ => exact hdelivered
  · -- the key is handed out once: who hands it out next finds the request delivered
    refine Pool.single_update (Q := (· = RegistrationPhase.handed)) haccount.single
      fun j hj hhanded => ?_
    cases hgrants with
    | kept _ _ _ hkept => exact hkept hhanded
    | granted _ _ _ hnot => exact absurd hhanded hnot
    | delivered happroved _ _ =>
        rw [haccount.delivered j hj] at happroved
        cases happroved

/-- Every call follows its protocol from its first phase. -/
theorem callPool_follows (hcalls : ∀ call ∈ calls, call.actsOn id = true ∨ call.sweeps = true) :
    (callPool env h calls).Follows anyway (fun _ => registrationMoves id) (fun _ => KeyErased)
      (startPhase id calls) := by
  refine Pool.follows_start fun i program hprogram => ?_
  rw [List.getElem?_map, Option.map_eq_some_iff] at hprogram
  obtain ⟨call, hcall, rfl⟩ := hprogram
  have hkind := hcalls call (List.mem_of_getElem? hcall)
  unfold startPhase
  rw [hcall, Option.any_some]
  cases call with
  | decideRegistration ownerId request approve =>
      obtain rfl : request = id := hkind.elim beq_iff_eq.mp nofun
      have hacts : HubCall.actsOn request (.decideRegistration ownerId request approve) = true :=
        beq_self_eq_true request
      rw [if_pos hacts]
      exact decideRegistration_follows
  | getRegistrationResult request secret =>
      obtain rfl : request = id := hkind.elim beq_iff_eq.mp nofun
      have hacts : HubCall.actsOn request (.getRegistrationResult request secret) = true :=
        beq_self_eq_true request
      rw [if_pos hacts]
      exact getResult_follows
  | findPendingRegistrations ownerId => exact findPending_follows
  | _ => exact hkind.elim nofun nofun

/-- At the beginning nothing is created and nothing handed out. -/
theorem accounted_start (hpending : h.registrationStatus id = some .PENDING) :
    Accounted id calls h.servers.next (startPhase id calls) (callPool env h calls) where
  fits i thread hthread := by
    unfold callPool Pool.start at hthread
    rw [List.getElem?_map, Option.map_eq_some_iff] at hthread
    obtain ⟨program, -, rfl⟩ := hthread
    unfold startPhase
    split <;> trivial
  acts i hi := by
    unfold startPhase at hi
    by_contra hnot
    exact hi (if_neg hnot)
  created := by
    rw [show (callPool env h calls).shared.granted id = false from granted_of_status hpending]
    rfl
  delivered i hi := by
    unfold startPhase at hi
    split at hi <;> cases hi
  single i j hi := by
    unfold startPhase at hi
    split at hi <;> cases hi

/-- **Concurrent calls on one request keep their promises** as long as every call
acts on the status it found: one server at most, granted exactly when there is
one, and one key handed out. -/
theorem registration_settled (hpending : h.registrationStatus id = some .PENDING)
    (hcalls : ∀ call ∈ calls, call.actsOn id = true ∨ call.sweeps = true) {schedule : List ℕ}
    (hruns : callMachine.Runs (callPool env h calls) schedule)
    (hcurrent : ∀ visit ∈ callMachine.visits (callPool env h calls) schedule,
      CallPool.Current id calls visit.1 visit.2) :
    CallPool.Settled h id (callMachine.exec (callPool env h calls) schedule) := by
  obtain ⟨phase, hfollows, haccount⟩ :=
    (callPool_follows hcalls).exec (C := CallPool.Current id calls)
    (fun _ => trivial) (fun _ _ => trivial) (fun _ _ _ _ _ _ => trivial)
    (fun _ _ _ _ _ hI hlive hcond _ hshared hmove =>
      Accounted.step hI hlive hcond (by rw [hshared]; exact hmove)) hruns hcurrent
    (accounted_start hpending)
  have hcreated := haccount.created
  constructor
  · rw [hcreated]
    split
    · exact .inr rfl
    · exact .inl rfl
  · rw [hcreated]
    split
    · next hgranted => exact iff_of_true hgranted rfl
    · next hopen => exact iff_of_false hopen (by omega)
  · have hhanded : ∀ i answer, (callMachine.exec (callPool env h calls) schedule).outcome? i =
        some (.ok answer) → answer.apiKey ≠ none → phase i = .handed := by
      intro i answer houtcome hkey
      obtain ⟨thread, hthread, hended⟩ := Option.bind_eq_some_iff.mp houtcome
      have hpost : KeyErased (phase i) (callMachine.exec (callPool env h calls) schedule).shared
          (.ok answer) := (hfollows i thread hthread).ended trivial hended
      exact hpost answer rfl hkey
    intro i j first second hi hfirst hj hsecond
    exact haccount.single i j (hhanded i first hi hfirst) (hhanded j second hj hsecond)

end Pool

/-- A Hub with one request, of user 0, and no server. -/
def Hub.requested : Hub :=
  Hub.after Env.registered { Hub.sample with servers := Table.empty, workerProfiles := Table.empty }
    (.createRegistration ⟨js "u0", js "host", .UBUNTU, js "100.64.0.1", js "f"⟩)

/-- An approval and its delivery, a rejection that comes too late, and a sweep. -/
theorem registration_settled_in_turn :
    CallPool.Settled Hub.requested 0 (callMachine.exec (callPool Env.registered Hub.requested
      [.decideRegistration 0 0 true,
        .getRegistrationResult 0 (generateSecret NodeCrypto.sample 0),
        .decideRegistration 0 0 false, .findPendingRegistrations 0])
      [0, 0, 0, 3, 0, 0, 1, 1, 2, 3, 3]) :=
  registration_settled (by decide) (by decide) (by decide)
    (by decide)

/-- **Two approvals of one request** both find it pending, and create two servers. -/
theorem registration_not_settled :
    let calls : List HubCall := [.decideRegistration 0 0 true, .decideRegistration 0 0 true]
    let schedule := [0, 1, 0, 0, 0, 0, 1, 1, 1, 1]
    Hub.requested.registrationStatus 0 = some .PENDING ∧
      (∀ call ∈ calls, call.actsOn 0 = true ∨ call.sweeps = true) ∧
      callMachine.Runs (callPool Env.registered Hub.requested calls) schedule ∧
      (callMachine.exec (callPool Env.registered Hub.requested calls) schedule).finished = true ∧
      ¬CallPool.Settled Hub.requested 0
        (callMachine.exec (callPool Env.registered Hub.requested calls) schedule) := by
  intro calls schedule
  refine ⟨by decide, by decide, by decide, by decide,
    fun hsettled => ?_⟩
  have htwo : (callMachine.exec (callPool Env.registered Hub.requested calls)
      schedule).shared.servers.next = Hub.requested.servers.next + 2 := by decide
  rcases hsettled.created with hnone | hone
  · exact absurd (hnone.symm.trans htwo) (by omega)
  · exact absurd (hone.symm.trans htwo) (by omega)

end CodeCaller
