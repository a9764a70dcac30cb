import CodeCaller.Hub.RegistrationRuns

/-!
# The life of a registration credential

A request is decided once, its server is created with the decision, and the key that opens the
daemon channel for that server is handed out once, to whoever knows the secret of the request.
`RegistrationChange` is the life of one request; the key is followed through encryption, storage
and decryption by `Keyed`.

### Main definitions

* `phase`: how far a request has come, as a number that only grows (`RegistrationChange.phase_le`).
  What is created or handed out once is counted against it.
* `Ledger.Keyed`: the keys of the servers are distinct draws, and what an approved request stores
  decrypts to the key of its own server.
* `serversCreated`, `keysHanded`: what a visit of a run does for a request.
* `CredentialLifecycle`: what is promised of a run.

### Main results

`credential_lifecycle`, for runs of calls one after the other.  The counting arguments are
instances of one rule for machines: a sum over the visits is bounded if each summand is paid for by
a growth of the phase.

### Assumptions

About the primitives, as far as they are used: the hash is injective, decryption under the right
key gives back what was encrypted, and two draws do not give the same key.  They are hypotheses of
the theorem, and `NodeCrypto.sample` satisfies them.
-/

namespace CodeCaller

open Async

variable {env : Env} {h : Hub} {call : HubCall} {l : Ledger}

/-! ## One request -/

/-- **The life of a request**, one change at a time. -/
inductive RegistrationChange (env : Env) (h : Hub) (call : HubCall) (l : Ledger)
    (id : RegistrationId) :
    Option ServerRegistrationRequest → Option ServerRegistrationRequest → Prop where
  | kept (row : Option ServerRegistrationRequest) : RegistrationChange env h call l id row row
  | created {request : ServerRegistrationRequest} (hpending : request.status = .PENDING)
      (hempty : request.apiKeyCiphertext = none) :
      RegistrationChange env h call l id none (some request)
  | expired {request : ServerRegistrationRequest} (hpending : request.status = .PENDING) :
      RegistrationChange env h call l id (some request) (some request.expired)
  | rejected {request : ServerRegistrationRequest} (hpending : request.status = .PENDING) :
      RegistrationChange env h call l id (some request) (some request.rejected)
  | approved {request : ServerRegistrationRequest} (envelope : RequestSecretEnvelope)
      (hcall : call = .decideRegistration request.ownerId id true)
      (hpending : request.status = .PENDING) (htime : env.clock h.reads ≤ request.expiresAt)
      (hserver : l.servers.next = h.servers.next + 1) :
      RegistrationChange env h call l id (some request)
        (some (request.approved h.servers.next envelope))
  | delivered {request : ServerRegistrationRequest} (happroved : request.status = .APPROVED) :
      RegistrationChange env h call l id (some request) (some request.delivered)
  | unlinked {request : ServerRegistrationRequest} (serverId : ServerId) :
      RegistrationChange env h call l id (some request) (some (request.unlinked serverId))

/-- A change of one request changes that row, or none. -/
theorem modify_registration {found : RegistrationId} {request : ServerRegistrationRequest}
    {f : ServerRegistrationRequest → ServerRegistrationRequest}
    (hrow : h.registrations found = some request)
    (hchange : RegistrationChange env h call l found (some request) (some (f request)))
    (id : RegistrationId) :
    RegistrationChange env h call l id (h.registrations id)
      (h.registrations.modify found f id) := by
  rw [Table.modify_apply]
  split
  · next heq =>
    rw [heq, hrow]
    exact hchange
  · exact .kept _

/-- **Every step of the ledger changes a request in one of these ways.** -/
theorem LedgerStep.registration (hstep : LedgerStep env h call l) (id : RegistrationId) :
    RegistrationChange env h call l id (h.registrations id) (l.registrations id) := by
  cases hstep with
  | idle => exact .kept _
  | created hcall hpending hempty =>
      rw [Table.insert_apply]
      split
      · next heq =>
        rw [h.registrations.fresh id heq.ge]
        exact .created hpending hempty
      · exact .kept _
  | swept date =>
      rw [Table.map_apply]
      cases h.registrations id with
      | none => exact .kept none
      | some request =>
          rw [Option.map_some, ServerRegistrationRequest.swept]
          split
          · next hlate => exact .expired hlate.1
          · exact .kept _
  | expired hrow hpending => exact modify_registration hrow (.expired hpending) id
  | rejected hrow hpending => exact modify_registration hrow (.rejected hpending) id
  | approved date hcall hrow hpending htime =>
      exact modify_registration hrow (.approved _ hcall hpending htime rfl) id
  | delivered hcall hrow happroved => exact modify_registration hrow (.delivered happroved) id
  | serverAdded => exact .kept _
  | serverRemoved =>
      rw [Table.map_apply]
      cases h.registrations id with
      | none => exact .kept none
      | some request => exact .unlinked _

/-- Losing its server changes nothing about a request but the reference. -/
@[simp] theorem unlinked_status (serverId : ServerId) (request : ServerRegistrationRequest) :
    (request.unlinked serverId).status = request.status := by
  unfold ServerRegistrationRequest.unlinked
  split <;> rfl

@[simp] theorem unlinked_ciphertext (serverId : ServerId) (request : ServerRegistrationRequest) :
    (request.unlinked serverId).apiKeyCiphertext = request.apiKeyCiphertext := by
  unfold ServerRegistrationRequest.unlinked
  split <;> rfl

/-- A request stores a ciphertext exactly when it is approved. -/
def SealedWhenApproved (row : Option ServerRegistrationRequest) : Prop :=
  ∀ request, row = some request →
    (request.apiKeyCiphertext.isSome = true ↔ request.status = .APPROVED)

/-- The envelope is stored with the approval and erased with the delivery. -/
theorem RegistrationChange.sealed {id : RegistrationId}
    {row row' : Option ServerRegistrationRequest}
    (hchange : RegistrationChange env h call l id row row')
    (hsealed : SealedWhenApproved row) : SealedWhenApproved row' := by
  intro request' heq
  have hpending : ∀ request : ServerRegistrationRequest, row = some request →
      request.status = .PENDING → request.apiKeyCiphertext.isSome = false := by
    intro request hrow hpending
    have hiff := hsealed request hrow
    rw [hpending] at hiff
    exact Bool.eq_false_iff.mpr fun hsome => nomatch hiff.mp hsome
  cases hchange with
  | kept => exact hsealed request' heq
  | created hnew hempty =>
      cases heq
      rw [hempty, hnew]
      exact iff_of_false nofun nofun
  | @expired request hbefore =>
      cases heq
      refine iff_of_false ?_ nofun
      rw [show request.expired.apiKeyCiphertext = request.apiKeyCiphertext from rfl,
        hpending request rfl hbefore]
      exact nofun
  | @rejected request hbefore =>
      cases heq
      refine iff_of_false ?_ nofun
      rw [show request.rejected.apiKeyCiphertext = request.apiKeyCiphertext from rfl,
        hpending request rfl hbefore]
      exact nofun
  | approved =>
      cases heq
      exact iff_of_true rfl rfl
  | delivered =>
      cases heq
      exact iff_of_false nofun nofun
  | @unlinked request =>
      cases heq
      rw [unlinked_status, unlinked_ciphertext]
      exact hsealed request rfl

/-- How far a request has come: open, approved, or done with. -/
def ServerRegistrationStatus.phase : ServerRegistrationStatus → ℕ
  | PENDING => 0
  | APPROVED => 1
  | REJECTED | EXPIRED | CREDENTIAL_DELIVERED => 2

/-- A request that is not there yet is open. -/
def phase (row : Option ServerRegistrationRequest) : ℕ := row.elim 0 (·.status.phase)

/-- The phase is read off the status. -/
theorem phase_eq (row : Option ServerRegistrationRequest) :
    phase row = (row.map (·.status)).elim 0 (·.phase) := by
  cases row <;> rfl

/-- Nobody has decided yet. -/
theorem phase_pending {request : ServerRegistrationRequest} (hpending : request.status = .PENDING) :
    phase (some request) = 0 := by
  change request.status.phase = 0
  rw [hpending]
  rfl

/-- A key is waiting to be delivered. -/
theorem phase_approved {request : ServerRegistrationRequest}
    (happroved : request.status = .APPROVED) : phase (some request) = 1 := by
  change request.status.phase = 1
  rw [happroved]
  rfl

theorem ServerRegistrationStatus.phase_le_two (status : ServerRegistrationStatus) :
    status.phase ≤ 2 := by
  cases status <;> decide

/-- The deletion of its server does not open a request again. -/
theorem phase_unlinked (serverId : ServerId) (request : ServerRegistrationRequest) :
    phase (some (request.unlinked serverId)) = phase (some request) := by
  change (request.unlinked serverId).status.phase = request.status.phase
  rw [unlinked_status]

/-- **A request only moves on.** -/
theorem RegistrationChange.phase_le {id : RegistrationId}
    {row row' : Option ServerRegistrationRequest}
    (hchange : RegistrationChange env h call l id row row') : phase row ≤ phase row' := by
  cases hchange with
  | kept => exact le_rfl
  | created => exact Nat.zero_le _
  | expired hpending => exact (phase_pending hpending).le.trans (Nat.zero_le _)
  | rejected hpending => exact (phase_pending hpending).le.trans (Nat.zero_le _)
  | approved _ _ hpending => exact (phase_pending hpending).le.trans (Nat.zero_le _)
  | @delivered request => exact request.status.phase_le_two
  | unlinked serverId => exact (phase_unlinked serverId _).ge

/-- What is done with stays as it is. -/
theorem RegistrationChange.done {id : RegistrationId}
    {row row' : Option ServerRegistrationRequest}
    (hchange : RegistrationChange env h call l id row row') (hdone : phase row = 2) :
    row'.map (·.status) = row.map (·.status) := by
  cases hchange with
  | kept => rfl
  | created => cases hdone
  | expired hpending =>
      rw [phase_pending hpending] at hdone
      cases hdone
  | rejected hpending =>
      rw [phase_pending hpending] at hdone
      cases hdone
  | approved _ _ hpending =>
      rw [phase_pending hpending] at hdone
      cases hdone
  | delivered happroved =>
      rw [phase_approved happroved] at hdone
      cases hdone
  | unlinked =>
      rw [Option.map_some, Option.map_some, unlinked_status]

/-- An approved request was approved before, or is decided now. -/
theorem RegistrationChange.approval {id : RegistrationId} {row : Option ServerRegistrationRequest}
    {request' : ServerRegistrationRequest}
    (hchange : RegistrationChange env h call l id row (some request'))
    (happroved : request'.status = .APPROVED) :
    (∃ request, row = some request ∧ request.status = .APPROVED ∧
      ∀ serverId, request'.serverId = some serverId → request.serverId = some serverId) ∨
    ∃ request, row = some request ∧ request.status = .PENDING ∧
      call = .decideRegistration request.ownerId id true ∧
      env.clock h.reads ≤ request.expiresAt ∧ request'.serverId = some h.servers.next ∧
      l.servers.next = h.servers.next + 1 := by
  cases hchange with
  | kept => exact .inl ⟨request', rfl, happroved, fun _ h => h⟩
  | created hpending =>
      rw [happroved] at hpending
      cases hpending
  | expired => cases happroved
  | rejected => cases happroved
  | approved envelope hcall hpending htime hserver =>
      exact .inr ⟨_, rfl, hpending, hcall, htime, rfl, hserver⟩
  | delivered => cases happroved
  | @unlinked request gone =>
      rw [unlinked_status] at happroved
      refine .inl ⟨request, rfl, happroved, fun serverId hserver => ?_⟩
      unfold ServerRegistrationRequest.unlinked at hserver
      split at hserver
      · cases hserver
      · exact hserver

/-! ## Keys -/

/-- Two strings the code generates have one hash only if they are the same
draw. -/
theorem hashApiKey_generated {crypto : NodeCrypto} (hsha : Function.Injective crypto.sha256)
    (hkeys : Function.Injective (generateApiKey crypto)) {d d' : ℕ}
    (heq : hashApiKey crypto (generateApiKey crypto d) =
      hashApiKey crypto (generateApiKey crypto d')) : d = d' :=
  hkeys (utf8Encode_injOn (hexEncode_ascii _) (hexEncode_ascii _)
    (hsha (hexEncode_injective heq)))

/-- A generated key is hexadecimal, so its UTF-8 bytes are its units. -/
theorem generateApiKey_ascii {crypto : NodeCrypto} (d : ℕ) : Ascii (generateApiKey crypto d) :=
  hexEncode_ascii _

/-- **The keys of the servers**: each was drawn, no two servers have one, and an
approved request that points to a server stores the key of that server. -/
structure Ledger.Keyed (env : Env) (l : Ledger) : Prop where
  drawn : ∀ {id server}, l.servers id = some server → ∃ d < l.draws,
    server.apiKeyHash = hashApiKey env.crypto (generateApiKey env.crypto d)
  distinct : ∀ {id id' server server'}, l.servers id = some server →
    l.servers id' = some server' → server.apiKeyHash = server'.apiKeyHash → id = id'
  stored : ∀ {id request serverId}, l.registrations id = some request →
    request.status = .APPROVED → request.serverId = some serverId →
    ∃ d e server, l.servers serverId = some server ∧
      server.apiKeyHash = hashApiKey env.crypto (generateApiKey env.crypto d) ∧
      ∀ envelope, ServerRegistrationsService.storedEnvelope request = some envelope →
        envelope = encryptForRequestSecret env.crypto e (generateApiKey env.crypto d)
          request.requestSecretHash

/-- A new server with a key drawn now. -/
theorem Ledger.Keyed.insert_servers (hk : l.Keyed env) (hsha : Function.Injective env.crypto.sha256)
    (hkeys : Function.Injective (generateApiKey env.crypto)) {server : Server}
    (hkey : server.apiKeyHash = hashApiKey env.crypto (generateApiKey env.crypto l.draws))
    {draws : ℕ} (hdraws : l.draws < draws) :
    (∀ {id row}, l.servers.insert server id = some row → ∃ d < draws,
      row.apiKeyHash = hashApiKey env.crypto (generateApiKey env.crypto d)) ∧
    ∀ {id id' row row'}, l.servers.insert server id = some row →
      l.servers.insert server id' = some row' → row.apiKeyHash = row'.apiKeyHash → id = id' := by
  have hnew : ∀ {id row}, l.servers id = some row → row.apiKeyHash ≠ server.apiKeyHash := by
    intro id row hrow heq
    obtain ⟨d, hd, hhash⟩ := hk.drawn hrow
    rw [hhash, hkey] at heq
    exact absurd (hashApiKey_generated hsha hkeys heq) hd.ne
  constructor
  · intro id row hrow
    rw [Table.insert_apply] at hrow
    split at hrow
    · cases hrow
      exact ⟨l.draws, hdraws, hkey⟩
    · obtain ⟨d, hd, hhash⟩ := hk.drawn hrow
      exact ⟨d, hd.trans hdraws, hhash⟩
  · intro id id' row row' hrow hrow' heq
    rw [Table.insert_apply] at hrow hrow'
    split at hrow <;> split at hrow'
    · next hid hid' => exact hid.trans hid'.symm
    · cases hrow
      exact absurd heq.symm (hnew hrow')
    · cases hrow'
      exact absurd heq (hnew hrow)
    · exact hk.distinct hrow hrow' heq

/-- A step that adds no server and approves no request. -/
theorem Ledger.Keyed.of_old {l' : Ledger} (hk : l.Keyed env) (hdraws : l.draws ≤ l'.draws)
    (hservers : ∀ {id server}, l'.servers id = some server → l.servers id = some server)
    (hold : ∀ {id request serverId}, l'.registrations id = some request →
      request.status = .APPROVED → request.serverId = some serverId →
      l.registrations id = some request ∧ l'.servers serverId = l.servers serverId) :
    l'.Keyed env where
  drawn hrow := by
    obtain ⟨d, hd, hhash⟩ := hk.drawn (hservers hrow)
    exact ⟨d, hd.trans_le hdraws, hhash⟩
  distinct hrow hrow' := hk.distinct (hservers hrow) (hservers hrow')
  stored hrow happroved hserver := by
    obtain ⟨hrow, hsame⟩ := hold hrow happroved hserver
    rw [hsame]
    exact hk.stored hrow happroved hserver

/-- An approval stores the envelope it was given. -/
theorem storedEnvelope_approved {request : ServerRegistrationRequest} {serverId : ServerId}
    {envelope stored : RequestSecretEnvelope}
    (hstored : ServerRegistrationsService.storedEnvelope (request.approved serverId envelope) =
      some stored) : stored = envelope := by
  unfold ServerRegistrationsService.storedEnvelope ServerRegistrationRequest.approved at hstored
  dsimp only at hstored
  split at hstored
  · cases hstored
  · cases hstored
    rfl

/-- What is approved after a change to something else was approved before. -/
theorem approved_of_modify {t : Table ServerRegistrationRequest} {id other : RegistrationId}
    {f : ServerRegistrationRequest → ServerRegistrationRequest}
    {request : ServerRegistrationRequest} (hf : ∀ row, (f row).status ≠ .APPROVED)
    (hrow : t.modify id f other = some request) (happroved : request.status = .APPROVED) :
    t other = some request := by
  rw [Table.modify_apply] at hrow
  split at hrow
  · obtain ⟨row, -, rfl⟩ := Option.map_eq_some_iff.mp hrow
    exact absurd happroved (hf row)
  · exact hrow

/-- What is stored for a request of before is still so when a server is added. -/
theorem Ledger.Keyed.stored_insert (hk : h.ledger.Keyed env) {server : Server} {id : RegistrationId}
    {request : ServerRegistrationRequest} {serverId : ServerId}
    (hrow : h.registrations id = some request) (happroved : request.status = .APPROVED)
    (hserver : request.serverId = some serverId) :
    ∃ d e row, h.servers.insert server serverId = some row ∧
      row.apiKeyHash = hashApiKey env.crypto (generateApiKey env.crypto d) ∧
      ∀ envelope, ServerRegistrationsService.storedEnvelope request = some envelope →
        envelope = encryptForRequestSecret env.crypto e (generateApiKey env.crypto d)
          request.requestSecretHash := by
  obtain ⟨d, e, row, hfound, hhash, henvelope⟩ := hk.stored hrow happroved hserver
  have hold : h.servers serverId = some row := hfound
  refine ⟨d, e, row, ?_, hhash, henvelope⟩
  rw [Table.insert_apply, if_neg (Table.lt_next hold).ne]
  exact hold

/-- A request is changed, and not approved by it. -/
theorem Ledger.Keyed.modify_registrations (hk : h.ledger.Keyed env) {id : RegistrationId}
    {f : ServerRegistrationRequest → ServerRegistrationRequest}
    (hf : ∀ row, (f row).status ≠ .APPROVED) :
    Ledger.Keyed env ⟨h.registrations.modify id f, h.servers, h.draws⟩ :=
  hk.of_old le_rfl (fun hrow => hrow) fun hrow happroved _ =>
    ⟨approved_of_modify hf hrow happroved, rfl⟩

/-- **Every step of the ledger keeps the keys.** -/
theorem LedgerStep.keyed (hstep : LedgerStep env h call l)
    (hsha : Function.Injective env.crypto.sha256)
    (hkeys : Function.Injective (generateApiKey env.crypto)) (hk : h.ledger.Keyed env) :
    l.Keyed env := by
  cases hstep with
  | idle hdraws => exact hk.of_old hdraws id fun hrow _ _ => ⟨hrow, rfl⟩
  | created hcall hpending =>
      refine hk.of_old (Nat.le_add_right _ 2) id fun hrow happroved _ => ⟨?_, rfl⟩
      rw [Table.insert_apply] at hrow
      split at hrow
      · cases hrow
        rw [hpending] at happroved
        cases happroved
      · exact hrow
  | swept date =>
      refine hk.of_old le_rfl id fun hrow happroved _ => ⟨?_, rfl⟩
      obtain ⟨row, hold, rfl⟩ := Option.map_eq_some_iff.mp hrow
      unfold ServerRegistrationRequest.swept at happroved ⊢
      split at happroved
      · cases happroved
      · next hnot =>
        rw [if_neg hnot]
        exact hold
  | expired => exact hk.modify_registrations fun _ => nofun
  | rejected => exact hk.modify_registrations fun _ => nofun
  | delivered => exact hk.modify_registrations fun _ => nofun
  | @approved id request apiKey date hcall hrow hpending htime hkey =>
      subst hkey
      obtain ⟨hdrawn, hdistinct⟩ := hk.insert_servers hsha hkeys
        (l := h.ledger) (show (request.server env _ date).apiKeyHash = _ from rfl)
        (Nat.lt_add_of_pos_right (Nat.succ_pos 1))
      refine ⟨hdrawn, hdistinct, fun {other row serverId} hother happroved hserver => ?_⟩
      rw [Table.modify_apply] at hother
      split at hother
      · rw [hrow] at hother
        cases hother
        cases hserver
        exact ⟨h.draws, h.draws + 1, _, if_pos rfl, rfl, fun _ => storedEnvelope_approved⟩
      · exact hk.stored_insert hother happroved hserver
  | serverAdded hcall hkey =>
      obtain ⟨hdrawn, hdistinct⟩ := hk.insert_servers hsha hkeys hkey (Nat.lt_succ_self _)
      exact ⟨hdrawn, hdistinct, fun hrow happroved hserver =>
        hk.stored_insert hrow happroved hserver⟩
  | @serverRemoved ownerId gone hcall =>
      refine hk.of_old le_rfl (fun hrow => (Option.filter_eq_some_iff.mp hrow).1) ?_
      intro id request serverId hrow happroved hserver
      obtain ⟨row, hold, rfl⟩ := Option.map_eq_some_iff.mp hrow
      unfold ServerRegistrationRequest.unlinked at hserver ⊢
      split at hserver
      · cases hserver
      · next hnot =>
        rw [if_neg hnot]
        refine ⟨hold, ?_⟩
        have hne : serverId ≠ gone := fun heq => hnot (heq ▸ hserver)
        change (h.servers serverId).filter (fun _ => serverId != gone) = h.servers serverId
        rw [bne_iff_ne.mpr hne]
        cases h.servers serverId <;> rfl

/-! ## What a call creates and hands out -/

/-- The number of servers a call creates for a request. -/
def serversCreated (env : Env) (id : RegistrationId) (visit : Hub × HubCall) : ℕ :=
  match visit.2 with
  | .decideRegistration _ request _ =>
    if request = id then (visit.1.after env visit.2).servers.next - visit.1.servers.next else 0
  | _ => 0

/-- The number of keys a call hands out for a request. -/
def keysHanded (env : Env) (id : RegistrationId) (visit : Hub × HubCall) : ℕ :=
  match visit.2 with
  | .getRegistrationResult request _ =>
    match visit.1.answer env visit.2 with
    | .ok (.registrationResult result) =>
      if request = id ∧ result.apiKey.isSome = true then 1 else 0
    | _ => 0
  | _ => 0

/-- **A server is created for an open request**, one, and the request is approved
with it. -/
theorem serversCreated_spec {id : RegistrationId} {visit : Hub × HubCall}
    (hcall : visit.2.Registers) (hcreated : serversCreated env id visit ≠ 0) :
    serversCreated env id visit = 1 ∧ phase (visit.1.registrations id) = 0 ∧
      phase ((visit.1.after env visit.2).registrations id) = 1 := by
  obtain ⟨h, call⟩ := visit
  have hstep := @after_ledger env h call hcall
  unfold serversCreated at hcreated ⊢
  dsimp only at hcreated ⊢ hcall
  split at hcreated
  · next ownerId request approve =>
    split at hcreated
    · next heq =>
      subst heq
      rw [if_pos rfl]
      generalize hl : (h.after env (.decideRegistration ownerId request approve)).ledger =
        l at hstep
      have hservers := congrArg Ledger.servers hl
      have hregistrations := congrArg Ledger.registrations hl
      change (h.after env (.decideRegistration ownerId request approve)).servers = _ at hservers
      change (h.after env (.decideRegistration ownerId request approve)).registrations = _
        at hregistrations
      rw [hservers] at hcreated ⊢
      rw [hregistrations]
      cases hstep with
      | approved date heq hrow hpending =>
          cases heq
          refine ⟨Nat.add_sub_cancel_left _ 1, ?_, ?_⟩
          · rw [hrow]
            exact phase_pending hpending
          · rw [Table.modify_apply, if_pos rfl, hrow]
            exact phase_approved rfl
      | serverAdded heq => cases heq
      | _ => exact absurd (Nat.sub_self _) hcreated
    · exact absurd rfl hcreated
  · exact absurd rfl hcreated

/-- What was found and done when a key is handed out. -/
theorem registrationResult_key {id : RegistrationId} {secret : JsString}
    {result : DaemonRegistrationResult} {apiKey : JsString}
    (hanswer : h.answer env (.getRegistrationResult id secret) = .ok (.registrationResult result))
    (hkey : result.apiKey = some apiKey) :
    ∃ request envelope, h.registrations id = some request ∧ request.status = .APPROVED ∧
      request.requestSecretHash = hashApiKey env.crypto secret ∧
      ServerRegistrationsService.storedEnvelope request = some envelope ∧
      decryptForRequestSecret env.crypto envelope request.requestSecretHash = some apiKey ∧
      result.serverId = request.serverId ∧
      (h.after env (.getRegistrationResult id secret)).ledger =
        ⟨h.registrations.modify id (·.delivered), h.servers, h.draws⟩ := by
  have hledger : (h.after env (.getRegistrationResult id secret)).ledger =
      ((ServerRegistrationsService.getResult env id secret).run h).2.ledger :=
    ledger_of_answer (fun _ => Proc.guarantees_pure _) h
  rw [hledger]
  refine (getResult_run env h id secret).2 result ?_ apiKey hkey
  change ((Response.registrationResult <$>
    ServerRegistrationsService.getResult env id secret).run h).1 = _ at hanswer
  rw [Proc.run_map] at hanswer
  cases hrun : (ServerRegistrationsService.getResult env id secret).run h with
  | mk outcome h' =>
    rw [hrun] at hanswer
    cases outcome with
    | ok value =>
        cases hanswer
        rfl
    | error error => cases hanswer

/-- **A key is handed out for an approved request**, which is delivered with it. -/
theorem keysHanded_spec {id : RegistrationId} {visit : Hub × HubCall}
    (hhanded : keysHanded env id visit ≠ 0) :
    keysHanded env id visit = 1 ∧ phase (visit.1.registrations id) = 1 ∧
      phase ((visit.1.after env visit.2).registrations id) = 2 := by
  obtain ⟨h, call⟩ := visit
  unfold keysHanded at hhanded ⊢
  dsimp only at hhanded ⊢
  split at hhanded
  · next request secret =>
    split at hhanded
    · next result hanswer =>
      split at hhanded
      · next hkey =>
        obtain ⟨rfl, hsome⟩ := hkey
        obtain ⟨apiKey, hapiKey⟩ := Option.isSome_iff_exists.mp hsome
        obtain ⟨row, envelope, hrow, happroved, -, -, -, -, hledger⟩ :=
          registrationResult_key hanswer hapiKey
        refine ⟨if_pos ⟨rfl, hsome⟩, ?_, ?_⟩
        · rw [hrow]
          exact phase_approved happroved
        · rw [show (h.after env (.getRegistrationResult request secret)).registrations = _ from
            congrArg Ledger.registrations hledger, Table.modify_apply, if_pos rfl, hrow]
          rfl
      · exact absurd rfl hhanded
    · exact absurd rfl hhanded
  · exact absurd rfl hhanded

/-! ## Runs -/

/-- **The life of the credentials of a run.** -/
structure CredentialLifecycle (env : Env) (first : Hub) (calls : List HubCall) : Prop where
  /-- A ciphertext is stored exactly for an approved request. -/
  ciphertext : ∀ front back, calls = front ++ back → ∀ id request,
    ((hubMachine env HubCall.Registers).exec first front).registrations id = some request →
    (request.apiKeyCiphertext.isSome = true ↔ request.status = .APPROVED)
  /-- A request is approved by a decision of its owner, taken not after it expired. -/
  approval : ∀ visit ∈ (hubMachine env HubCall.Registers).visits first calls, ∀ id request',
    (visit.1.after env visit.2).registrations id = some request' → request'.status = .APPROVED →
    ∃ request, visit.1.registrations id = some request ∧ (request.status = .APPROVED ∨
      request.status = .PENDING ∧ visit.2 = .decideRegistration request.ownerId id true ∧
        env.clock visit.1.reads ≤ request.expiresAt)
  one_server : ∀ id, (((hubMachine env HubCall.Registers).visits first calls).map
    (serversCreated env id)).sum ≤ 1
  /-- `REJECTED`, `EXPIRED` and `CREDENTIAL_DELIVERED` are never left. -/
  done : ∀ front middle back, calls = front ++ middle ++ back → ∀ id request,
    ((hubMachine env HubCall.Registers).exec first front).registrations id = some request →
    request.status.phase = 2 → ∃ request',
      ((hubMachine env HubCall.Registers).exec first (front ++ middle)).registrations id =
        some request' ∧ request'.status = request.status
  one_key : ∀ id, (((hubMachine env HubCall.Registers).visits first calls).map
    (keysHanded env id)).sum ≤ 1
  /-- A key is handed out to the secret of the request, and opens the channel of
  the server its approval created. -/
  key : ∀ visit ∈ (hubMachine env HubCall.Registers).visits first calls,
    ∀ id secret result apiKey, visit.2 = .getRegistrationResult id secret →
      visit.1.answer env visit.2 = .ok (.registrationResult result) →
      result.apiKey = some apiKey →
      (∃ request, visit.1.registrations id = some request ∧
        request.requestSecretHash = hashApiKey env.crypto secret) ∧
      ∃ serverId server, result.serverId = some serverId ∧
        (ServersService.findByApiKey env apiKey).run (visit.1.after env visit.2) =
          (.ok (some (serverId, server)), visit.1.after env visit.2) ∧
        ∃ approval ∈ (hubMachine env HubCall.Registers).visits first calls,
          serversCreated env id approval = 1 ∧ approval.1.servers.next = serverId

/-- An approved request was approved by a call of the run, which created the
server it points to. -/
theorem approved_created {first : Hub} {calls : List HubCall}
    (hempty : first.registrations = Table.empty)
    (hruns : (hubMachine env HubCall.Registers).Runs first calls) {id : RegistrationId}
    {request : ServerRegistrationRequest}
    (hrow : ((hubMachine env HubCall.Registers).exec first calls).registrations id = some request)
    (happroved : request.status = .APPROVED) :
    ∃ visit ∈ (hubMachine env HubCall.Registers).visits first calls,
      serversCreated env id visit = 1 ∧
        ∀ serverId, request.serverId = some serverId → visit.1.servers.next = serverId := by
  induction calls using List.reverseRecOn generalizing request with
  | nil =>
      rw [Machine.exec_nil, hempty] at hrow
      cases hrow
  | append_singleton calls call ih =>
      rw [Machine.runs_append, Machine.runs_cons] at hruns
      obtain ⟨hbefore, ⟨hcall, -⟩, -⟩ := hruns
      rw [Machine.exec_append] at hrow
      obtain ⟨h, hh⟩ : ∃ h, h = (hubMachine env HubCall.Registers).exec first calls := ⟨_, rfl⟩
      rw [← hh] at hrow ih
      have hchange := (@after_ledger env h call hcall).registration id
      rw [show (h.after env call).ledger.registrations id = some request from hrow] at hchange
      rw [Machine.visits_append]
      rcases hchange.approval happroved with
        ⟨old, hold, hbefore', hserver⟩ | ⟨old, hold, -, heq, -, hserver, hnext⟩
      · obtain ⟨visit, hvisit, hcreated, hsame⟩ := ih hbefore hold hbefore'
        exact ⟨visit, List.mem_append_left _ hvisit, hcreated,
          fun serverId hnew => hsame serverId (hserver serverId hnew)⟩
      · refine ⟨(h, call), List.mem_append_right _ ?_, ?_, ?_⟩
        · rw [hh, Machine.visits_cons]
          exact List.mem_cons_self
        · unfold serversCreated
          rw [heq]
          dsimp only
          rw [if_pos rfl]
          have hnext' : (h.after env call).servers.next = h.servers.next + 1 := hnext
          rw [← heq, hnext', Nat.add_sub_cancel_left]
        · intro serverId hnew
          rw [hserver] at hnew
          exact Option.some.inj hnew

/-- What is done with stays as it is from one state to another. -/
def DoneKept (row row' : Option ServerRegistrationRequest) : Prop :=
  phase row = 2 → row'.map (·.status) = row.map (·.status)

/-- What is done with after a part of the run is so after the whole. -/
theorem DoneKept.trans {row row' row'' : Option ServerRegistrationRequest}
    (hab : DoneKept row row') (hbc : DoneKept row' row'') : DoneKept row row'' := by
  intro hdone
  have hfirst := hab hdone
  refine (hbc ?_).trans hfirst
  rw [phase_eq, hfirst, ← phase_eq]
  exact hdone

/-- Without servers and requests there is nothing to keep. -/
theorem Hub.keyed_empty (hregistrations : h.registrations = Table.empty)
    (hservers : h.servers = Table.empty) : h.ledger.Keyed env where
  drawn hrow := by
    rw [show h.ledger.servers = Table.empty from hservers] at hrow
    cases hrow
  distinct hrow := by
    rw [show h.ledger.servers = Table.empty from hservers] at hrow
    cases hrow
  stored hrow := by
    rw [show h.ledger.registrations = Table.empty from hregistrations] at hrow
    cases hrow

section Runs

variable {first : Hub} {calls : List HubCall}

/-- Every visit of the run is a step of the ledger. -/
theorem visits_ledger (hruns : (hubMachine env HubCall.Registers).Runs first calls)
    {visit : Hub × HubCall}
    (hvisit : visit ∈ (hubMachine env HubCall.Registers).visits first calls) :
    LedgerStep env visit.1 visit.2 (visit.1.after env visit.2).ledger :=
  after_ledger (hruns visit hvisit).1

/-- **The invariants of a run.** -/
theorem keyed_along (hsha : Function.Injective env.crypto.sha256)
    (hkeys : Function.Injective (generateApiKey env.crypto))
    (hregistrations : first.registrations = Table.empty) (hservers : first.servers = Table.empty)
    (hruns : (hubMachine env HubCall.Registers).Runs first calls) {front back : List HubCall}
    (heq : calls = front ++ back) :
    ((hubMachine env HubCall.Registers).exec first front).ledger.Keyed env ∧ ∀ id,
      SealedWhenApproved (((hubMachine env HubCall.Registers).exec first front).registrations
        id) := by
  refine (Machine.holds_along_iff
    (P := fun h : Hub => h.ledger.Keyed env ∧ ∀ id, SealedWhenApproved (h.registrations id))
    (C := fun (_ : Hub) (_ : HubCall) => True) ⟨Hub.keyed_empty hregistrations hservers, ?_⟩
    ?_).mpr (fun _ _ => trivial) front back heq
  · intro id request hrow
    rw [hregistrations] at hrow
    cases hrow
  · rintro visit hvisit ⟨hkeyed, hsealed⟩
    have hstep := visits_ledger hruns hvisit
    exact iff_of_true ⟨hstep.keyed hsha hkeys hkeyed,
      fun id => (hstep.registration id).sealed (hsealed id)⟩ trivial

/-- A server is created while its request is open, and the request is open no more. -/
theorem serversCreated_sum_le (hruns : (hubMachine env HubCall.Registers).Runs first calls)
    (id : RegistrationId) :
    (((hubMachine env HubCall.Registers).visits first calls).map (serversCreated env id)).sum ≤
      1 := by
  refine Machine.sum_visits_le_one (Q := fun h : Hub => phase (h.registrations id) = 0) ?_ ?_ ?_
  · intro visit hvisit
    by_cases hzero : serversCreated env id visit = 0
    · exact hzero.le.trans (Nat.zero_le 1)
    · exact (serversCreated_spec (hruns visit hvisit).1 hzero).1.le
  · intro visit hvisit hcreated
    obtain ⟨-, hopen, happroved⟩ := serversCreated_spec (hruns visit hvisit).1 hcreated
    exact ⟨hopen, fun hstill => nomatch happroved.symm.trans hstill⟩
  · intro visit hvisit hopen
    exact Nat.le_zero.mp (((visits_ledger hruns hvisit).registration id).phase_le.trans hopen.le)

/-- A key is handed out before its request is done, and the request is done with it. -/
theorem keysHanded_sum_le (hruns : (hubMachine env HubCall.Registers).Runs first calls)
    (id : RegistrationId) :
    (((hubMachine env HubCall.Registers).visits first calls).map (keysHanded env id)).sum ≤ 1 := by
  refine Machine.sum_visits_le_one (Q := fun h : Hub => phase (h.registrations id) ≤ 1) ?_ ?_ ?_
  · intro visit hvisit
    by_cases hzero : keysHanded env id visit = 0
    · exact hzero.le.trans (Nat.zero_le 1)
    · exact (keysHanded_spec hzero).1.le
  · intro visit hvisit hhanded
    obtain ⟨-, happroved, hdone⟩ := keysHanded_spec hhanded
    refine ⟨happroved.le, fun hstill => ?_⟩
    rw [show phase (((hubMachine env HubCall.Registers).step visit.1 visit.2).registrations id) =
      2 from hdone] at hstill
    omega
  · intro visit hvisit hopen
    exact ((visits_ledger hruns hvisit).registration id).phase_le.trans hopen

/-- What is done with is left alone. -/
theorem done_along (hruns : (hubMachine env HubCall.Registers).Runs first calls)
    {front middle back : List HubCall} (heq : calls = front ++ middle ++ back)
    (id : RegistrationId) :
    DoneKept (((hubMachine env HubCall.Registers).exec first front).registrations id)
      (((hubMachine env HubCall.Registers).exec first (front ++ middle)).registrations id) := by
  rw [Machine.exec_append]
  refine @Machine.exec_related _ _ (hubMachine env HubCall.Registers)
    (fun h h' => DoneKept (h.registrations id) (h'.registrations id)) (fun _ _ => rfl)
    (fun hab hbc => hab.trans hbc) ((hubMachine env HubCall.Registers).exec first front) middle
    fun visit hvisit => ?_
  have hmem : visit ∈ (hubMachine env HubCall.Registers).visits first calls := by
    rw [heq, Machine.visits_append, Machine.visits_append]
    exact List.mem_append_left _ (List.mem_append_right _ hvisit)
  exact ((visits_ledger hruns hmem).registration id).done

end Runs

/-- A key is handed out for a request that still points to its server. -/
theorem storedEnvelope_linked {request : ServerRegistrationRequest}
    {envelope : RequestSecretEnvelope}
    (hstored : ServerRegistrationsService.storedEnvelope request = some envelope) :
    ∃ serverId, request.serverId = some serverId := by
  unfold ServerRegistrationsService.storedEnvelope at hstored
  split at hstored
  · next serverId _ _ _ hlinked _ _ _ => exact ⟨serverId, hlinked⟩
  · cases hstored

/-- **The key of an approved request** is the key of the server it points to. -/
theorem Ledger.Keyed.opens (hk : h.ledger.Keyed env)
    (hcipher : ∀ key iv plain, env.crypto.decrypt key iv (env.crypto.encrypt key iv plain).2
      (env.crypto.encrypt key iv plain).1 = some plain) {id : RegistrationId}
    {request : ServerRegistrationRequest} {envelope : RequestSecretEnvelope} {apiKey : JsString}
    (hrow : h.registrations id = some request) (happroved : request.status = .APPROVED)
    (hstored : ServerRegistrationsService.storedEnvelope request = some envelope)
    (hdecrypt : decryptForRequestSecret env.crypto envelope request.requestSecretHash =
      some apiKey) :
    ∃ serverId server, request.serverId = some serverId ∧ h.servers serverId = some server ∧
      server.apiKeyHash = hashApiKey env.crypto apiKey := by
  obtain ⟨serverId, hlinked⟩ := storedEnvelope_linked hstored
  obtain ⟨d, e, server, hserver, hhash, henvelope⟩ := hk.stored hrow happroved hlinked
  rw [henvelope envelope hstored, decryptForRequestSecret_encrypt
    (utf8Decode_utf8Encode (generateApiKey_ascii d)) (hcipher _ _ _)] at hdecrypt
  cases hdecrypt
  exact ⟨serverId, server, hlinked, hserver, hhash⟩

/-- **Registration credentials**: in every run of operations on registrations and
servers, from a Hub without either. -/
theorem credential_lifecycle (hsha : Function.Injective env.crypto.sha256)
    (hkeys : Function.Injective (generateApiKey env.crypto))
    (hcipher : ∀ key iv plain, env.crypto.decrypt key iv (env.crypto.encrypt key iv plain).2
      (env.crypto.encrypt key iv plain).1 = some plain)
    {first : Hub} {calls : List HubCall} (hregistrations : first.registrations = Table.empty)
    (hservers : first.servers = Table.empty)
    (hruns : (hubMachine env HubCall.Registers).Runs first calls) :
    CredentialLifecycle env first calls := by
  refine ⟨?_, ?_, serversCreated_sum_le hruns, ?_, keysHanded_sum_le hruns, ?_⟩
  · exact fun front back heq id =>
      (keyed_along hsha hkeys hregistrations hservers hruns heq).2 id
  · intro visit hvisit id request' hrow happroved
    have hchange := (visits_ledger hruns hvisit).registration id
    rw [show (visit.1.after env visit.2).ledger.registrations id = some request' from hrow]
      at hchange
    rcases hchange.approval happroved with
      ⟨request, hbefore, hstatus, -⟩ | ⟨request, hbefore, hpending, hcall, htime, -⟩
    · exact ⟨request, hbefore, .inl hstatus⟩
    · exact ⟨request, hbefore, .inr ⟨hpending, hcall, htime⟩⟩
  · intro front middle back heq id request hrow hdone
    have hstatus := done_along hruns heq id (by rw [hrow]; exact hdone)
    rw [hrow] at hstatus
    exact Option.map_eq_some_iff.mp hstatus
  · intro visit hvisit id secret result apiKey hcall hanswer hkey
    obtain ⟨front, back, heq, hfront⟩ := (Machine.mem_visits_iff _).mp hvisit
    rw [hcall] at hanswer
    obtain ⟨request, envelope, hrow, happroved, hsecret, hstored, hdecrypt, hserverId, hledger⟩ :=
      registrationResult_key hanswer hkey
    have hkeyed := (keyed_along hsha hkeys hregistrations hservers hruns heq).1
    rw [← hfront] at hkeyed
    obtain ⟨serverId, server, hlinked, hserver, hhash⟩ :=
      hkeyed.opens hcipher hrow happroved hstored hdecrypt
    have hstored' : (visit.1.after env visit.2).servers serverId = some server := by
      rw [hcall, show (visit.1.after env (.getRegistrationResult id secret)).servers = _ from
        congrArg Ledger.servers hledger]
      exact hserver
    have hkeyed' := (visits_ledger hruns hvisit).keyed hsha hkeys hkeyed
    refine ⟨⟨request, hrow, hsecret⟩, serverId, server, hserverId.trans hlinked,
      findByApiKey_only hstored' hhash fun _ _ hother hsame =>
        hkeyed'.distinct hother hstored' (hsame.trans hhash.symm), ?_⟩
    -- the request was approved before its key is handed out
    have hruns' := hruns
    rw [heq, Machine.runs_append] at hruns'
    rw [hfront] at hrow
    obtain ⟨approval, happroval, hcreated, hsame⟩ :=
      approved_created hregistrations hruns'.1 hrow happroved
    refine ⟨approval, ?_, hcreated, hsame serverId hlinked⟩
    rw [heq, Machine.visits_append]
    exact List.mem_append_left _ happroval

/-! ## A registration -/

/-- The secret of the sample request and its key, as they are hashed. -/
def sampleSecret : Bytes := utf8Encode (hexEncode (List.replicate 32 0))
def sampleKey : Bytes := utf8Encode (hexEncode (List.replicate 32 2))

/-- Their digests, and the digest of the hash of the secret: the cipher key. -/
def sampleSecretHash : Bytes :=
  [0x60, 0xe0, 0x5b, 0xd1, 0xb1, 0x95, 0xaf, 0x2f, 0x94, 0x11, 0x2f, 0xa7, 0x19, 0x7a, 0x5c,
   0x88, 0x28, 0x90, 0x58, 0x84, 0x0c, 0xe7, 0xc6, 0xdf, 0x96, 0x93, 0x75, 0x6b, 0xc6, 0x25,
   0x0f, 0x55]

def sampleKeyHash : Bytes :=
  [0x74, 0x9f, 0x1a, 0x97, 0xff, 0x6c, 0xd0, 0x0e, 0xa4, 0x6c, 0xcb, 0x3a, 0x47, 0xbb, 0x12,
   0x32, 0x83, 0xfe, 0x56, 0xc8, 0xfa, 0x32, 0x4b, 0xea, 0x29, 0x5d, 0x92, 0x8f, 0x55, 0x81,
   0x61, 0xdf]

def sampleCipherKey : Bytes :=
  [0x63, 0x25, 0x00, 0xb1, 0x74, 0x29, 0x87, 0x81, 0x5b, 0xf1, 0xe7, 0xeb, 0xc4, 0x9d, 0x1d,
   0xa6, 0xed, 0x2d, 0xd9, 0x65, 0x96, 0x23, 0xbe, 0xf3, 0xf9, 0xb9, 0x6b, 0xf5, 0xe7, 0x5a,
   0xb7, 0x02]

/-- The key under the cipher key, and the tag. -/
def sampleCiphertext : Bytes :=
  [0x74, 0x6f, 0xe5, 0xa9, 0x10, 0x42, 0x3e, 0x97, 0x05, 0x4e, 0x28, 0x5f, 0x34, 0xa0, 0xed,
   0x3c, 0xfa, 0x2d, 0xbc, 0x94, 0xe1, 0xbd, 0xc8, 0xbe, 0x70, 0x12, 0x1d, 0x7f, 0xd7, 0x9a,
   0xed, 0x84, 0xfe, 0xb3, 0xa5, 0xb4, 0x7c, 0x2d, 0x2d, 0x79, 0x17, 0x39, 0x3a, 0xe8, 0xf7,
   0x08, 0x89, 0x3d, 0x05, 0x89, 0x99, 0x8b, 0x6a, 0x10, 0xc4, 0x79, 0x2e, 0x59, 0x06, 0xb6,
   0xd1, 0xbc, 0x7b, 0xc3]

def sampleTag : Bytes :=
  [0x11, 0x87, 0x9d, 0x4b, 0x58, 0x5d, 0x66, 0x9d, 0xdf, 0xee, 0x58, 0x0c, 0xc3, 0x18, 0x0d,
   0x11]

/-- The primitives as they answer in one registration.  Elsewhere the hash and the
cipher put their argument in a form of their own, and a draw past the ones used is
longer. -/
def NodeCrypto.sample : NodeCrypto where
  sha256 bytes :=
    if bytes = sampleSecret then sampleSecretHash
    else if bytes = sampleKey then sampleKeyHash
    else if bytes = utf8Encode (hexEncode sampleSecretHash) then sampleCipherKey
    else List.replicate 33 0 ++ bytes
  randomBytes draw size :=
    if draw < 256 then List.replicate size draw.toUInt8 else List.replicate (size + draw) 0
  encrypt key iv plain :=
    if key = sampleCipherKey ∧ iv = List.replicate 12 3 ∧ plain = sampleKey then
      (sampleCiphertext, sampleTag)
    else (plain, [])
  decrypt key iv authTag data :=
    if key = sampleCipherKey ∧ iv = List.replicate 12 3 ∧ authTag = sampleTag ∧
      data = sampleCiphertext then some sampleKey
    else if authTag = [] then some data
    else none

/-- The sample hash is injective. -/
theorem NodeCrypto.sample_sha256_injective : Function.Injective NodeCrypto.sample.sha256 := by
  -- a digest has 32 bytes, what is not in the table is longer
  have hlong : ∀ (bytes digest : Bytes), digest.length = 32 →
      digest ≠ List.replicate 33 0 ++ bytes := by
    rintro bytes digest hlength rfl
    rw [List.length_append, List.length_replicate] at hlength
    omega
  have hsecret : sampleSecretHash.length = 32 := by decide
  have hkey : sampleKeyHash.length = 32 := by decide
  have hcipher : sampleCipherKey.length = 32 := by decide
  have hne : sampleSecretHash ≠ sampleKeyHash ∧ sampleSecretHash ≠ sampleCipherKey ∧
      sampleKeyHash ≠ sampleCipherKey := by decide
  obtain ⟨hne₁, hne₂, hne₃⟩ := hne
  intro a b hab
  simp only [NodeCrypto.sample] at hab
  split_ifs at hab with ha hb hb hb ha hb hb hb ha hb hb hb hb hb hb
  all_goals
    first
    | exact ha.trans hb.symm
    | exact List.append_cancel_left hab
    | exact absurd hab (hlong _ _ ‹_›)
    | exact absurd hab.symm (hlong _ _ ‹_›)
    | exact absurd hab ‹_›
    | exact absurd hab.symm ‹_›

/-- Two draws give two keys. -/
theorem NodeCrypto.sample_keys_injective :
    Function.Injective (generateApiKey NodeCrypto.sample) := by
  intro d d' heq
  have hbytes := hexEncode_injective heq
  simp only [NodeCrypto.sample] at hbytes
  have hlength := congrArg List.length hbytes
  split_ifs at hbytes hlength with hd hd' hd'
  · -- both were drawn in the run: the bytes tell them apart
    have hbyte : d.toUInt8 = d'.toUInt8 := (List.replicate_right_inj (by decide)).mp hbytes
    have hnat := congrArg UInt8.toNat hbyte
    simpa [Nat.mod_eq_of_lt hd, Nat.mod_eq_of_lt hd'] using hnat
  · rw [List.length_replicate, List.length_replicate] at hlength
    omega
  · rw [List.length_replicate, List.length_replicate] at hlength
    omega
  · rw [List.length_replicate, List.length_replicate] at hlength
    omega

/-- What the sample cipher encrypts it decrypts. -/
theorem NodeCrypto.sample_decrypts (key iv plain : Bytes) :
    NodeCrypto.sample.decrypt key iv (NodeCrypto.sample.encrypt key iv plain).2
      (NodeCrypto.sample.encrypt key iv plain).1 = some plain := by
  unfold NodeCrypto.sample
  dsimp only
  by_cases hsample : key = sampleCipherKey ∧ iv = List.replicate 12 3 ∧ plain = sampleKey
  · rw [if_pos hsample]
    dsimp only
    rw [if_pos ⟨hsample.1, hsample.2.1, rfl, rfl⟩, hsample.2.2]
  · rw [if_neg hsample]
    dsimp only
    rw [if_neg fun hother => absurd hother.2.2.1 (by decide), if_pos rfl]

/-- Surroundings with a clock in milliseconds. -/
def Env.registered : Env := { Env.sample with clock := fun n => n, crypto := .sample }

/-- A registration that is approved and collected, once, before its server is
removed. -/
theorem credential_lifecycle_collected :
    let first := { Hub.sample with servers := Table.empty, workerProfiles := Table.empty }
    let secret := generateSecret NodeCrypto.sample 0
    let calls := [.createRegistration ⟨js "u0", js "host", .UBUNTU, js "100.64.0.1", js "f"⟩,
      .findPendingRegistrations 0, .decideRegistration 0 0 true, .getRegistrationResult 0 secret,
      .getRegistrationResult 0 secret, .removeServer 0 0]
    CredentialLifecycle Env.registered first calls ∧
      (((hubMachine Env.registered HubCall.Registers).visits first calls).map
        (keysHanded Env.registered 0)).sum = 1 := by
  intro first secret calls
  exact ⟨credential_lifecycle NodeCrypto.sample_sha256_injective NodeCrypto.sample_keys_injective
    NodeCrypto.sample_decrypts rfl rfl (by decide), by decide⟩

end CodeCaller
