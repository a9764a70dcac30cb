import CodeCaller.Fleet.Registering

/-!
# What a poll is answered

The calls of a registration rely on little of each other: the clock does not go back, the servers
stay, and the request remains `Registered`.  Every node of every call guarantees the same.  What a
poll is answered then depends on the status it found alone: a poll that found the request approved
hands out the key, and any other poll hands out none, and says `EXPIRED` only after the time of the
request.

### The pieces

* `NodeCrypto.Documented`: what is relied on of Node's `crypto`.
* `Registered`: the request as the calls keep it, with the key of its server sealed for its secret
  once it is approved.
* `Grown`: what a call relies on and guarantees; `Registered` is stable under it.
* `PollPhase`, `PollMove`: what a poll has found, and the steps of the calls.
* `Answers`: what a call answers, from the phase it ends in.  The programs follow the protocol with
  this as their post-condition, and `Fleet.Collecting` never looks at them again.
-/

namespace CodeCaller

open Async

/-- **What is relied on of Node's `crypto`**: `aes-256-gcm` inverts, keeps the length of a
text and adds a tag of 16 bytes; a SHA-256 digest has 32 bytes; `randomBytes` draws as many
bytes as it is asked for. -/
structure NodeCrypto.Documented (crypto : NodeCrypto) : Prop where
  aes : crypto.Decrypts
  data : ∀ key iv plain : Bytes, key.length = 32 → iv.length = 12 →
    (crypto.encrypt key iv plain).1.length = plain.length
  authTag : ∀ key iv plain : Bytes, key.length = 32 → iv.length = 12 →
    (crypto.encrypt key iv plain).2.length = 16
  digest : ∀ bytes, (crypto.sha256 bytes).length = 32
  random : ∀ draw size, (crypto.randomBytes draw size).length = size

section Keys

variable {crypto : NodeCrypto}

/-- Two digits for a byte. -/
theorem hexEncode_ne_nil {bytes : Bytes} (hbytes : bytes.length ≠ 0) : hexEncode bytes ≠ [] := by
  cases bytes with
  | nil => exact absurd rfl hbytes
  | cons byte rest => exact nofun

/-- A key is not empty, so the result shows whether there is one. -/
theorem generateApiKey_ne_nil (hcrypto : crypto.Documented) (draw : ℕ) :
    generateApiKey crypto draw ≠ [] := by
  refine hexEncode_ne_nil ?_
  rw [hcrypto.random]
  decide

/-- The UTF-8 bytes of a key are its characters. -/
theorem utf8Encode_length {s : JsString} (hs : Ascii s) : (utf8Encode s).length = s.length := by
  induction s with
  | nil => rfl
  | cons unit rest ih =>
      rw [utf8Encode_cons (hs unit List.mem_cons_self), List.length_cons, List.length_cons,
        ih fun other hother => hs other (List.mem_cons_of_mem _ hother)]

/-- No part of a sealed key is empty. -/
theorem encryptForRequestSecret_nonempty (hcrypto : crypto.Documented) (d e : ℕ)
    (hash : JsString) :
    let envelope := encryptForRequestSecret crypto e (generateApiKey crypto d) hash
    envelope.ciphertext ≠ [] ∧ envelope.iv ≠ [] ∧ envelope.authTag ≠ [] := by
  have hkey : (crypto.sha256 (utf8Encode hash)).length = 32 := hcrypto.digest _
  have hiv : (crypto.randomBytes e 12).length = 12 := hcrypto.random e 12
  refine ⟨hexEncode_ne_nil ?_, hexEncode_ne_nil ?_, hexEncode_ne_nil ?_⟩
  · rw [hcrypto.data _ _ _ hkey hiv, utf8Encode_length (generateApiKey_ascii d)]
    exact fun hzero => generateApiKey_ne_nil hcrypto d (List.length_eq_zero_iff.mp hzero)
  · rw [hiv]
    decide
  · rw [hcrypto.authTag _ _ _ hkey hiv]
    decide

/-- **The envelope an approval stores is whole.** -/
theorem storedEnvelope_sealed (hcrypto : crypto.Documented) (d e : ℕ) (hash : JsString)
    (serverId : ServerId) (row : ServerRegistrationRequest) :
    ServerRegistrationsService.storedEnvelope (row.approved serverId
        (encryptForRequestSecret crypto e (generateApiKey crypto d) hash)) =
      some (encryptForRequestSecret crypto e (generateApiKey crypto d) hash) := by
  obtain ⟨hciphertext, hiv, hauthTag⟩ := encryptForRequestSecret_nonempty hcrypto d e hash
  unfold ServerRegistrationsService.storedEnvelope ServerRegistrationRequest.approved
  dsimp only
  rw [List.isEmpty_eq_false_iff.mpr hciphertext, List.isEmpty_eq_false_iff.mpr hiv,
    List.isEmpty_eq_false_iff.mpr hauthTag]
  rfl

end Keys

/-! ## The request -/

section Request

variable (env : Env) (request : CreatedRequest)

/-- The request is past its time. -/
def Late (h : Hub) : Prop := request.expiresAt < env.clock h.reads

/-- The request stores a key of its server, sealed for its secret. -/
def Sealed (h : Hub) (row : ServerRegistrationRequest) : Prop :=
  ∃ d e serverId server, row.serverId = some serverId ∧ h.servers serverId = some server ∧
    server.apiKeyHash = hashApiKey env.crypto (generateApiKey env.crypto d) ∧
    ServerRegistrationsService.storedEnvelope row =
      some (encryptForRequestSecret env.crypto e (generateApiKey env.crypto d)
        row.requestSecretHash)

/-- **The request as the calls keep it.** -/
structure Registered (h : Hub) (row : ServerRegistrationRequest) : Prop where
  stored : h.registrations request.id = some row
  hash : row.requestSecretHash = hashApiKey env.crypto request.requestSecret
  expiresAt : row.expiresAt = request.expiresAt
  unrejected : row.status ≠ .REJECTED
  late : row.status = .EXPIRED → Late env request h
  sealing : row.status = .APPROVED → Sealed env h row

/-- **What a call relies on, and guarantees.** -/
structure Grown (h h' : Hub) : Prop where
  reads : h.reads ≤ h'.reads
  servers : ∀ id server, h.servers id = some server → h'.servers id = some server
  registered : (∃ row, Registered env request h row) → ∃ row, Registered env request h' row

end Request

section Grown

variable {env : Env} {request : CreatedRequest} {h h' h'' : Hub} {row : ServerRegistrationRequest}

/-- Nothing happens. -/
theorem Grown.refl (h : Hub) : Grown env request h h := ⟨le_rfl, fun _ _ h => h, fun h => h⟩

/-- What is relied on node by node is relied on over any time. -/
theorem Grown.trans (hfirst : Grown env request h h') (hsecond : Grown env request h' h'') :
    Grown env request h h'' where
  reads := hfirst.reads.trans hsecond.reads
  servers id server hserver := hsecond.servers id server (hfirst.servers id server hserver)
  registered hrow := hsecond.registered (hfirst.registered hrow)

/-- A request that is past its time stays so. -/
theorem Late.mono (hclock : Monotone env.clock) (hreads : h.reads ≤ h'.reads)
    (hlate : Late env request h) : Late env request h' :=
  lt_of_lt_of_le hlate (hclock hreads)

/-- A sealed key stays the key of its server. -/
theorem Sealed.mono (hservers : ∀ id server, h.servers id = some server →
    h'.servers id = some server) (hsealed : Sealed env h row) : Sealed env h' row := by
  obtain ⟨d, e, serverId, server, hid, hserver, hrest⟩ := hsealed
  exact ⟨d, e, serverId, server, hid, hservers serverId server hserver, hrest⟩

/-- A key that was handed out stays the key of its server. -/
theorem Credential.mono {result : DaemonRegistrationResult}
    (hservers : ∀ id server, h.servers id = some server → h'.servers id = some server)
    (hcredential : Registering.Credential env h result) : Registering.Credential env h' result := by
  obtain ⟨apiKey, serverId, server, hkey, hid, hserver, hhash⟩ := hcredential
  exact ⟨apiKey, serverId, server, hkey, hid, hservers serverId server hserver, hhash⟩

/-- The request stays as it is while the state grows. -/
theorem Registered.kept (hclock : Monotone env.clock) (hrow : Registered env request h row)
    (hstored : h'.registrations request.id = h.registrations request.id)
    (hreads : h.reads ≤ h'.reads)
    (hservers : ∀ id server, h.servers id = some server → h'.servers id = some server) :
    Registered env request h' row where
  stored := hstored.trans hrow.stored
  hash := hrow.hash
  expiresAt := hrow.expiresAt
  unrejected := hrow.unrejected
  late hexpired := (hrow.late hexpired).mono hclock hreads
  sealing happroved := (hrow.sealing happroved).mono hservers

/-- A step that does not touch the request keeps what is known of it. Only time may make it late,
and time does not go back. -/
theorem Grown.of_kept (hclock : Monotone env.clock)
    (hstored : h'.registrations request.id = h.registrations request.id)
    (hreads : h.reads ≤ h'.reads)
    (hservers : ∀ id server, h.servers id = some server → h'.servers id = some server) :
    Grown env request h h' where
  reads := hreads
  servers := hservers
  registered := fun ⟨row, hrow⟩ => ⟨row, hrow.kept hclock hstored hreads hservers⟩

/-- The clock is read. -/
theorem Grown.read (hclock : Monotone env.clock) :
    Grown env request h { h with reads := h.reads + 1 } :=
  .of_kept hclock rfl (Nat.le_succ _) fun _ _ h => h

/-- The random source is used. -/
theorem Grown.draw (hclock : Monotone env.clock) :
    Grown env request h { h with draws := h.draws + 1 } :=
  .of_kept hclock rfl le_rfl fun _ _ h => h

/-- The request is updated. -/
theorem Grown.of_update {f : ServerRegistrationRequest → ServerRegistrationRequest}
    (hf : ∀ row, Registered env request h row → Registered env request
      { h with registrations := h.registrations.modify request.id f } (f row)) :
    Grown env request h { h with registrations := h.registrations.modify request.id f } where
  reads := le_rfl
  servers _ _ h := h
  registered := fun ⟨row, hrow⟩ => ⟨f row, hf row hrow⟩

/-- The row after an update. -/
theorem modify_registrations {f : ServerRegistrationRequest → ServerRegistrationRequest}
    (hrow : h.registrations request.id = some row) :
    (h.registrations.modify request.id f) request.id = some (f row) := by
  rw [Table.modify_apply, if_pos rfl, hrow, Option.map_some]

/-- Expiry is a status, and leaves the rest as it is. -/
theorem Registered.expired (hrow : Registered env request h row) (hlate : Late env request h) :
    Registered env request { h with
      registrations := h.registrations.modify request.id (·.expired) } row.expired where
  stored := modify_registrations hrow.stored
  hash := hrow.hash
  expiresAt := hrow.expiresAt
  unrejected := nofun
  late _ := hlate
  sealing := nofun

/-- Delivery erases the envelope. -/
theorem Registered.delivered (hrow : Registered env request h row) :
    Registered env request { h with
      registrations := h.registrations.modify request.id (·.delivered) } row.delivered where
  stored := modify_registrations hrow.stored
  hash := hrow.hash
  expiresAt := hrow.expiresAt
  unrejected := nofun
  late := nofun
  sealing := nofun

/-- A sweep expires the request if it is past its time. -/
theorem Registered.swept (hclock : Monotone env.clock) (hrow : Registered env request h row)
    {n : ℕ} (hn : n ≤ h.reads) :
    Registered env request { h with
      registrations := h.registrations.map (·.swept (env.clock n)) } (row.swept (env.clock n)) := by
  have hstored : (h.registrations.map (·.swept (env.clock n))) request.id =
      some (row.swept (env.clock n)) := by
    rw [Table.map_apply, hrow.stored, Option.map_some]
  revert hstored
  unfold ServerRegistrationRequest.swept
  split
  · next hpast =>
      intro hstored
      -- the date of the sweep was read before
      have hlate : Late env request h := by
        have hdate := hpast.2
        rw [hrow.expiresAt] at hdate
        exact lt_of_lt_of_le hdate (hclock hn)
      exact ⟨hstored, hrow.hash, hrow.expiresAt, nofun, fun _ => hlate, nofun⟩
  · intro hstored
    exact ⟨hstored, hrow.hash, hrow.expiresAt, hrow.unrejected, hrow.late, hrow.sealing⟩

/-- The status that a poll would find. -/
theorem Registered.status (hrow : Registered env request h row) :
    h.registrationStatus request.id = some row.status := by
  unfold Hub.registrationStatus
  rw [hrow.stored, Option.map_some]

end Grown

/-! ## The protocol of a call -/

/-- What a poll has found, or whether a call is none. -/
inductive PollPhase where
  | asked
  | found (status : ServerRegistrationStatus)
  | handed
  | idle
deriving DecidableEq

/-- **The steps of the calls**: only a poll that found the request approved marks its key as
delivered. -/
inductive PollMove (id : RegistrationId) : PollPhase → Hub → Hub → PollPhase → Prop where
  | act {a : PollPhase} {h h' : Hub} (hasked : a ≠ .asked)
      (hdelivered : h'.registrationStatus id = some .CREDENTIAL_DELIVERED →
        h.registrationStatus id = some .CREDENTIAL_DELIVERED) : PollMove id a h h' a
  | query {h : Hub} {status : ServerRegistrationStatus}
      (hstatus : h.registrationStatus id = some status) : PollMove id .asked h h (.found status)
  | hand {h h' : Hub} : PollMove id (.found .APPROVED) h h' .handed

section Calls

variable (env : Env) (request : CreatedRequest)

/-- A step of a call, which the others may rely on. -/
abbrev PollStep (a : PollPhase) (h h' : Hub) (a' : PollPhase) : Prop :=
  Grown env request h h' ∧ PollMove request.id a h h' a'

/-- A program of the Hub that follows the protocol of the polls. -/
abbrev PollFollows {α : Type} (p : HubM α) (post : PollPhase → Hub → Except HubError α → Prop)
    (a : PollPhase) (h : Hub) : Prop :=
  p.Follows (Grown env request) (Proc.moves (PollStep env request)) post a h

/-- The result of a poll that found another status than `APPROVED`. -/
structure Withheld (status : ServerRegistrationStatus) (h : Hub)
    (result : DaemonRegistrationResult) :
    Prop where
  found : status ≠ .APPROVED
  status : result.status = status ∨ result.status = .EXPIRED
  unrejected : result.status ≠ .REJECTED
  late : result.status = .EXPIRED → Late env request h

/-- The result of a poll that found the request approved. -/
structure Handed (h : Hub) (result : DaemonRegistrationResult) : Prop where
  status : result.status = .APPROVED
  nonempty : ∃ apiKey, result.apiKey = some apiKey ∧ apiKey ≠ []
  credential : Registering.Credential env h result

/-- **What a call answers**, from the phase it ends in. -/
def Answers (a : PollPhase) (h : Hub) (outcome : Except HubError Response) : Prop :=
  match a with
  | .asked => False
  | .found status => ∃ result, outcome = .ok (.registrationResult result) ∧
      Withheld env request status h result
  | .handed => ∃ result, outcome = .ok (.registrationResult result) ∧ Handed env h result
  | .idle => True

end Calls

section Calls

variable {env : Env} {request : CreatedRequest} {h : Hub} {a : PollPhase} {α : Type}

/-- What others do to the request does not disturb a call that follows the protocol. -/
theorem PollFollows.rely {p : HubM α} {post : PollPhase → Hub → Except HubError α → Prop} {h' : Hub}
    (hp : PollFollows env request p post a h) (hgrown : Grown env request h h') :
    PollFollows env request p post a h' :=
  Proc.Follows.rely (@Grown.trans env request) hp hgrown

/-- The clock is read by a call. -/
theorem now_polls (hclock : Monotone env.clock) (ha : a ≠ .asked)
    {post : PollPhase → Hub → Except HubError Time → Prop}
    (hpost : ∀ s t, Grown env request h s → Grown env request { s with reads := s.reads + 1 } t →
      post a t (.ok (env.clock s.reads))) : PollFollows env request (now env) post a h :=
  Proc.follows_take fun s hs => ⟨a, ⟨.read hclock, .act ha fun h => h⟩, fun t ht => hpost s t hs ht⟩

/-- Drawing is no step of the protocol. -/
theorem draw_polls (hclock : Monotone env.clock) (ha : a ≠ .asked)
    {post : PollPhase → Hub → Except HubError ℕ → Prop}
    (hpost : ∀ s t, Grown env request h s → Grown env request { s with draws := s.draws + 1 } t →
      post a t (.ok s.draws)) : PollFollows env request draw post a h :=
  Proc.follows_take fun s hs => ⟨a, ⟨.draw hclock, .act ha fun h => h⟩, fun t ht => hpost s t hs ht⟩

/-- The request is updated by a call. -/
theorem update_polls {f : ServerRegistrationRequest → ServerRegistrationRequest} {a' : PollPhase}
    {post : PollPhase → Hub → Except HubError ServerRegistrationRequest → Prop}
    (hregistered : ∃ row, Registered env request h row)
    (hf : ∀ s row, Grown env request h s → Registered env request s row →
      Registered env request { s with registrations := s.registrations.modify request.id f }
        (f row))
    (hmove : ∀ s row, Registered env request s row → PollMove request.id a s
      { s with registrations := s.registrations.modify request.id f } a')
    (hpost : ∀ row t, Grown env request h t → post a' t (.ok (f row))) :
    PollFollows env request (Prisma.registrationUpdate request.id f) post a h := by
  refine Proc.follows_atomically_moves fun s hs => ?_
  obtain ⟨row, hrow⟩ := hs.registered hregistered
  have hupdate : Grown env request s
      { s with registrations := s.registrations.modify request.id f } :=
    .of_update fun row hrow => hf s row hs hrow
  exact ⟨a', _, _, registrationUpdate_run hrow.stored, ⟨hupdate, hmove s row hrow⟩, fun t ht =>
    hpost row t (hs.trans (hupdate.trans ht))⟩

/-- **`expireIfNeeded` keeps a request as it was read, or expires it after its time.** -/
theorem expireIfNeeded_polls (hclock : Monotone env.clock) {row : ServerRegistrationRequest}
    (hrow : Registered env request h row) (ha : a ≠ .asked)
    {post : PollPhase → Hub → Except HubError ServerRegistrationRequest → Prop}
    (hkept : ∀ t, Grown env request h t → post a t (.ok row))
    (hexpired : row.status = .PENDING → ∀ (row' : ServerRegistrationRequest) t,
      Late env request t → Grown env request h t → post a t (.ok row'.expired)) :
    PollFollows env request (ServerRegistrationsService.expireIfNeeded env request.id row) post a
      h := by
  unfold ServerRegistrationsService.expireIfNeeded
  refine .ite (fun _ => Proc.follows_pure hkept) fun hpending => ?_
  have hpending : row.status = .PENDING := not_not.mp hpending
  refine .bind Grown.refl (now_polls hclock ha fun s t hs ht => ?_)
  have hst : Grown env request h t := (hs.trans (.read hclock)).trans ht
  refine .ite (fun _ => Proc.follows_pure fun u hu => hkept u (hst.trans hu)) fun hpast => ?_
  have hlate : Late env request t := by
    have hdate : request.expiresAt < env.clock s.reads := by
      rw [← hrow.expiresAt]
      exact not_le.mp hpast
    exact lt_of_lt_of_le hdate (hclock (le_trans (Nat.le_succ _) ht.reads))
  refine update_polls (hst.registered ⟨row, hrow⟩)
    (fun u row' hu hrow' => hrow'.expired (hlate.mono hclock hu.reads)) (fun u row' hrow' => ?_)
    fun row' u hu => hexpired hpending row' u (hlate.mono hclock hu.reads) (hst.trans hu)
  refine .act ha fun hdelivered => ?_
  have hstatus : ({ u with
      registrations := u.registrations.modify request.id (·.expired) } : Hub).registrationStatus
        request.id = some .EXPIRED := status_modify (fun _ => rfl) hrow'.stored
  cases hstatus.symm.trans hdelivered

/-- **The transaction of an approval seals a key** that its server has. -/
theorem approveTransaction_polls (hcrypto : env.crypto.Documented)
    (hregistered : ∃ row, Registered env request h row) {row : ServerRegistrationRequest}
    (hhash : row.requestSecretHash = hashApiKey env.crypto request.requestSecret)
    {ownerId : UserId} {d e : ℕ}
    {post : PollPhase → Hub → Except HubError ServerRegistrationRequest → Prop}
    (hpost : ∀ t outcome, post .idle t outcome) :
    PollFollows env request (ServerRegistrationsService.approveTransaction env ownerId
      request.id row
      (hashApiKey env.crypto (generateApiKey env.crypto d))
      (encryptForRequestSecret env.crypto e (generateApiKey env.crypto d) row.requestSecretHash))
      post .idle h := by
  refine Proc.follows_atomically_moves fun s hs => ?_
  obtain ⟨row', hrow'⟩ := hs.registered hregistered
  obtain ⟨s', hrun, hledger, hreads⟩ := @approveTransaction_run env s ownerId request.id row row'
    (hashApiKey env.crypto (generateApiKey env.crypto d))
    (encryptForRequestSecret env.crypto e (generateApiKey env.crypto d) row.requestSecretHash)
    hrow'.stored
  have hregistrations := congrArg Ledger.registrations hledger
  have hservers := congrArg Ledger.servers hledger
  have hstored : s'.registrations request.id = some (row'.approved s.servers.next
      (encryptForRequestSecret env.crypto e (generateApiKey env.crypto d)
        row.requestSecretHash)) := by
    rw [show s'.registrations = _ from hregistrations]
    exact modify_registrations hrow'.stored
  -- the secret of the request never changes
  have hhash : row.requestSecretHash = row'.requestSecretHash := hhash.trans hrow'.hash.symm
  have hgrown : Grown env request s s' := by
    refine ⟨by rw [hreads]; exact Nat.le_succ _, fun id server hserver => ?_, fun _ => ⟨_, hstored,
      hrow'.hash, hrow'.expiresAt, nofun, nofun, fun _ => ?_⟩⟩
    · rw [show s'.servers = _ from hservers, Table.insert_apply,
        if_neg (Nat.ne_of_lt (Table.lt_next hserver))]
      exact hserver
    · obtain ⟨server, hserver, hkey⟩ : ∃ server, s'.servers s.servers.next = some server ∧
          server.apiKeyHash = hashApiKey env.crypto (generateApiKey env.crypto d) := by
        rw [show s'.servers = _ from hservers, Table.insert_apply, if_pos rfl]
        exact ⟨_, rfl, rfl⟩
      refine ⟨d, e, s.servers.next, server, rfl, hserver, hkey, ?_⟩
      rw [storedEnvelope_sealed hcrypto, hhash]
      rfl
  refine ⟨.idle, _, s', hrun, ⟨hgrown, .act nofun fun hdelivered => ?_⟩, fun t _ => hpost t _⟩
  unfold Hub.registrationStatus at hdelivered
  rw [hstored] at hdelivered
  cases hdelivered

/-- **An approval**, from its first node to its last. -/
theorem decideRegistration_polls (hclock : Monotone env.clock) (hcrypto : env.crypto.Documented)
    (hregistered : ∃ row, Registered env request h row) {ownerId : UserId} :
    PollFollows env request (perform env (.decideRegistration ownerId request.id true))
      (Answers env request) .idle h := by
  suffices hidle : PollFollows env request (ServerRegistrationsService.decide env ownerId request.id
      true) (fun a _ _ => a = .idle) .idle h by
    refine .bind Grown.refl (hidle.mono fun a t outcome ha => ?_)
    subst ha
    cases outcome with
    | ok registration => exact Proc.follows_pure fun _ _ => trivial
    | error error => trivial
  unfold ServerRegistrationsService.decide
  refine .bind Grown.refl (Proc.follows_read fun s hs => ⟨.idle, ⟨.refl s, .act nofun fun h => h⟩,
    fun t ht => ?_⟩)
  -- the query finds the request, which the others keep from then on
  obtain ⟨row, hrow⟩ := hs.registered hregistered
  dsimp only
  rw [hrow.stored]
  refine PollFollows.rely ?_ ht
  refine .ite (fun _ => Proc.follows_throw fun _ _ => rfl) fun _ => ?_
  refine .bind Grown.refl (expireIfNeeded_polls hclock hrow (by decide) (fun u hu => ?_)
    fun _ row' u _ _ => ?_)
  · refine .ite (fun _ => Proc.follows_pure fun _ _ => rfl) fun _ => .ite nofun fun _ => ?_
    -- the key and the iv are drawn before the transaction
    refine .bind Grown.refl (draw_polls hclock (by decide) fun v w hv hw => ?_)
    have hw : Grown env request s w := ((hu.trans hv).trans (.draw hclock)).trans hw
    refine .bind Grown.refl (draw_polls hclock (by decide) fun x y hx hy => ?_)
    have hy : Grown env request s y := ((hw.trans hx).trans (.draw hclock)).trans hy
    refine .bind Grown.refl (approveTransaction_polls hcrypto (hy.registered ⟨row, hrow⟩) hrow.hash
      fun t outcome => ?_)
    cases outcome with
    | ok approved => exact Proc.follows_pure fun _ _ => rfl
    | error error => rfl
  · exact .ite (fun _ => Proc.follows_pure fun _ _ => rfl) fun hnot => absurd nofun hnot

/-- **A sweep.** -/
theorem findPending_polls (hclock : Monotone env.clock) {ownerId : UserId} :
    PollFollows env request (perform env (.findPendingRegistrations ownerId)) (Answers env request)
      .idle h := by
  refine .bind Grown.refl (.bind Grown.refl (.bind Grown.refl (now_polls hclock (by decide)
    fun s t hs ht => ?_)))
  refine Proc.follows_atomically fun u hu => ⟨.idle, ⟨⟨le_rfl, fun _ _ h => h, ?_⟩,
    .act nofun fun hdelivered => ?_⟩, fun v hv => ?_⟩
  · rintro ⟨row, hrow⟩
    have hreads : s.reads ≤ u.reads := (Nat.le_succ _).trans (ht.reads.trans hu.reads)
    exact ⟨_, hrow.swept hclock hreads⟩
  · -- a sweep leaves a status, or turns it `EXPIRED`
    rcases @status_map request.id u (env.clock s.reads) with hsame | ⟨-, hexpired⟩
    · exact hsame.symm.trans hdelivered
    · cases hexpired.symm.trans hdelivered
  · exact .bind Grown.refl (Proc.follows_read fun s _ => ⟨.idle, ⟨.refl s, .act nofun fun h => h⟩,
      fun _ _ => Proc.follows_pure fun _ _ => Proc.follows_pure fun _ _ => trivial⟩)

/-- **A poll**, from its first node to its last. -/
theorem getResult_polls (hclock : Monotone env.clock) (hcrypto : env.crypto.Documented)
    (hsecret : request.requestSecret ≠ []) (hregistered : ∃ row, Registered env request h row) :
    PollFollows env request (perform env (.getRegistrationResult request.id request.requestSecret))
      (Answers env request) .asked h := by
  suffices hresult : PollFollows env request (ServerRegistrationsService.getResult env request.id
      request.requestSecret) (fun a s outcome => ∃ result, outcome = .ok result ∧
        ∀ t, Grown env request s t → Answers env request a t (.ok (.registrationResult result)))
      .asked h by
    refine .bind Grown.refl (hresult.mono fun a t outcome hanswer => ?_)
    obtain ⟨result, rfl, hanswer⟩ := hanswer
    exact Proc.follows_pure hanswer
  unfold ServerRegistrationsService.getResult
  refine .ite (fun hempty => absurd (List.isEmpty_iff.mp hempty) hsecret) fun _ => ?_
  refine .bind Grown.refl (Proc.follows_read fun s hs => ?_)
  -- the answer depends on the status that the query finds
  obtain ⟨row, hrow⟩ := hs.registered hregistered
  refine ⟨.found row.status, ⟨.refl s, .query hrow.status⟩, fun t ht => ?_⟩
  dsimp only
  rw [hrow.stored]
  refine PollFollows.rely ?_ ht
  refine .ite (fun hother => absurd hrow.hash hother) fun _ => ?_
  refine .bind Grown.refl (expireIfNeeded_polls hclock hrow (by exact nofun) (fun u hu => ?_)
    fun hpending row' u hlate hu => ?_)
  · refine .ite (fun hnot => Proc.follows_pure fun v hv => ⟨_, rfl, fun w hw => ⟨_, rfl, hnot,
      .inl rfl, hrow.unrejected, fun hexpired => ?_⟩⟩) fun happroved => ?_
    · exact (hrow.late hexpired).mono hclock ((hu.trans hv).trans hw).reads
    have happroved : row.status = .APPROVED := not_not.mp happroved
    -- an approved request is opened, and marked as delivered
    obtain ⟨d, e, serverId, server, hid, hserver, hkey, henvelope⟩ := hrow.sealing happroved
    rw [henvelope]
    dsimp only
    rw [decryptForRequestSecret_encrypt (utf8Decode_utf8Encode (generateApiKey_ascii d))
      (hcrypto.aes _ _ _ (hcrypto.digest _) (hcrypto.random e 12))]
    have hhand : ∀ v row', Registered env request v row' → PollMove request.id (.found row.status) v
        { v with registrations := v.registrations.modify request.id (·.delivered) } .handed := by
      rw [happroved]
      exact fun _ _ _ => .hand
    refine .bind Grown.refl (update_polls (hu.registered ⟨row, hrow⟩)
      (fun v row' _ hrow' => hrow'.delivered) hhand fun row' v hv => ?_)
    refine Proc.follows_pure fun w hw => ⟨_, rfl, fun x hx => ⟨_, rfl, rfl,
      ⟨_, rfl, generateApiKey_ne_nil hcrypto d⟩, ?_⟩⟩
    have hgrown : Grown env request s x := ((hu.trans hv).trans hw).trans hx
    exact ⟨_, serverId, server, rfl, hid, hgrown.servers serverId server hserver, hkey⟩
  · refine .ite (fun _ => Proc.follows_pure fun v hv => ⟨_, rfl, fun w hw => ⟨_, rfl, ?_, .inr rfl,
      nofun, fun _ => hlate.mono hclock (hv.trans hw).reads⟩⟩) fun hnot => absurd nofun hnot
    -- a request that expires meanwhile was pending
    rw [hpending]
    exact nofun

end Calls

end CodeCaller
