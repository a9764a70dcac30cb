import CodeCaller.Envelopes
import CodeCaller.Library.Upsert
import CodeCaller.Hub.System

/-!
# Push tokens

`registerPushToken` stores a token encrypted, under a key that is the user and the ciphertext, and
every encryption draws an iv.  So the rows are a map from users and ciphertexts to platforms, which
is the map from users and tokens that is meant exactly if no token was encrypted twice for one user
with different ivs (`push_tokens_iff`).

### The pieces

* `holds_registerAll`: the rows as a map.  This is the rule for `upsert` from `Library.Upsert` at
  its own key, and holds for any sequence of calls, whatever the ivs.
* `sealed_inj`, `sealed_congr`: a ciphertext tells the token and the iv, and is told by them.
* `SameIvs.stored_eq`: where the ivs are the same, the two maps are the same.
* `Idempotent.sameIvs`: and where they are not, some token has two rows, both of which `sendPush`
  decrypts and addresses.

The tokens are compared as texts: an encryption replaces unpaired surrogates, so what is stored is
the well-formed form of what was sent (`PushCall.plain`).
-/

namespace CodeCaller

open Async

variable (env : Env)

/-! ## Registration -/

/-- The body of the request. -/
structure RegisterPushTokenDto where
  token : JsString
  platform : PushPlatform

/-- What a row is known by: `@@unique([userId, token])`. -/
def PushToken.userId_token (row : PushToken) : UserId × JsString := (row.userId, row.token)

namespace Prisma

/-- `pushToken.upsert`: the user must exist for a new row. -/
def pushTokenUpsert (userId : UserId) (token : JsString) (platform : PushPlatform) : HubM Unit :=
  .atomically fun h =>
    if (h.users userId).isNone ∧
        ∀ row ∈ h.pushTokens.toList, row.2.userId_token ≠ (userId, token) then
      (.error .foreignKeyConstraint, h)
    else
      (.ok (),
        { h with
          pushTokens := h.pushTokens.upsert PushToken.userId_token ⟨userId, token, platform⟩
            fun row => { row with platform } })

end Prisma

namespace NotificationsService

/-- The token is encrypted first, and then looked for. -/
def registerPushToken (userId : UserId) (dto : RegisterPushTokenDto) : HubM Unit := do
  let encKey ← pushTokenEncKey env
  let iv ← draw
  match encryptSecret env.crypto iv dto.token encKey with
  | none => throw ⟨.error, js "Invalid key length"⟩
  | some encryptedToken => Prisma.pushTokenUpsert userId encryptedToken dto.platform

end NotificationsService

/-- A call of `registerPushToken`. -/
structure PushCall where
  userId : UserId
  dto : RegisterPushTokenDto

/-- The token as a text: what its encryption is the encryption of. -/
def PushCall.plain (call : PushCall) : JsString := JsString.toWellFormed call.dto.token

/-- Calls one after the other. -/
def registerAll : List PushCall → Hub → Hub
  | [], h => h
  | call :: rest, h =>
    registerAll rest ((NotificationsService.registerPushToken env call.userId call.dto).run h).2

/-! ## What is meant -/

/-- The platform of the last call by which a user registered a token. -/
def registered (calls : List PushCall) (userId : UserId) (token : JsString) :
    Option PushPlatform :=
  lastWrite (fun call : PushCall => call.userId = userId ∧ call.plain = token)
    (·.dto.platform) none calls

/-- **What is promised of push tokens after some calls**: one row for a user and a token,
with the platform of the last call, and a notification that addresses every registered token
of its user once. -/
structure Idempotent (encKey : JsString) (calls : List PushCall) (h : Hub) : Prop where
  onePerToken : ∀ id id' row row', h.pushTokens id = some row → h.pushTokens id' = some row' →
    row.userId = row'.userId →
    decryptSecret env.crypto row.token encKey = decryptSecret env.crypto row'.token encKey →
      id = id'
  platform : ∀ id row, h.pushTokens id = some row →
    ∃ token, decryptSecret env.crypto row.token encKey = some token ∧
      registered calls row.userId token = some row.platform
  addressed : env.fcmReady = true → ∀ userId title body, ∃ pushes : List Push,
    (NotificationsService.sendPush env userId title body).run h =
      (.ok (), { h with pushes := h.pushes ++ pushes }) ∧
    ∀ token, (pushes.flatMap (·.tokens)).count token =
      if (registered calls userId token).isSome then 1 else 0

/-- **What push tokens rely on**: a key of 32 bytes, ivs of 12 and the cipher. -/
structure PushConfigured (encKey : JsString) : Prop where
  key : env.processEnv (js "PUSH_TOKEN_ENC_KEY") = some encKey
  length : (hexDecode encKey).length = 32
  ivs : ∀ draw, (env.crypto.randomBytes draw 12).length = 12
  aes : env.crypto.Decrypts

/-- The iv of a call, by its place. -/
def pushIv (h : Hub) (place : ℕ) : Bytes := env.crypto.randomBytes (h.draws + place) 12

/-- Where a user registers a token again, the encryption has drawn the same iv again. -/
def SameIvs (h : Hub) (calls : List PushCall) : Prop :=
  ∀ i call j call', calls[i]? = some call → calls[j]? = some call' →
    call.userId = call'.userId → call.plain = call'.plain → pushIv env h i = pushIv env h j

section Calls

variable {env} {encKey : JsString} {h : Hub} {calls : List PushCall}

/-- The ciphertext of the call at a place. -/
def sealed (env : Env) (encKey : JsString) (draws : ℕ) (call : PushCall) : JsString :=
  (encryptSecret env.crypto draws call.dto.token encKey).getD []

/-- The platform of the last of some calls by which a user stored a ciphertext, each with the
draw of its iv. -/
def stored (env : Env) (encKey : JsString) (held : UserId × JsString → Option PushPlatform)
    (calls : List (PushCall × ℕ)) (key : UserId × JsString) : Option PushPlatform :=
  lastWrite (fun call : PushCall × ℕ => (call.1.userId, sealed env encKey call.2 call.1) = key)
    (·.1.dto.platform) (held key) calls

section Configured

variable (hconf : PushConfigured env encKey) {call call' : PushCall} {draws draws' : ℕ}

include hconf

/-- With a key of 32 bytes the encryption succeeds. -/
theorem encryptSecret_sealed (draws : ℕ) (call : PushCall) :
    encryptSecret env.crypto draws call.dto.token encKey = some (sealed env encKey draws call) := by
  obtain ⟨text, htext, -⟩ :=
    @encryptSecret_split env.crypto draws call.dto.token encKey hconf.length
  unfold sealed
  rw [htext]
  rfl

/-- What was stored is decrypted to the token as a text. -/
theorem decryptSecret_sealed (draws : ℕ) (call : PushCall) :
    decryptSecret env.crypto (sealed env encKey draws call) encKey = some call.plain :=
  decryptSecret_encryptSecret hconf.aes (hconf.ivs draws) hconf.length
    (encryptSecret_sealed hconf draws call)

/-- A ciphertext tells the token and the iv. -/
theorem sealed_inj (heq : sealed env encKey draws call = sealed env encKey draws' call') :
    call.plain = call'.plain ∧
      env.crypto.randomBytes draws 12 = env.crypto.randomBytes draws' 12 := by
  have hplain := decryptSecret_sealed hconf draws call
  rw [heq, decryptSecret_sealed hconf draws' call'] at hplain
  refine ⟨(Option.some.inj hplain).symm, ?_⟩
  obtain ⟨text, htext, hsplit⟩ :=
    @encryptSecret_split env.crypto draws call.dto.token encKey hconf.length
  obtain ⟨text', htext', hsplit'⟩ :=
    @encryptSecret_split env.crypto draws' call'.dto.token encKey hconf.length
  rw [encryptSecret_sealed hconf, Option.some.injEq] at htext htext'
  rw [← htext, heq, htext', hsplit'] at hsplit
  simp only [List.map_cons, List.cons.injEq] at hsplit
  exact hexEncode_injective hsplit.1.symm

omit hconf in
/-- The token and the iv tell the ciphertext. -/
theorem sealed_congr (hplain : call.plain = call'.plain)
    (hiv : env.crypto.randomBytes draws 12 = env.crypto.randomBytes draws' 12) :
    sealed env encKey draws call = sealed env encKey draws' call' := by
  have hbytes : utf8Encode call.dto.token = utf8Encode call'.dto.token := by
    rw [← utf8Encode_toWellFormed, ← utf8Encode_toWellFormed call'.dto.token]
    exact congrArg utf8Encode hplain
  unfold sealed encryptSecret
  rw [hbytes, hiv]

/-- **One registration stores one row.** -/
theorem run_registerPushToken (huser : (h.users call.userId).isSome) :
    (NotificationsService.registerPushToken env call.userId call.dto).run h =
      (.ok (), { h with
        draws := h.draws + 1
        pushTokens := h.pushTokens.upsert PushToken.userId_token
          ⟨call.userId, sealed env encKey h.draws call, call.dto.platform⟩
          fun row => { row with platform := call.dto.platform } }) := by
  have hexists : ¬(h.users call.userId).isNone = true := by
    rw [Option.isNone_iff_eq_none]
    exact Option.isSome_iff_ne_none.mp huser
  unfold NotificationsService.registerPushToken NotificationsService.pushTokenEncKey
    Prisma.pushTokenUpsert
  rw [hconf.key]
  simp [draw, encryptSecret_sealed hconf, hexists]

omit hconf in
/-- A call is the last write of its ciphertext unless a later one is. -/
theorem stored_cons (held : UserId × JsString → Option PushPlatform) (call : PushCall)
    (rest : List PushCall) (draws : ℕ) :
    stored env encKey held ((call :: rest).zipIdx draws) =
      stored env encKey (Function.update held (call.userId, sealed env encKey draws call)
        (some call.dto.platform)) (rest.zipIdx (draws + 1)) := by
  funext key
  unfold stored
  rw [List.zipIdx_cons, lastWrite, Function.update_apply]
  simp only [eq_comm]

/-- **The rows are a map from users and ciphertexts**, however often they are registered. -/
theorem holds_registerAll :
    ∀ {calls : List PushCall} {h : Hub} {held : UserId × JsString → Option PushPlatform},
      (∀ call ∈ calls, (h.users call.userId).isSome) →
      Table.Holds PushToken.userId_token PushToken.platform h.pushTokens held →
      Table.Holds PushToken.userId_token PushToken.platform (registerAll env calls h).pushTokens
        (stored env encKey held (calls.zipIdx h.draws)) := by
  intro calls
  induction calls with
  | nil => exact fun _ hheld => hheld
  | cons call rest ih =>
      intro h held husers hheld
      have hrun := run_registerPushToken hconf (husers call List.mem_cons_self)
      rw [registerAll, hrun, stored_cons]
      refine ih (fun other hother => husers other (List.mem_cons_of_mem _ hother)) ?_
      exact Table.Holds.upsert hheld (fun row => rfl) fun row => rfl

omit hconf in
/-- What the calls have written. -/
theorem stored_isSome {key : UserId × JsString} :
    (stored env encKey (fun _ => none) (calls.zipIdx h.draws) key).isSome ↔
      ∃ (place : ℕ) (call : PushCall), calls[place]? = some call ∧
        (call.userId, sealed env encKey (h.draws + place) call) = key := by
  unfold stored
  rw [lastWrite_isSome]
  constructor
  · rintro (hnone | ⟨⟨call, draws⟩, hmem, hkey⟩)
    · cases hnone
    · obtain ⟨hle, hcall⟩ := List.mk_mem_zipIdx_iff_le_and_getElem?_sub.mp hmem
      refine ⟨draws - h.draws, call, hcall, ?_⟩
      rwa [Nat.add_sub_cancel' hle]
  · rintro ⟨place, call, hcall, hkey⟩
    refine .inr ⟨(call, h.draws + place), List.mk_mem_zipIdx_iff_le_and_getElem?_sub.mpr
      ⟨Nat.le_add_right _ _, ?_⟩, hkey⟩
    rwa [Nat.add_sub_cancel_left]

omit hconf in
/-- A token is registered if some call did so. -/
theorem registered_isSome {userId : UserId} {token : JsString} :
    (registered calls userId token).isSome ↔
      ∃ (place : ℕ) (call : PushCall), calls[place]? = some call ∧ call.userId = userId ∧
        call.plain = token := by
  unfold registered
  rw [lastWrite_isSome]
  simp only [List.mem_iff_getElem?]
  constructor
  · rintro (hnone | ⟨call, ⟨place, hcall⟩, hof⟩)
    · cases hnone
    · exact ⟨place, call, hcall, hof⟩
  · rintro ⟨place, call, hcall, hof⟩
    exact .inr ⟨call, ⟨place, hcall⟩, hof⟩

/-- **Where the ivs are the same, the map of ciphertexts is the map of tokens.** -/
theorem SameIvs.stored_eq (h' : SameIvs env h calls) {place : ℕ} {call : PushCall}
    (hcall : calls[place]? = some call) :
    stored env encKey (fun _ => none) (calls.zipIdx h.draws)
        (call.userId, sealed env encKey (h.draws + place) call) =
      registered calls call.userId call.plain := by
  have hsame : ∀ other ∈ calls.zipIdx h.draws,
      (other.1.userId, sealed env encKey other.2 other.1) =
          (call.userId, sealed env encKey (h.draws + place) call) ↔
        other.1.userId = call.userId ∧ other.1.plain = call.plain := by
    rintro ⟨other, draws⟩ hmem
    obtain ⟨hle, hother⟩ := List.mk_mem_zipIdx_iff_le_and_getElem?_sub.mp hmem
    rw [Prod.mk.injEq]
    refine and_congr_right fun huser => ⟨fun heq => (sealed_inj hconf heq).1, fun heq => ?_⟩
    have hiv := h' _ other place call hother hcall huser heq
    unfold pushIv at hiv
    rw [Nat.add_sub_cancel' hle] at hiv
    exact sealed_congr heq hiv
  unfold stored registered
  rw [lastWrite_congr hsame]
  conv_rhs => rw [← List.zipIdx_map_fst h.draws calls, lastWrite_map]

end Configured

/-! ## Notifications -/

section Sends

variable (hconf : PushConfigured env encKey)

include hconf

/-- The text of a stored token. -/
def storedText (env : Env) (encKey : JsString) (row : ℕ × PushToken) : JsString :=
  (decryptSecret env.crypto row.2.token encKey).getD []

omit hconf in
/-- Tokens that can be decrypted are, in the order of the rows. -/
theorem run_decryptTokens {rows : List (ℕ × PushToken)}
    (hrows : ∀ row ∈ rows, (decryptSecret env.crypto row.2.token encKey).isSome) :
    (NotificationsService.decryptTokens env encKey rows).run h =
      (.ok (rows.map (storedText env encKey)), h) := by
  induction rows with
  | nil => rfl
  | cons row rest ih =>
      obtain ⟨token, htoken⟩ := Option.isSome_iff_exists.mp (hrows row List.mem_cons_self)
      have hrest := ih fun other hother => hrows other (List.mem_cons_of_mem _ hother)
      unfold NotificationsService.decryptTokens storedText
      rw [htoken]
      simp [hrest, storedText, htoken]

/-- The rows of a user, as the query returns them. -/
def pushRows (env : Env) (h : Hub) (userId : UserId) : List (ℕ × PushToken) :=
  env.rowOrder (h.pushTokens.toList.filter fun row => row.2.userId == userId)

omit hconf in
/-- The query selects by the user. -/
theorem mem_pushRows {userId : UserId} {row : ℕ × PushToken} :
    row ∈ pushRows env h userId ↔ h.pushTokens row.1 = some row.2 ∧ row.2.userId = userId := by
  unfold pushRows
  rw [(env.rowOrder_perm _).mem_iff, List.mem_filter, Table.mem_toList, beq_iff_eq]

/-- **A notification goes to the tokens of its user.** -/
theorem run_sendPush (hready : env.fcmReady = true) {userId : UserId} {title body : JsString}
    (hrows : ∀ row ∈ pushRows env h userId,
      (decryptSecret env.crypto row.2.token encKey).isSome) :
    ∃ pushes : List Push,
      (NotificationsService.sendPush env userId title body).run h =
        (.ok (), { h with pushes := h.pushes ++ pushes }) ∧
      pushes.flatMap (·.tokens) = (pushRows env h userId).map (storedText env encKey) := by
  unfold NotificationsService.sendPush NotificationsService.pushTokenEncKey
  rw [hconf.key]
  by_cases hempty : pushRows env h userId = []
  · refine ⟨[], ?_, ?_⟩
    · unfold pushRows at hempty
      simp [hready, hempty]
    · rw [hempty]
      rfl
  · refine ⟨[⟨(pushRows env h userId).map (storedText env encKey), title, body⟩], ?_, ?_⟩
    · have hrun := @run_decryptTokens env encKey h _ hrows
      unfold pushRows at hempty hrun ⊢
      simp [hready, hempty, hrun]
    · simp

end Sends

/-! ## The result -/

section Result

variable (hconf : PushConfigured env encKey) (hempty : ∀ id, h.pushTokens id = none)
  (husers : ∀ call ∈ calls, (h.users call.userId).isSome)

include hconf hempty husers

/-- The rows after all calls, each with its place in the random source. -/
theorem holds_calls :
    Table.Holds PushToken.userId_token PushToken.platform (registerAll env calls h).pushTokens
      (stored env encKey (fun _ => none) (calls.zipIdx h.draws)) :=
  holds_registerAll hconf husers (Table.holds_of_empty hempty)

/-- Every row is one of a call. -/
theorem row_of_call {id : ℕ} {row : PushToken}
    (hrow : (registerAll env calls h).pushTokens id = some row) :
    ∃ (place : ℕ) (call : PushCall), calls[place]? = some call ∧ call.userId = row.userId ∧
      sealed env encKey (h.draws + place) call = row.token := by
  have hstored := (holds_calls hconf hempty husers).stored id row hrow
  obtain ⟨place, call, hcall, hkey⟩ := stored_isSome.mp (Option.isSome_of_eq_some hstored)
  exact ⟨place, call, hcall, (Prod.mk.inj hkey).1, (Prod.mk.inj hkey).2⟩

/-- Every call has its row. -/
theorem call_has_row {place : ℕ} {call : PushCall} (hcall : calls[place]? = some call) :
    ∃ (id : ℕ) (row : PushToken), (registerAll env calls h).pushTokens id = some row ∧
      row.userId = call.userId ∧ row.token = sealed env encKey (h.draws + place) call := by
  have hheld := holds_calls hconf hempty husers
  obtain ⟨id, row, hrow, hkey⟩ :=
    hheld.present _ (stored_isSome.mpr ⟨place, call, hcall, rfl⟩)
  exact ⟨id, row, hrow, (Prod.mk.inj hkey).1, (Prod.mk.inj hkey).2⟩

/-- **Two ivs for one token make two rows of it.** -/
theorem Idempotent.sameIvs (hid : Idempotent env encKey calls (registerAll env calls h)) :
    SameIvs env h calls := by
  intro i call j call' hcall hcall' huser hplain
  obtain ⟨id, row, hrow, hof, htoken⟩ := call_has_row hconf hempty husers hcall
  obtain ⟨id', row', hrow', hof', htoken'⟩ := call_has_row hconf hempty husers hcall'
  have hsame : id = id' := by
    refine hid.onePerToken id id' row row' hrow hrow' ?_ ?_
    · rw [hof, hof', huser]
    · rw [htoken, htoken', decryptSecret_sealed hconf, decryptSecret_sealed hconf, hplain]
  obtain rfl : row = row' := Option.some.inj (hrow.symm.trans (hsame ▸ hrow'))
  exact (sealed_inj hconf (htoken.symm.trans htoken')).2

section SameIvs

variable (hivs : SameIvs env h calls)

include hivs

/-- With the same ivs a token has one row. -/
theorem SameIvs.onePerToken {id id' : ℕ} {row row' : PushToken}
    (hrow : (registerAll env calls h).pushTokens id = some row)
    (hrow' : (registerAll env calls h).pushTokens id' = some row')
    (huser : row.userId = row'.userId)
    (hplain : decryptSecret env.crypto row.token encKey =
      decryptSecret env.crypto row'.token encKey) : id = id' := by
  obtain ⟨i, call, hcall, hof, htoken⟩ := row_of_call hconf hempty husers hrow
  obtain ⟨j, call', hcall', hof', htoken'⟩ := row_of_call hconf hempty husers hrow'
  rw [← htoken, ← htoken', decryptSecret_sealed hconf, decryptSecret_sealed hconf,
    Option.some.injEq] at hplain
  have hiv := hivs i call j call' hcall hcall' (by rw [hof, hof', huser]) hplain
  have hkey : row.userId_token = row'.userId_token := by
    refine Prod.ext huser ?_
    exact htoken.symm.trans ((sealed_congr hplain hiv).trans htoken')
  exact (holds_calls hconf hempty husers).unique id id' row row' hrow hrow' hkey

/-- Its platform is that of the last call. -/
theorem SameIvs.platform {id : ℕ} {row : PushToken}
    (hrow : (registerAll env calls h).pushTokens id = some row) :
    ∃ token, decryptSecret env.crypto row.token encKey = some token ∧
      registered calls row.userId token = some row.platform := by
  obtain ⟨place, call, hcall, hof, htoken⟩ := row_of_call hconf hempty husers hrow
  refine ⟨call.plain, htoken ▸ decryptSecret_sealed hconf _ _, ?_⟩
  have hstored := (holds_calls hconf hempty husers).stored id row hrow
  unfold PushToken.userId_token at hstored
  rw [← hof, ← htoken, hivs.stored_eq hconf hcall] at hstored
  rw [← hof]
  exact hstored

/-- And a notification addresses it once. -/
theorem SameIvs.addressed {userId : UserId} (token : JsString) :
    ((pushRows env (registerAll env calls h) userId).map (storedText env encKey)).count token =
      if (registered calls userId token).isSome then 1 else 0 := by
  have htext : ∀ row ∈ pushRows env (registerAll env calls h) userId,
      decryptSecret env.crypto row.2.token encKey = some (storedText env encKey row) ∧
        (registered calls userId (storedText env encKey row)).isSome := by
    intro row hrow
    obtain ⟨hstored, huser⟩ := mem_pushRows.mp hrow
    obtain ⟨text, hdecrypt, hplatform⟩ := hivs.platform hconf hempty husers hstored
    unfold storedText
    rw [hdecrypt, Option.getD_some, ← huser, hplatform]
    exact ⟨rfl, rfl⟩
  have hnodup : ((pushRows env (registerAll env calls h) userId).map
      (storedText env encKey)).Nodup := by
    have hkeys : (pushRows env (registerAll env calls h) userId).Nodup :=
      (env.rowOrder_perm _).nodup_iff.mpr
        ((List.Nodup.of_map _ (Table.nodup_keys _)).filter _)
    refine hkeys.map_on fun row hrow row' hrow' heq => ?_
    obtain ⟨hstored, huser⟩ := mem_pushRows.mp hrow
    obtain ⟨hstored', huser'⟩ := mem_pushRows.mp hrow'
    have hid : row.1 = row'.1 := by
      refine hivs.onePerToken hconf hempty husers hstored hstored' (huser.trans huser'.symm) ?_
      rw [(htext row hrow).1, (htext row' hrow').1, heq]
    exact Prod.ext hid (Option.some.inj (hstored.symm.trans (hid ▸ hstored')))
  split_ifs with hregistered
  · refine List.count_eq_one_of_mem hnodup ?_
    obtain ⟨place, call, hcall, huser, hplain⟩ := registered_isSome.mp hregistered
    obtain ⟨id, row, hrow, hof, htoken⟩ := call_has_row hconf hempty husers hcall
    refine List.mem_map.mpr ⟨(id, row), mem_pushRows.mpr ⟨hrow, hof.trans huser⟩, ?_⟩
    unfold storedText
    rw [htoken, decryptSecret_sealed hconf, hplain]
    rfl
  · refine List.count_eq_zero_of_not_mem fun hmem => hregistered ?_
    obtain ⟨row, hrow, rfl⟩ := List.mem_map.mp hmem
    exact (htext row hrow).2

end SameIvs

end Result

end Calls

/-- **Registration is idempotent exactly if a token registered again is encrypted with the
same iv again.** -/
theorem push_tokens_iff {env : Env} {encKey : JsString} (hconf : PushConfigured env encKey)
    {h : Hub} (hempty : ∀ id, h.pushTokens id = none) {calls : List PushCall}
    (husers : ∀ call ∈ calls, (h.users call.userId).isSome) :
    Idempotent env encKey calls (registerAll env calls h) ↔ SameIvs env h calls := by
  refine ⟨fun hid => hid.sameIvs hconf hempty husers, fun hivs => ?_⟩
  refine ⟨fun id id' row row' => hivs.onePerToken hconf hempty husers,
    fun id row => hivs.platform hconf hempty husers, fun hready userId title body => ?_⟩
  have hrows : ∀ row ∈ pushRows env (registerAll env calls h) userId,
      (decryptSecret env.crypto row.2.token encKey).isSome := by
    intro row hrow
    obtain ⟨token, htoken, -⟩ := hivs.platform hconf hempty husers (mem_pushRows.mp hrow).1
    rw [htoken]
    rfl
  obtain ⟨pushes, hrun, htokens⟩ := @run_sendPush env encKey (registerAll env calls h) hconf hready
    userId title body hrows
  refine ⟨pushes, hrun, fun token => ?_⟩
  rw [htokens]
  exact hivs.addressed hconf hempty husers token

/-! ## Two registrations -/

/-- What the cipher makes of a text under a key and an iv. -/
structure CipherRow where
  key : Bytes
  iv : Bytes
  plain : Bytes
  data : Bytes
  authTag : Bytes
deriving DecidableEq

/-- A cipher that is known on some texts; elsewhere it leaves a text as it is, without a
tag.  The random bytes are the number of the draw. -/
def NodeCrypto.ofRows (rows : List CipherRow) : NodeCrypto where
  sha256 _ := []
  randomBytes draw size := List.replicate size draw.toUInt8
  encrypt key iv plain :=
    match rows.find? fun row => row.key = key ∧ row.iv = iv ∧ row.plain = plain with
    | some row => (row.data, row.authTag)
    | none => (plain, [])
  decrypt key iv authTag data :=
    if authTag = [] then some data
    else (rows.find? fun row =>
      row.key = key ∧ row.iv = iv ∧ row.authTag = authTag ∧ row.data = data).map (·.plain)

/-- A table of ciphertexts is a cipher, if no two rows have one tag. -/
theorem NodeCrypto.ofRows_decrypts {rows : List CipherRow}
    (htags : ∀ row ∈ rows, row.authTag ≠ [])
    (hone : ∀ row ∈ rows, ∀ row' ∈ rows, row.authTag = row'.authTag → row = row') :
    (NodeCrypto.ofRows rows).Decrypts := by
  intro key iv plain _ _
  unfold NodeCrypto.ofRows
  dsimp only
  cases hfind : rows.find? fun row => row.key = key ∧ row.iv = iv ∧ row.plain = plain with
  | none => exact if_pos rfl
  | some row =>
      have hmem := List.mem_of_find?_eq_some hfind
      have hof := List.find?_some hfind
      obtain ⟨hkey, hiv, hplain⟩ := of_decide_eq_true hof
      dsimp only
      rw [if_neg (htags row hmem)]
      cases hback : rows.find? fun other =>
          other.key = key ∧ other.iv = iv ∧ other.authTag = row.authTag ∧
            other.data = row.data with
      | none =>
          have hnot := List.find?_eq_none.mp hback row hmem
          exact absurd (decide_eq_true ⟨hkey, hiv, rfl, rfl⟩) hnot
      | some other =>
          have hother := List.mem_of_find?_eq_some hback
          have hof' := List.find?_some hback
          obtain ⟨-, -, htag, -⟩ := of_decide_eq_true hof'
          rw [hone other hother row hmem htag, Option.map_some, hplain]

/-- The tokens `t` and `u` under a key and two ivs. -/
def pushCiphers : List CipherRow :=
  [⟨List.replicate 32 1, List.replicate 12 0, [0x74], [0xcb],
      [0xfc, 0x8b, 0x88, 0x22, 0x0a, 0x02, 0x3a, 0x79, 0x2d, 0x60, 0x88, 0x8e, 0x25, 0x51, 0x9e,
       0xff]⟩,
   ⟨List.replicate 32 1, List.replicate 12 1, [0x74], [0xc6],
      [0x4b, 0x3d, 0x5a, 0x55, 0x38, 0xa1, 0x3d, 0xf6, 0x7d, 0x7d, 0xd6, 0x4f, 0x0c, 0x09, 0x79,
       0xcb]⟩,
   ⟨List.replicate 32 1, List.replicate 12 1, [0x75], [0xc7],
      [0x78, 0x07, 0xa6, 0x43, 0x17, 0x5c, 0x16, 0x7b, 0xad, 0x17, 0x15, 0x31, 0x54, 0xc0, 0x93,
       0x98]⟩]

/-- The key, in hex. -/
def samplePushKey : JsString := hexEncode (List.replicate 32 1)

/-- An environment with such a cipher and a key. -/
def Env.pushing : Env :=
  { Env.sample with
    processEnv := fun name => if name = js "PUSH_TOKEN_ENC_KEY" then some samplePushKey else none
    fcmReady := true
    crypto := NodeCrypto.ofRows pushCiphers }

/-- The hypotheses of the results can be met. -/
theorem Env.pushing_configured : PushConfigured Env.pushing samplePushKey where
  key := by
    show (if js "PUSH_TOKEN_ENC_KEY" = js "PUSH_TOKEN_ENC_KEY" then some samplePushKey else none) =
      some samplePushKey
    exact if_pos rfl
  length := by
    unfold samplePushKey
    rw [hexDecode_hexEncode]
    rfl
  ivs draw := List.length_replicate
  aes := NodeCrypto.ofRows_decrypts (by decide) (by decide)

/-- A user registers two devices. -/
def twoDevices : List PushCall := [⟨0, js "t", .ANDROID⟩, ⟨0, js "u", .IOS⟩]

/-- Two devices of one user. -/
theorem push_tokens_two_devices :
    Idempotent Env.pushing samplePushKey twoDevices
      (registerAll Env.pushing twoDevices Hub.sample) := by
  have husers : ∀ call ∈ twoDevices, (Hub.sample.users call.userId).isSome := by decide
  refine (push_tokens_iff Env.pushing_configured (fun id => rfl) husers).mpr ?_
  intro i call j call' hcall hcall' _ hplain
  match i, j with
  | 0, 0 => rfl
  | 1, 1 => rfl
  | 0, 1 =>
      cases hcall
      cases hcall'
      exact absurd hplain (by decide)
  | 1, 0 =>
      cases hcall
      cases hcall'
      exact absurd hplain (by decide)
  | i + 2, _ => cases hcall
  | 0, j + 2 => cases hcall'
  | 1, j + 2 => cases hcall'

/-- A user registers a device again. -/
def oneDevice : List PushCall := [⟨0, js "t", .ANDROID⟩, ⟨0, js "t", .ANDROID⟩]

/-- Both registrations have stored a row, and a notification goes to the device twice. -/
theorem push_tokens_one_device :
    (registerAll Env.pushing oneDevice Hub.sample).pushTokens.toList.length = 2 ∧
      ((((NotificationsService.sendPush Env.pushing 0 [] []).run
        (registerAll Env.pushing oneDevice Hub.sample)).2.pushes.map (·.tokens))) =
          [[js "t", js "t"]] ∧
      ¬Idempotent Env.pushing samplePushKey oneDevice
        (registerAll Env.pushing oneDevice Hub.sample) := by
  refine ⟨by decide, by decide, fun hid => ?_⟩
  have hivs := hid.sameIvs Env.pushing_configured (fun id => rfl) (by decide)
  exact absurd (hivs 0 _ 1 _ rfl rfl rfl rfl) (by decide)

end CodeCaller
