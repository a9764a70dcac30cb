import CodeCaller.Hub.TokenRaces
import CodeCaller.Library.Recall

/-!
# Where sessions come from

`login`, `refresh` and `logout` of any users, with any tokens, interleaved at their nodes.  A pair
of tokens is issued for a password that matched, or for a token whose row was found: so a session
goes back to another one, and in the end to a `login`.  The races between the calls (`TokenRaces`)
let one token be redeemed twice; they do not let a session begin without a password, or pass to
another user.

### The pieces

* `AuthDeed`: what a node of a call does, and why.  Rows are revoked, or one row is created, by a
  call that was `Granted` its user.
* `Granted`: the password was right, or the call has found a row under the digest of its token and
  has then revoked it (`GrantedBy`).
* `sessionCall_recalls`: every call acts and answers on what it has seen.  The code is looked at
  here.
* `Descends`: a line of calls that begins with a `login` and in which each `refresh` was granted by
  a row the one before has created.
* `Sessions.Rooted`: the invariant, kept by the arrival of a call and by one node of a call.

### What is load-bearing

Rows are never deleted, and their user and digest never change.  A row that granted a `refresh` is
therefore still there when the line is followed back, revoked for good (`Sessions.Rooted.spent`),
and was created by exactly the call that the line names.
-/

namespace CodeCaller

open Async AuthService

variable {env : Env} {jwt : JwtService} {compare : JsString → JsString → Bool}

/-! ## Calls -/

/-- The calls of `AuthController`. -/
inductive SessionCall where
  | login (email password : JsString)
  | refresh (refreshToken : JsString)
  | logout (refreshToken : JsString)

/-- A call answers with the pair it issued, if it issues one. -/
def SessionCall.program (env : Env) (jwt : JwtService) (compare : JsString → JsString → Bool) :
    SessionCall → AuthM (Option TokenPair)
  | login email password => some <$> AuthService.login env jwt compare email password
  | refresh refreshToken => some <$> AuthService.refresh env jwt refreshToken
  | logout refreshToken => do
    AuthService.logout env jwt refreshToken
    return none

/-- The nodes a call has run. -/
abbrev AuthPast := List (AuthState × AuthState)

/-- The calls that are served, over the users and the refresh tokens. -/
abbrev Sessions := Service AuthState HubError (Option TokenPair) SessionCall

/-- Any calls, at any time, in any order of their nodes. -/
abbrev sessionMachine (env : Env) (jwt : JwtService) (compare : JsString → JsString → Bool) :
    Machine Sessions (Service.Event SessionCall) :=
  Service.machine (SessionCall.program env jwt compare)

/-! ## What a call does, and why -/

/-- The password of a user. -/
def AuthState.Accepts (compare : JsString → JsString → Bool) (s : AuthState) (userId : UserId)
    (email password : JsString) : Prop :=
  ∃ user, s.users userId = some user ∧ user.email = email ∧
    compare password user.passwordHash = true

/-- A row of a token, of a user. -/
def AuthState.RowOf (s : AuthState) (id : ℕ) (userId : UserId) (tokenHash : JsString)
    (revoked : Bool) : Prop :=
  ∃ row, s.refreshTokens id = some row ∧ row.userId = userId ∧ row.tokenHash = tokenHash ∧
    row.revoked = revoked

/-- A node of the past has revoked a row. -/
def Revoked (past : AuthPast) (id : ℕ) : Prop :=
  ∃ visit ∈ past, ∃ row, visit.1.refreshTokens id = some row ∧ visit.2.refreshTokens =
    visit.1.refreshTokens.modify id fun row => { row with revoked := true }

/-- **The row that grants a `refresh`**: the call has found it under the digest of its token, not
revoked, and has then revoked it. -/
structure GrantedBy (env : Env) (past : AuthPast) (refreshToken : JsString) (userId : UserId)
    (id : ℕ) : Prop where
  found : Saw past fun s => s.RowOf id userId (hashToken env refreshToken) false
  revoked : Revoked past id

/-- **Why a call issues a pair to a user**: the password was right, or a row grants it. -/
inductive Granted (env : Env) (compare : JsString → JsString → Bool) (past : AuthPast) :
    SessionCall → UserId → Prop where
  | password {email password : JsString} {userId : UserId}
      (haccepts : Saw past fun s => s.Accepts compare userId email password) :
      Granted env compare past (.login email password) userId
  | token {refreshToken : JsString} {userId : UserId} {id : ℕ}
      (hrow : GrantedBy env past refreshToken userId id) :
      Granted env compare past (.refresh refreshToken) userId

/-- Some rows are revoked, and nothing else changes. -/
structure Revokes (t t' : Table RefreshToken) : Prop where
  next : t'.next = t.next
  rows : ∀ id, t' id = t id ∨ t' id = (t id).map fun row => { row with revoked := true }

/-- **What a node of a call does.** -/
inductive AuthDeed (env : Env) (compare : JsString → JsString → Bool) (call : SessionCall)
    (past : AuthPast) (s : AuthState) : AuthState → Prop where
  | quiet {s' : AuthState} (husers : s'.users = s.users)
      (htokens : s'.refreshTokens = s.refreshTokens) : AuthDeed env compare call past s s'
  | issued {s' : AuthState} {row : RefreshToken} (husers : s'.users = s.users)
      (hgranted : Granted env compare past call row.userId)
      (htokens : s'.refreshTokens = s.refreshTokens.insert row) :
      AuthDeed env compare call past s s'
  | revoked {s' : AuthState} (husers : s'.users = s.users)
      (htokens : Revokes s.refreshTokens s'.refreshTokens) : AuthDeed env compare call past s s'

/-- A node of the past has created a row of a token, of a user. -/
def Created (past : AuthPast) (userId : UserId) (tokenHash : JsString) : Prop :=
  ∃ visit ∈ past, ∃ row, visit.2.refreshTokens = visit.1.refreshTokens.insert row ∧
    row.userId = userId ∧ row.tokenHash = tokenHash

/-- **What a call answers**: nothing, or a pair for the user it was granted to, whose refresh
token has a row that the call has created. -/
def SessionCall.MayAnswer (env : Env) (jwt : JwtService) (compare : JsString → JsString → Bool)
    (call : SessionCall) (past : AuthPast) (answer : Option TokenPair) : Prop :=
  ∀ pair, answer = some pair → ∃ userId, Granted env compare past call userId ∧
    Created past userId (hashToken env pair.refreshToken) ∧
    ∃ email secret expiresIn date,
      pair.accessToken = jwt.sign ⟨userId, email, none⟩ secret expiresIn date

/-- A grant is about the past, so it lasts. -/
theorem GrantedBy.later {past past' : AuthPast} {refreshToken : JsString} {userId : UserId} {id : ℕ}
    (h : GrantedBy env past refreshToken userId id) (hgrows : past <+: past') :
    GrantedBy env past' refreshToken userId id := by
  obtain ⟨visit, hvisit, hrevoked⟩ := h.revoked
  exact ⟨h.found.later hgrows, visit, hgrows.subset hvisit, hrevoked⟩

/-- What was granted by the past stays granted. -/
theorem Granted.later {past past' : AuthPast} {call : SessionCall} {userId : UserId}
    (h : Granted env compare past call userId) (hgrows : past <+: past') :
    Granted env compare past' call userId := by
  cases h with
  | password haccepts => exact .password (haccepts.later hgrows)
  | token hrow => exact .token (hrow.later hgrows)

/-- A pair that was created stays so. -/
theorem Created.later {past past' : AuthPast} {userId : UserId} {tokenHash : JsString}
    (h : Created past userId tokenHash) (hgrows : past <+: past') :
    Created past' userId tokenHash := by
  obtain ⟨visit, hvisit, hcreated⟩ := h
  exact ⟨visit, hgrows.subset hvisit, hcreated⟩

/-! ## The functions of the service -/

section Functions

variable {call : SessionCall} {past : AuthPast}

/-- Who changes no row needs no reason. -/
theorem AuthDeed.refl (past : AuthPast) (s : AuthState) : AuthDeed env compare call past s s :=
  .quiet rfl rfl

/-- The secrets are read from the environment, not from the database. -/
theorem getOrThrow_recalls (name : JsString) :
    (getOrThrow env name).Recalls (AuthDeed env compare call) (fun _ _ => True) past := by
  unfold getOrThrow
  split
  · exact Proc.recalls_done
  · exact Proc.recalls_throw _

/-- Reading the clock changes no row. -/
theorem now_recalls :
    (AuthService.now env).Recalls (AuthDeed env compare call) (fun _ _ => True) past :=
  Proc.recalls_take fun _ => ⟨.quiet rfl rfl, trivial⟩

/-- Nor does drawing the id of a token. -/
theorem randomUUID_recalls :
    randomUUID.Recalls (AuthDeed env compare call) (fun _ _ => True) past :=
  Proc.recalls_take fun _ => ⟨.quiet rfl rfl, trivial⟩

/-- A granted call creates the row of the pair it answers with. -/
theorem issueTokenPair_recalls {userId : UserId} {email : JsString}
    (hgranted : Granted env compare past call userId) :
    (issueTokenPair env jwt userId email).Recalls (AuthDeed env compare call)
      (fun past' pair => call.MayAnswer env jwt compare past' (some pair)) past := by
  refine (getOrThrow_recalls _).bind fun accessSecret past₁ hgrows₁ _ => ?_
  refine now_recalls.bind fun accessDate past₂ hgrows₂ _ => ?_
  refine randomUUID_recalls.bind fun jti past₃ hgrows₃ _ => ?_
  refine (getOrThrow_recalls _).bind fun refreshSecret past₄ hgrows₄ _ => ?_
  refine now_recalls.bind fun refreshDate past₅ hgrows₅ _ => ?_
  refine now_recalls.bind fun date past₆ hgrows₆ _ => ?_
  have hgranted₆ := hgranted.later (hgrows₁.trans (hgrows₂.trans (hgrows₃.trans
    (hgrows₄.trans (hgrows₅.trans hgrows₆)))))
  split
  · exact Proc.recalls_throw _
  · next duration hduration =>
    have hcreate : ∀ refreshToken, (refreshTokenCreate userId (hashToken env refreshToken)
        (date + duration)).Recalls (AuthDeed env compare call)
          (fun past' _ => Granted env compare past' call userId ∧
            Created past' userId (hashToken env refreshToken)) past₆ := by
      refine fun refreshToken => Proc.recalls_atomically fun s => ⟨.issued rfl hgranted₆ rfl, ?_⟩
      exact fun _ _ => ⟨hgranted₆.later (List.prefix_append _ _),
        _, List.mem_append_right _ List.mem_cons_self, _, rfl, rfl, rfl⟩
    refine (hcreate _).bind fun _ past₇ _ hcreated => Proc.recalls_pure ?_
    intro pair heq
    cases heq
    exact ⟨userId, hcreated.1, hcreated.2, _, _, _, _, rfl⟩

/-- A pair that is issued is the answer of the call. -/
theorem answer_recalls {p : AuthM TokenPair}
    (hp : p.Recalls (AuthDeed env compare call)
      (fun past' pair => call.MayAnswer env jwt compare past' (some pair)) past) :
    (some <$> p).Recalls (AuthDeed env compare call) (call.MayAnswer env jwt compare) past :=
  hp.bind fun _ _ _ hanswer => Proc.recalls_pure hanswer

/-- A `login` issues a pair for a password that the user has. -/
theorem login_recalls (email password : JsString) :
    ((SessionCall.login email password).program env jwt compare).Recalls
      (AuthDeed env compare (.login email password))
      ((SessionCall.login email password).MayAnswer env jwt compare) [] := by
  refine answer_recalls ?_
  have hfind : (Proc.read fun s : AuthState => s.users.toList.find? fun row =>
      row.2.email == email : AuthM _).Recalls (AuthDeed env compare (.login email password))
      (fun past' found => ∀ id user, found = some (id, user) →
        Saw past' fun s => s.users id = some user ∧ user.email = email) [] := by
    refine Proc.recalls_read AuthDeed.refl fun s id user hfound => saw_last ?_
    have hemail := List.find?_some hfound
    exact ⟨Table.mem_toList.mp (List.mem_of_find?_eq_some hfound), beq_iff_eq.mp hemail⟩
  refine hfind.bind fun found past₁ _ hfound => ?_
  cases found with
  | none => exact Proc.recalls_throw _
  | some found =>
      obtain ⟨id, user⟩ := found
      have hcompare : (Proc.read fun _ : AuthState => compare password user.passwordHash :
          AuthM Bool).Recalls (AuthDeed env compare (.login email password))
          (fun _ matched => matched = compare password user.passwordHash) past₁ :=
        Proc.recalls_read AuthDeed.refl fun _ => rfl
      refine hcompare.bind fun matched past₂ hgrows₂ hmatched => ?_
      refine Proc.Recalls.ite (fun _ => Proc.recalls_throw _) fun hmatch => ?_
      refine issueTokenPair_recalls (.password ?_)
      refine ((hfound id user rfl).later hgrows₂).mono fun s huser => ⟨user, huser.1, huser.2, ?_⟩
      simpa [hmatched] using hmatch

/-- A `refresh` issues a pair for the user of the row it has revoked. -/
theorem refresh_recalls (refreshToken : JsString) :
    ((SessionCall.refresh refreshToken).program env jwt compare).Recalls
      (AuthDeed env compare (.refresh refreshToken))
      ((SessionCall.refresh refreshToken).MayAnswer env jwt compare) [] := by
  refine answer_recalls ?_
  have hverify : (verifyRefreshToken env jwt refreshToken).Recalls
      (AuthDeed env compare (.refresh refreshToken)) (fun _ _ => True) [] :=
    Proc.recalls_take fun _ => ⟨.quiet rfl rfl, trivial⟩
  refine hverify.bind fun payload past₁ _ _ => ?_
  cases payload with
  | none => exact Proc.recalls_throw _
  | some payload =>
      refine now_recalls.bind fun date past₂ _ _ => ?_
      have hfind : (Proc.read fun s : AuthState => (env.rowOrder (s.refreshTokens.toList.filter
          fun row => unrevoked payload.sub (hashToken env refreshToken) row.2 &&
            date < row.2.expiresAt)).head? : AuthM _).Recalls
          (AuthDeed env compare (.refresh refreshToken))
          (fun past' stored => ∀ id row, stored = some (id, row) → Saw past' fun s =>
            s.RowOf id payload.sub (hashToken env refreshToken) false) past₂ := by
        refine Proc.recalls_read AuthDeed.refl fun s id row hstored => saw_last ?_
        have hmem := (env.rowOrder_perm _).mem_iff.mp (List.mem_of_mem_head? hstored)
        obtain ⟨hrow, hlive⟩ := List.mem_filter.mp hmem
        obtain ⟨hunrevoked, -⟩ := Bool.and_eq_true_iff.mp hlive
        unfold unrevoked at hunrevoked
        simp only [Bool.and_eq_true, beq_iff_eq, Bool.not_eq_true'] at hunrevoked
        exact ⟨row, Table.mem_toList.mp hrow, hunrevoked.1.1, hunrevoked.1.2, hunrevoked.2⟩
      refine hfind.bind fun stored past₃ _ hfound => ?_
      cases stored with
      | none => exact Proc.recalls_throw _
      | some stored =>
          obtain ⟨id, row⟩ := stored
          have hrevoke : (refreshTokenRevoke id).Recalls
              (AuthDeed env compare (.refresh refreshToken)) (fun past' _ => Revoked past' id)
              past₃ := by
            refine Proc.recalls_atomically fun s => ?_
            cases hrow : s.refreshTokens id with
            | none => exact ⟨.refl _ s, fun _ heq => by cases heq⟩
            | some row =>
                refine ⟨.revoked rfl ⟨rfl, fun other => ?_⟩, fun _ _ =>
                  ⟨_, List.mem_append_right _ List.mem_cons_self, row, hrow, rfl⟩⟩
                by_cases heq : other = id
                · right
                  rw [heq]
                  exact if_pos rfl
                · left
                  exact if_neg heq
          refine hrevoke.bind fun _ past₄ hgrows₄ hrevoked => ?_
          exact issueTokenPair_recalls (.token ⟨(hfound id row rfl).later hgrows₄, hrevoked⟩)

/-- A `logout` answers with nothing. -/
theorem logout_recalls (refreshToken : JsString) :
    ((SessionCall.logout refreshToken).program env jwt compare).Recalls
      (AuthDeed env compare (.logout refreshToken))
      ((SessionCall.logout refreshToken).MayAnswer env jwt compare) [] := by
  have hverify : (verifyRefreshToken env jwt refreshToken).Recalls
      (AuthDeed env compare (.logout refreshToken)) (fun _ _ => True) [] :=
    Proc.recalls_take fun _ => ⟨.quiet rfl rfl, trivial⟩
  have hlogout : (AuthService.logout env jwt refreshToken).Recalls
      (AuthDeed env compare (.logout refreshToken)) (fun _ _ => True) [] := by
    refine hverify.bind fun payload past₁ _ _ => ?_
    cases payload with
    | none => exact Proc.recalls_done
    | some payload =>
        refine Proc.recalls_atomically fun s =>
          ⟨.revoked rfl ⟨rfl, fun id => ?_⟩, fun _ _ => trivial⟩
        dsimp only
        rw [Table.map_apply]
        cases hrow : s.refreshTokens id with
        | none => exact .inl rfl
        | some row =>
            by_cases hlive : unrevoked payload.sub (hashToken env refreshToken) row = true
            · exact .inr (by simp [hlive])
            · exact .inl (by simp [hlive])
  exact hlogout.bind fun _ _ _ _ => Proc.recalls_pure nofun

/-- **Every call acts and answers on what it has seen.** -/
theorem sessionCall_recalls (call : SessionCall) :
    (call.program env jwt compare).Recalls (AuthDeed env compare call)
      (call.MayAnswer env jwt compare) [] := by
  cases call with
  | login email password => exact login_recalls email password
  | refresh refreshToken => exact refresh_recalls refreshToken
  | logout refreshToken => exact logout_recalls refreshToken

end Functions

/-! ## Lines of sessions -/

/-- **A call whose session goes back to a password**: it has created a row for a user, and was a
`login` with the password of the user, or a `refresh` with a token that has the digest of a row
which such a call has created for the same user. -/
inductive Descends (env : Env) (compare : JsString → JsString → Bool) (S : Sessions) :
    ℕ → UserId → JsString → Prop where
  | login {i : ℕ} {email password : JsString} {userId : UserId} {tokenHash : JsString}
      {thread : Thread AuthState HubError (Option TokenPair)}
      (hcall : S.calls[i]? = some (.login email password))
      (hthread : S.pool.threads[i]? = some thread)
      (haccepts : Saw thread.past fun s => s.Accepts compare userId email password)
      (hcreated : Created thread.past userId tokenHash) :
      Descends env compare S i userId tokenHash
  | refresh {i j : ℕ} {refreshToken : JsString} {userId : UserId} {tokenHash : JsString}
      {thread : Thread AuthState HubError (Option TokenPair)}
      (hcall : S.calls[i]? = some (.refresh refreshToken))
      (hthread : S.pool.threads[i]? = some thread)
      (hparent : Descends env compare S j userId (hashToken env refreshToken))
      (hcreated : Created thread.past userId tokenHash) :
      Descends env compare S i userId tokenHash

/-- A line of sessions is a matter of the past. -/
theorem Descends.later {S S' : Sessions} {i : ℕ} {userId : UserId} {tokenHash : JsString}
    (h : Descends env compare S i userId tokenHash) (hgrows : S.Grows S') :
    Descends env compare S' i userId tokenHash := by
  induction h with
  | login hcall hthread haccepts hcreated =>
      obtain ⟨thread', hthread', hpast⟩ := hgrows.threads _ _ hthread
      exact .login (hgrows.call hcall) hthread' (haccepts.later hpast) (hcreated.later hpast)
  | refresh hcall hthread _ hcreated ih =>
      obtain ⟨thread', hthread', hpast⟩ := hgrows.threads _ _ hthread
      exact .refresh (hgrows.call hcall) hthread' ih (hcreated.later hpast)

/-- A row stays as it is, or is revoked. -/
def RefreshToken.Becomes (row row' : RefreshToken) : Prop :=
  row' = row ∨ row' = { row with revoked := true }

/-- **The invariant of the sessions**: every row that was ever stored is there still, revoked if
it was ever revoked, and goes back to a password. -/
structure Sessions.Rooted (env : Env) (jwt : JwtService) (compare : JsString → JsString → Bool)
    (seen : List AuthState) (S : Sessions) : Prop where
  recorded : S.Recorded (AuthDeed env compare) (SessionCall.MayAnswer env jwt compare) seen
  kept : ∀ s ∈ seen, ∀ id row, s.refreshTokens id = some row →
    ∃ row', S.pool.shared.refreshTokens id = some row' ∧ row.Becomes row'
  descends : ∀ id row, S.pool.shared.refreshTokens id = some row →
    ∃ i, Descends env compare S i row.userId row.tokenHash

section Rooted

variable {S : Sessions} {seen : List AuthState} {call : SessionCall} {past : AuthPast}
  {s s' : AuthState}

/-- Revoked once is revoked. -/
theorem RefreshToken.Becomes.trans {row row' row'' : RefreshToken} (h : row.Becomes row')
    (h' : row'.Becomes row'') : row.Becomes row'' := by
  rcases h with rfl | rfl
  · exact h'
  · rcases h' with rfl | rfl <;> exact .inr rfl

/-- A row stays where it is. -/
theorem AuthDeed.kept (h : AuthDeed env compare call past s s') {id : ℕ} {row : RefreshToken}
    (hrow : s.refreshTokens id = some row) :
    ∃ row', s'.refreshTokens id = some row' ∧ row.Becomes row' := by
  cases h with
  | quiet _ htokens => exact ⟨row, htokens ▸ hrow, .inl rfl⟩
  | issued _ _ htokens =>
      refine ⟨row, ?_, .inl rfl⟩
      rw [htokens, Table.insert_apply, if_neg (Table.lt_next hrow).ne]
      exact hrow
  | revoked _ htokens =>
      rcases htokens.rows id with hsame | hrevoked
      · exact ⟨row, hsame.trans hrow, .inl rfl⟩
      · rw [hrow] at hrevoked
        exact ⟨_, hrevoked, .inr rfl⟩

/-- A row of a node's end was there before, or is the row the node has created. -/
theorem AuthDeed.row (h : AuthDeed env compare call past s s') {id : ℕ} {row' : RefreshToken}
    (hrow : s'.refreshTokens id = some row') :
    (∃ row, s.refreshTokens id = some row ∧ row.userId = row'.userId ∧
        row.tokenHash = row'.tokenHash) ∨
      Granted env compare past call row'.userId ∧
        s'.refreshTokens = s.refreshTokens.insert row' := by
  cases h with
  | quiet _ htokens => exact .inl ⟨row', htokens ▸ hrow, rfl, rfl⟩
  | issued _ hgranted htokens =>
      rw [htokens, Table.insert_apply] at hrow
      split at hrow
      · cases hrow
        exact .inr ⟨hgranted, htokens⟩
      · exact .inl ⟨row', hrow, rfl, rfl⟩
  | revoked _ htokens =>
      rcases htokens.rows id with hsame | hrevoked
      · exact .inl ⟨row', hsame.symm.trans hrow, rfl, rfl⟩
      · obtain ⟨row, hold, rfl⟩ := Option.map_eq_some_iff.mp (hrevoked.symm.trans hrow)
        exact .inl ⟨row, hold, rfl, rfl⟩

/-- **What a call was granted goes back to a password**, once it has created its row. -/
theorem Sessions.Rooted.descend (h : Sessions.Rooted env jwt compare seen S)
    {S' : Sessions} (hgrows : S.Grows S') {i : ℕ} {userId : UserId} {tokenHash : JsString}
    {thread : Thread AuthState HubError (Option TokenPair)} (hcall : S'.calls[i]? = some call)
    (hthread : S'.pool.threads[i]? = some thread) (hwithin : Within past seen)
    (hpast : past <+: thread.past) (hgranted : Granted env compare past call userId)
    (hcreated : Created thread.past userId tokenHash) :
    Descends env compare S' i userId tokenHash := by
  cases hgranted with
  | password haccepts => exact .login hcall hthread (haccepts.later hpast) hcreated
  | token hgrants =>
      obtain ⟨g, hg, row, hrow, rfl, hhash, -⟩ := hwithin.saw hgrants.found
      obtain ⟨row', hrow', hbecomes⟩ := h.kept g hg _ row hrow
      obtain ⟨j, hparent⟩ := h.descends _ row' hrow'
      have hsame : row'.userId = row.userId ∧ row'.tokenHash = row.tokenHash := by
        rcases hbecomes with rfl | rfl <;> exact ⟨rfl, rfl⟩
      rw [hsame.1, hsame.2, hhash] at hparent
      exact .refresh hcall hthread (hparent.later hgrows) hcreated

/-- A call that arrives. -/
theorem Sessions.Rooted.arrive (h : Sessions.Rooted env jwt compare seen S) (call : SessionCall) :
    Sessions.Rooted env jwt compare (seen ++ [S.pool.shared])
      (S.serve (call.program env jwt compare) call) where
  recorded := (h.recorded.serve (sessionCall_recalls call)).mono (List.subset_append_left _ _)
  kept s hs id row hrow := by
    rcases List.mem_append.mp hs with hold | hlast
    · exact h.kept s hold id row hrow
    · rw [List.mem_singleton.mp hlast] at hrow
      exact ⟨row, hrow, .inl rfl⟩
  descends id row hrow := by
    obtain ⟨i, hdescends⟩ := h.descends id row hrow
    exact ⟨i, hdescends.later (Service.grows_serve _ _)⟩

/-- **One node of a call.** -/
theorem Sessions.Rooted.resume (h : Sessions.Rooted env jwt compare seen S) {i : ℕ}
    (hlive : S.pool.live i = true) :
    Sessions.Rooted env jwt compare (seen ++ [(S.resume i).pool.shared]) (S.resume i) := by
  obtain ⟨call, thread, program, hcall, -, hself, hwithin, hdeed, -⟩ := h.recorded.deed hlive
  have hgrows : S.Grows (S.resume i) := Service.grows_resume
  refine ⟨h.recorded.resume hlive, fun s hs id row hrow => ?_, fun id row hrow => ?_⟩
  · rcases List.mem_append.mp hs with hold | hlast
    · obtain ⟨row', hrow', hbecomes⟩ := h.kept s hold id row hrow
      obtain ⟨row'', hrow'', hbecomes'⟩ := hdeed.kept hrow'
      exact ⟨row'', hrow'', hbecomes.trans hbecomes'⟩
    · rw [List.mem_singleton.mp hlast] at hrow
      exact ⟨row, hrow, .inl rfl⟩
  · rcases hdeed.row hrow with ⟨old, hold, huser, hhash⟩ | ⟨hgranted, hinserted⟩
    · obtain ⟨j, hdescends⟩ := h.descends id old hold
      rw [huser, hhash] at hdescends
      exact ⟨j, hdescends.later hgrows⟩
    · refine ⟨i, h.descend hgrows (hgrows.call hcall) hself hwithin (List.prefix_append _ _)
        hgranted ⟨_, List.mem_append_right _ List.mem_cons_self, row, hinserted, rfl, rfl⟩⟩

/-- No calls, and no sessions. -/
theorem rooted_start {s : AuthState} (hempty : s.refreshTokens = Table.empty) :
    Sessions.Rooted env jwt compare [s] ⟨⟨s, []⟩, []⟩ where
  recorded := Service.recorded_start s
  kept g hg id row hrow := by
    rw [List.mem_singleton.mp hg, hempty] at hrow
    cases hrow
  descends id row hrow := by
    change s.refreshTokens id = some row at hrow
    rw [hempty] at hrow
    cases hrow

/-- The invariant of every run, with its history. -/
theorem rooted_run {s : AuthState} (hempty : s.refreshTokens = Table.empty)
    {events : List (Service.Event SessionCall)}
    (hruns : (sessionMachine env jwt compare).Runs ⟨⟨s, []⟩, []⟩ events) :
    Sessions.Rooted env jwt compare
      (((sessionMachine env jwt compare).states ⟨⟨s, []⟩, []⟩ events).map (·.pool.shared))
      ((sessionMachine env jwt compare).exec ⟨⟨s, []⟩, []⟩ events) := by
  refine Machine.exec_history (I := fun seen S => Sessions.Rooted env jwt compare
    (seen.map (·.pool.shared)) S) (rooted_start hempty) (fun seen S event hS henabled => ?_) hruns
  rw [List.map_append]
  cases event with
  | arrive call => exact hS.arrive call
  | resume i => exact hS.resume henabled

/-- The row that a `refresh` was granted by is revoked for good. -/
theorem Sessions.Rooted.spent (h : Sessions.Rooted env jwt compare seen S)
    (hwithin : Within past seen) {refreshToken : JsString} {userId : UserId} {id : ℕ}
    (hgrants : GrantedBy env past refreshToken userId id) :
    S.pool.shared.RowOf id userId (hashToken env refreshToken) true := by
  obtain ⟨g, hg, row, hrow, huser, hhash, -⟩ := hwithin.saw hgrants.found
  obtain ⟨visit, hvisit, before, hbefore, hafter⟩ := hgrants.revoked
  have hrevoked : visit.2.refreshTokens id = some { before with revoked := true } := by
    rw [hafter, Table.modify_apply, if_pos rfl, hbefore]
    rfl
  obtain ⟨last, hlast, hbecomes⟩ := h.kept g hg id row hrow
  obtain ⟨last', hlast', hbecomes'⟩ := h.kept visit.2 (hwithin visit hvisit).2 id _ hrevoked
  obtain rfl := Option.some.inj (hlast.symm.trans hlast')
  refine ⟨last, hlast, ?_, ?_, ?_⟩
  · rcases hbecomes with rfl | rfl <;> exact huser
  · rcases hbecomes with rfl | rfl <;> exact hhash
  · rcases hbecomes' with rfl | rfl <;> rfl

/-- The row that a call has created is there. -/
theorem Sessions.Rooted.row (h : Sessions.Rooted env jwt compare seen S)
    (hwithin : Within past seen) {userId : UserId} {tokenHash : JsString}
    (hcreated : Created past userId tokenHash) :
    ∃ id revoked, S.pool.shared.RowOf id userId tokenHash revoked := by
  obtain ⟨visit, hvisit, row, hinserted, rfl, rfl⟩ := hcreated
  have hrow : visit.2.refreshTokens visit.1.refreshTokens.next = some row := by
    rw [hinserted, Table.insert_apply, if_pos rfl]
  obtain ⟨last, hlast, hbecomes⟩ := h.kept visit.2 (hwithin visit hvisit).2 _ row hrow
  refine ⟨_, last.revoked, last, hlast, ?_, ?_, rfl⟩
  all_goals rcases hbecomes with rfl | rfl <;> rfl

end Rooted

/-- **Every session goes back to a password**, whatever calls of whatever users are interleaved:
each row was created, and each pair was issued, by a call of a line that begins with a `login`
with the password of the user; the access token is for this user, the refresh token has a row of
this user, and the row that a `refresh` was granted by is revoked for good. -/
theorem sessions_descend {s : AuthState} (hempty : s.refreshTokens = Table.empty)
    {events : List (Service.Event SessionCall)}
    (hruns : (sessionMachine env jwt compare).Runs ⟨⟨s, []⟩, []⟩ events) :
    let S := (sessionMachine env jwt compare).exec ⟨⟨s, []⟩, []⟩ events
    (∀ id row, S.pool.shared.refreshTokens id = some row →
      ∃ i, Descends env compare S i row.userId row.tokenHash) ∧
    ∀ i call pair, S.calls[i]? = some call → S.pool.outcome? i = some (.ok (some pair)) →
      ∃ userId, Descends env compare S i userId (hashToken env pair.refreshToken) ∧
        (∃ email secret expiresIn date,
          pair.accessToken = jwt.sign ⟨userId, email, none⟩ secret expiresIn date) ∧
        (∃ id revoked, S.pool.shared.RowOf id userId (hashToken env pair.refreshToken) revoked) ∧
        ∀ refreshToken, call = .refresh refreshToken → ∃ thread id,
          S.pool.threads[i]? = some thread ∧ GrantedBy env thread.past refreshToken userId id ∧
            S.pool.shared.RowOf id userId (hashToken env refreshToken) true := by
  intro S
  have hrooted := rooted_run hempty hruns
  refine ⟨hrooted.descends, fun i call pair hcall hended => ?_⟩
  obtain ⟨thread, hthread, hwithin, hanswer⟩ := hrooted.recorded.returned hcall hended
  obtain ⟨userId, hgranted, hcreated, haccess⟩ := hanswer pair rfl
  refine ⟨userId, ?_, haccess, hrooted.row hwithin hcreated, ?_⟩
  · exact hrooted.descend (Service.grows_of_eq rfl rfl) hcall hthread hwithin
      (List.prefix_refl _) hgranted hcreated
  · rintro refreshToken rfl
    cases hgranted with
    | token hgrants => exact ⟨thread, _, hthread, hgrants, hrooted.spent hwithin hgrants⟩

/-- A service whose refresh tokens say which draw they come from. -/
def JwtService.named : JwtService where
  sign payload _ _ _ :=
    match payload.jti with
    | none => js "access"
    | some draw => List.replicate (draw + 1) 120
  verify token secret _ :=
    if token.all (· == 120) ∧ token ≠ [] ∧ secret = js "r" then
      some ⟨0, js "e", some (token.length - 1)⟩
    else none

/-- User 0 logs in, and refreshes the session with its first token. -/
def sampleSession : List (Service.Event SessionCall) :=
  .arrive (.login (js "e") (js "p")) :: List.replicate 7 (.resume 0) ++
    .arrive (.refresh [120]) :: List.replicate 9 (.resume 1)

/-- A login, and a refresh with its token. -/
theorem sessions_descend_refreshed :
    let s : AuthState := ⟨Table.empty.insert ⟨js "e", js "h"⟩, Table.empty, 0, 0⟩
    let S := (sessionMachine Env.authSample .named fun _ _ => true).exec ⟨⟨s, []⟩, []⟩ sampleSession
    ∃ pair userId, S.pool.outcome? 1 = some (.ok (some pair)) ∧
      Descends Env.authSample (fun _ _ => true) S 1 userId
        (hashToken Env.authSample pair.refreshToken) := by
  intro s S
  have hruns : (sessionMachine Env.authSample .named fun _ _ => true).Runs ⟨⟨s, []⟩, []⟩
      sampleSession := by decide
  obtain ⟨pair, hpair⟩ : ∃ pair, S.pool.outcome? 1 = some (.ok (some pair)) :=
    exists_pair (by decide)
  obtain ⟨userId, hdescends, -⟩ := (sessions_descend rfl hruns).2 1 _ pair rfl hpair
  exact ⟨pair, userId, hpair, hdescends⟩

end CodeCaller
