import CodeCaller.Hub.Auth
import CodeCaller.Hub.System
import CodeCaller.Library.Pool

/-!
# Concurrent uses of one refresh token

`refresh` looks the row of its token up, revokes it by its id and issues a new pair; `logout`
revokes it in one update, unless the token is not valid any more.  In a pool of such calls on one
token the token is redeemed once, and not after a `logout`, as long as who found the row gets to
revoke it while nobody else has.

### The pieces

* `TokenStored`: the token is one the service issued.  Of its rows one at most is not revoked, and
  no token that is issued from now on has its hash; without the second part `refresh` could bring
  the token back by issuing it again.
* `TokenPool.Current`: the condition on a schedule, on the state in which a call goes on.
* `RedeemedOnce`: one call at most answers with a pair, and once a `logout` has returned no call
  does that had not revoked the token by then.
* `TokenMove`: the protocol of a call; `refresh_follows` and `logout_follows` say that the programs
  keep to it.
* `TokenAccount` holds in every pool, `TokenOnce` while the schedule is current.

### Both directions

`refresh_redeems_once_iff` has the condition as sufficient for every schedule, and as necessary for
one that is finished, with the settings without which no pair is issued at all: where a second call
passes the lookup before the first has revoked, both calls succeed in the end, since nothing after
the lookup checks the row again.
-/

namespace CodeCaller

open Async AuthService

variable (env : Env) (jwt : JwtService) (token : JsString)

/-- Whether a row is an unrevoked one of a token. -/
def RefreshToken.live (tokenHash : JsString) (row : RefreshToken) : Bool :=
  row.tokenHash == tokenHash && !row.revoked

/-- Whether a token can be redeemed. -/
def AuthState.redeemable (tokenHash : JsString) (s : AuthState) : Bool :=
  s.refreshTokens.toList.any fun row => row.2.live tokenHash

/-- **The token is one the service issued**: it has one row at most that is not revoked,
of the user it names, and no token issued from now on has its hash. -/
structure TokenStored (s : AuthState) : Prop where
  single : ∀ id id' row row', s.refreshTokens id = some row → s.refreshTokens id' = some row' →
    row.live (hashToken env token) = true → row'.live (hashToken env token) = true → id = id'
  owner : ∀ date payload, verified env jwt token date = some payload →
    ∀ id row, s.refreshTokens id = some row → row.tokenHash = hashToken env token →
      row.userId = payload.sub
  fresh : ∀ sub email secret expiresIn date draw, s.draws ≤ draw →
    hashToken env (jwt.sign ⟨sub, email, some draw⟩ secret expiresIn date) ≠ hashToken env token

/-- The calls on the token. -/
inductive TokenCall where
  | refresh
  | logout
deriving DecidableEq

/-- A call answers with the pair it issued, if it issues one. -/
def TokenCall.program : TokenCall → AuthM (Option TokenPair)
  | refresh => some <$> AuthService.refresh env jwt token
  | logout => do
    AuthService.logout env jwt token
    return none

/-- A call of `refresh` or `logout` under way. -/
abbrev TokenThread := Thread AuthState HubError (Option TokenPair)
/-- Calls with one token, each at some node. -/
abbrev TokenPool := Pool AuthState HubError (Option TokenPair)
/-- A step is a node of one of the calls. -/
abbrev tokenMachine := Pool.machine AuthState HubError (Option TokenPair)

/-- The pool of some calls, before any was resumed. -/
def tokenPool (s : AuthState) (calls : List TokenCall) : TokenPool :=
  .start s (calls.map (·.program env jwt token))

/-- Whether a call has revoked the token: one of its nodes found it redeemable and left
it not. -/
def hasRevoked (tokenHash : JsString) (thread : TokenThread) : Bool :=
  thread.past.any fun visit => visit.1.redeemable tokenHash && !visit.2.redeemable tokenHash

/-- **What is promised of a token**: one call at most answers with a pair; and once a
`logout` has returned, no call does that had not revoked the token by then. -/
structure RedeemedOnce (tokenHash : JsString) (calls : List TokenCall) (P : TokenPool)
    (schedule : List ℕ) : Prop where
  once : ∀ i j pair pair', (tokenMachine.exec P schedule).outcome? i = some (.ok (some pair)) →
    (tokenMachine.exec P schedule).outcome? j = some (.ok (some pair')) → i = j
  revoked : ∀ front back, schedule = front ++ back → ∀ i, calls[i]? = some .logout →
    (tokenMachine.exec P front).outcome? i ≠ none →
    ∀ j thread, (tokenMachine.exec P front).threads[j]? = some thread →
      hasRevoked tokenHash thread = false →
      ∀ pair, (tokenMachine.exec P schedule).outcome? j ≠ some (.ok (some pair))

/-- **The condition on a schedule**: a `refresh` that found the token revokes it while
it is redeemable, and before a `logout` has returned because it found the token
invalid. -/
def TokenPool.Current (tokenHash : JsString) (calls : List TokenCall) (P : TokenPool) (i : ℕ) :
    Prop :=
  calls[i]? = some .refresh → ∀ thread ∈ P.threads[i]?, thread.past.length = 3 →
    P.shared.redeemable tokenHash = true ∧
      ∀ j < calls.length, calls[j]? = some .logout → ∀ other ∈ P.threads[j]?,
        other.past.length = 1 → other.program.outcome?.isNone = true

instance TokenPool.decidableCurrent (tokenHash : JsString) (calls : List TokenCall) (P : TokenPool)
    (i : ℕ) :
    Decidable (P.Current tokenHash calls i) :=
  inferInstanceAs (Decidable (calls[i]? = some .refresh → ∀ thread ∈ P.threads[i]?,
    thread.past.length = 3 → P.shared.redeemable tokenHash = true ∧
      ∀ j < calls.length, calls[j]? = some .logout → ∀ other ∈ P.threads[j]?,
        other.past.length = 1 → other.program.outcome?.isNone = true))

/-! ## The protocol of a call -/

/-- How far a call got: the nodes it ran without finding the row, and what it did. -/
inductive TokenPhase where
  | asking (n : ℕ)
  | found
  | redeemed
  | revoked
  | refused
deriving DecidableEq

/-- **What every node keeps**: rows stay, no row becomes one of the token, and none is
unrevoked. -/
structure TokenKept (tokenHash : JsString) (s s' : AuthState) : Prop where
  draws : s.draws ≤ s'.draws
  rows : ∀ id, s.refreshTokens id ≠ none → s'.refreshTokens id ≠ none
  old : ∀ id row', s'.refreshTokens id = some row' → row'.tokenHash = tokenHash →
    ∃ row, s.refreshTokens id = some row ∧ row.tokenHash = tokenHash ∧
      row.userId = row'.userId ∧ (row.revoked = true → row'.revoked = true)

/-- **The steps of a call on the token.** -/
inductive TokenMove (tokenHash : JsString) :
    TokenCall → TokenPhase → AuthState → AuthState → TokenPhase → Prop where
  | ask {call : TokenCall} {n : ℕ} {s s' : AuthState} (hn : n < 3)
    (hkept : TokenKept tokenHash s s')
      (hsame : s'.redeemable tokenHash = s.redeemable tokenHash) :
      TokenMove tokenHash call (.asking n) s s' (.asking (n + 1))
  | find {s : AuthState} (hlive : s.redeemable tokenHash = true) :
      TokenMove tokenHash .refresh (.asking 2) s s .found
  | redeem {s s' : AuthState} (hkept : TokenKept tokenHash s s')
      (hdead : s'.redeemable tokenHash = false) :
      TokenMove tokenHash .refresh .found s s' .redeemed
  | issue {s s' : AuthState} (hkept : TokenKept tokenHash s s')
      (hsame : s'.redeemable tokenHash = s.redeemable tokenHash) :
      TokenMove tokenHash .refresh .redeemed s s' .redeemed
  | revoke {s s' : AuthState} (hkept : TokenKept tokenHash s s')
      (hdead : s'.redeemable tokenHash = false) :
      TokenMove tokenHash .logout (.asking 1) s s' .revoked
  | refuse {s s' : AuthState} (hkept : TokenKept tokenHash s s')
      (hsame : s'.redeemable tokenHash = s.redeemable tokenHash) :
      TokenMove tokenHash .logout (.asking 0) s s' .refused

/-- The steps of a call as its protocol. -/
abbrev tokenMoves (tokenHash : JsString) (call : TokenCall) :
    TokenPhase → (AuthState → AuthState) → AuthState → TokenPhase → Prop :=
  Proc.moves (TokenMove tokenHash call)

/-- The settings without which no pair is issued. -/
structure Configured (env : Env) : Prop where
  access : env.processEnv (js "JWT_ACCESS_SECRET") ≠ none
  refresh : env.processEnv (js "JWT_REFRESH_SECRET") ≠ none
  duration : durationToMs (configGet env (js "JWT_REFRESH_EXPIRES_IN") (js "30d")) ≠ none

/-- Who ends with a pair has redeemed the token, and conversely. -/
def PairEnd (env : Env) {α : Type} (answer : TokenPair → α) (a : TokenPhase) (_ : AuthState)
    (outcome : Except HubError α) : Prop :=
  (∀ pair, outcome = .ok (answer pair) → a = .redeemed) ∧
    (Configured env → a = .redeemed → ∃ pair, outcome = .ok (answer pair))

/-- Where a call ends. -/
def TokenEnd (env : Env) :
    TokenCall → TokenPhase → AuthState → Except HubError (Option TokenPair) → Prop
  | .refresh, a, s, outcome => PairEnd env some a s outcome
  | .logout, a, _, outcome => (a = .revoked ∨ a = .refused) ∧ ∀ pair, outcome ≠ .ok (some pair)

section Rely

variable {env jwt token} {tokenHash : JsString} {s s' s'' : AuthState}

/-- Nothing is revived. -/
theorem TokenKept.refl (s : AuthState) : TokenKept tokenHash s s :=
  ⟨le_rfl, fun _ => id, fun _ row hrow hhash => ⟨row, hrow, hhash, rfl, id⟩⟩

/-- What is kept by each node is kept by all of them. -/
theorem TokenKept.trans (hab : TokenKept tokenHash s s') (hbc : TokenKept tokenHash s' s'') :
    TokenKept tokenHash s s'' where
  draws := hab.draws.trans hbc.draws
  rows id h := hbc.rows id (hab.rows id h)
  old id row'' hrow'' hhash'' := by
    obtain ⟨row', hrow', hhash', huser', hrevoked'⟩ := hbc.old id row'' hrow'' hhash''
    obtain ⟨row, hrow, hhash, huser, hrevoked⟩ := hab.old id row' hrow' hhash'
    exact ⟨row, hrow, hhash, huser.trans huser', fun h => hrevoked' (hrevoked h)⟩

/-- A node that leaves the tokens alone. -/
theorem TokenKept.of_same (htokens : s'.refreshTokens = s.refreshTokens)
    (hdraws : s.draws ≤ s'.draws) : TokenKept tokenHash s s' where
  draws := hdraws
  rows id h := by rwa [htokens]
  old id row hrow hhash := ⟨row, htokens ▸ hrow, hhash, rfl, fun h => h⟩

/-- A use of the clock. -/
theorem TokenKept.clock (s : AuthState) :
    TokenKept tokenHash s { s with reads := s.reads + 1 } :=
  .of_same rfl le_rfl

/-- Every step of the protocol keeps the rows in this sense. -/
theorem TokenMove.kept {call : TokenCall} {a a' : TokenPhase}
    (h : TokenMove tokenHash call a s s' a') : TokenKept tokenHash s s' := by
  cases h with
  | ask hn hkept hsame => exact hkept
  | find hlive => exact .refl s
  | redeem hkept hdead => exact hkept
  | issue hkept hsame => exact hkept
  | revoke hkept hdead => exact hkept
  | refuse hkept hsame => exact hkept

/-- Some row of the token is not revoked. -/
theorem redeemable_iff : s.redeemable tokenHash = true ↔
    ∃ id row, s.refreshTokens id = some row ∧ row.live tokenHash = true := by
  unfold AuthState.redeemable
  simp only [List.any_eq_true, Prod.exists, Table.mem_toList]

/-- A token is spent when no row with its digest is live. -/
theorem not_redeemable_iff : s.redeemable tokenHash = false ↔
    ∀ id row, s.refreshTokens id = some row → row.live tokenHash = false := by
  rw [← Bool.not_eq_true, redeemable_iff]
  simp only [not_exists, not_and, Bool.not_eq_true]

/-- What is live was. -/
theorem TokenKept.live (h : TokenKept tokenHash s s') {id : ℕ} {row' : RefreshToken}
    (hrow' : s'.refreshTokens id = some row') (hlive : row'.live tokenHash = true) :
    ∃ row, s.refreshTokens id = some row ∧ row.live tokenHash = true := by
  unfold RefreshToken.live at hlive ⊢
  rw [Bool.and_eq_true, beq_iff_eq, Bool.not_eq_true'] at hlive
  obtain ⟨row, hrow, hhash, -, hrevoked⟩ := h.old id row' hrow' hlive.1
  refine ⟨row, hrow, ?_⟩
  rw [Bool.and_eq_true, beq_iff_eq, Bool.not_eq_true', ← Bool.not_eq_true]
  exact ⟨hhash, fun h => by rw [hrevoked h] at hlive; exact nomatch hlive.2⟩

/-- The token stays one that was issued. -/
theorem TokenStored.kept (hs : TokenStored env jwt token s)
    (h : TokenKept (hashToken env token) s s') : TokenStored env jwt token s' where
  single id id' row row' hrow hrow' hlive hlive' := by
    obtain ⟨old, hold, holdLive⟩ := h.live hrow hlive
    obtain ⟨old', hold', holdLive'⟩ := h.live hrow' hlive'
    exact hs.single id id' old old' hold hold' holdLive holdLive'
  owner date payload hverified id row hrow hhash := by
    obtain ⟨old, hold, holdHash, huser, -⟩ := h.old id row hrow hhash
    exact huser.symm.trans (hs.owner date payload hverified id old hold holdHash)
  fresh sub email secret expiresIn date draw hdraw :=
    hs.fresh sub email secret expiresIn date draw (h.draws.trans hdraw)

end Rely

/-! ## The calls follow the protocol -/

section Calls

variable {env : Env} {jwt : JwtService} {token : JsString} {s : AuthState}

/-- A node that leaves the tokens alone, of a call that has redeemed its token. -/
theorem TokenMove.issue_same {tokenHash : JsString} {s' : AuthState}
    (htokens : s'.refreshTokens = s.refreshTokens) (hdraws : s.draws ≤ s'.draws) :
    TokenMove tokenHash .refresh .redeemed s s' .redeemed := by
  refine .issue (.of_same htokens hdraws) ?_
  unfold AuthState.redeemable
  rw [htokens]

/-- A row of another token. -/
theorem insert_kept {tokenHash : JsString} {row : RefreshToken} (hne : row.tokenHash ≠ tokenHash) :
    TokenKept tokenHash s { s with refreshTokens := s.refreshTokens.insert row } ∧
      ({ s with refreshTokens := s.refreshTokens.insert row } : AuthState).redeemable tokenHash =
        s.redeemable tokenHash := by
  have hold : ∀ id row', s.refreshTokens.insert row id = some row' → row'.tokenHash = tokenHash →
      s.refreshTokens id = some row' := by
    intro id row' hrow' hhash
    rw [Table.insert_apply] at hrow'
    split at hrow'
    · cases hrow'
      exact absurd hhash hne
    · exact hrow'
  have hnew : ∀ id row', s.refreshTokens id = some row' →
      s.refreshTokens.insert row id = some row' := by
    intro id row' hrow'
    rwa [Table.insert_apply, if_neg (Table.lt_next hrow').ne]
  refine ⟨⟨le_rfl, fun id h => ?_, fun id row' hrow' hhash =>
    ⟨row', hold id row' hrow' hhash, hhash, rfl, fun h => h⟩⟩, ?_⟩
  · obtain ⟨row', hrow'⟩ := Option.ne_none_iff_exists'.mp h
    dsimp only
    rw [hnew id row' hrow']
    exact Option.some_ne_none row'
  · rw [Bool.eq_iff_iff, redeemable_iff, redeemable_iff]
    constructor
    · rintro ⟨id, row', hrow', hlive⟩
      refine ⟨id, row', hold id row' hrow' ?_, hlive⟩
      unfold RefreshToken.live at hlive
      rw [Bool.and_eq_true, beq_iff_eq] at hlive
      exact hlive.1
    · rintro ⟨id, row', hrow', hlive⟩
      exact ⟨id, row', hnew id row' hrow', hlive⟩

/-- An error is right where the token was not redeemed. -/
theorem pairEnd_error {a : TokenPhase} {t : AuthState} {error : HubError} {α : Type}
    {answer : TokenPair → α} (h : Configured env → a ≠ .redeemed) :
    PairEnd env answer a t (.error error) :=
  ⟨nofun, fun hconfigured ha => absurd ha (h hconfigured)⟩

/-- **`issueTokenPair` leaves the old token as it is.** -/
theorem issueTokenPair_follows {userId : UserId} {email : JsString}
    (hs : TokenStored env jwt token s) :
    (issueTokenPair env jwt userId email).Follows (TokenKept (hashToken env token))
      (tokenMoves (hashToken env token) .refresh) (PairEnd env id) .redeemed s := by
  unfold issueTokenPair getOrThrow AuthService.now randomUUID
  cases haccess : env.processEnv (js "JWT_ACCESS_SECRET") with
  | none =>
      refine .bind TokenKept.refl (Proc.follows_throw fun t _ => ?_)
      exact pairEnd_error fun hconfigured => absurd haccess hconfigured.access
  | some accessSecret =>
    refine .bind TokenKept.refl (Proc.follows_pure fun t₀ h₀ => ?_)
    refine .bind TokenKept.refl (Proc.follows_take fun t₁ h₁ => ⟨.redeemed,
      .issue_same rfl le_rfl, fun t₂ h₂ => ?_⟩)
    refine .bind TokenKept.refl (Proc.follows_take fun t₃ h₃ => ⟨.redeemed,
      .issue_same rfl (Nat.le_succ _), fun t₄ h₄ => ?_⟩)
    cases hrefresh : env.processEnv (js "JWT_REFRESH_SECRET") with
    | none =>
        refine .bind TokenKept.refl (Proc.follows_throw fun t _ => ?_)
        exact pairEnd_error fun hconfigured => absurd hrefresh hconfigured.refresh
    | some refreshSecret =>
      refine .bind TokenKept.refl (Proc.follows_pure fun t₅ h₅ => ?_)
      refine .bind TokenKept.refl (Proc.follows_take fun t₆ h₆ => ⟨.redeemed,
        .issue_same rfl le_rfl, fun t₇ h₇ => ?_⟩)
      refine .bind TokenKept.refl (Proc.follows_take fun t₈ h₈ => ⟨.redeemed,
        .issue_same rfl le_rfl, fun t₉ h₉ => ?_⟩)
      dsimp only
      cases hduration : durationToMs (configGet env (js "JWT_REFRESH_EXPIRES_IN") (js "30d")) with
      | none =>
          refine Proc.follows_throw fun t _ => ?_
          exact pairEnd_error fun hconfigured => absurd hduration hconfigured.duration
      | some duration =>
        dsimp only
        -- the new token comes from a use of the random source after the start
        have hdraw : s.draws ≤ t₃.draws :=
          h₀.draws.trans (h₁.draws.trans (h₂.draws.trans h₃.draws))
        have hfresh := hs.fresh userId email refreshSecret
          (configGet env (js "JWT_REFRESH_EXPIRES_IN") (js "30d"))
            (env.clock t₆.reads) t₃.draws hdraw
        refine .bind TokenKept.refl (Proc.follows_atomically fun t₁₀ h₁₀ => ⟨.redeemed,
          .issue (insert_kept hfresh).1 (insert_kept hfresh).2, fun t₁₁ h₁₁ => ?_⟩)
        exact Proc.follows_pure fun t _ => ⟨fun _ _ => rfl, fun _ _ => ⟨_, rfl⟩⟩

/-- A change that keeps what identifies a row and revokes at most. -/
theorem revoke_kept {tokenHash : JsString} {s' : AuthState} {f : ℕ → RefreshToken → RefreshToken}
    (htokens : ∀ id, s'.refreshTokens id = (s.refreshTokens id).map (f id))
    (hdraws : s'.draws = s.draws)
    (hf : ∀ id row, (f id row).tokenHash = row.tokenHash ∧ (f id row).userId = row.userId ∧
      (row.revoked = true → (f id row).revoked = true)) : TokenKept tokenHash s s' where
  draws := hdraws.ge
  rows id h := by
    rw [htokens]
    exact fun hnone => h (Option.map_eq_none_iff.mp hnone)
  old id row' hrow' hhash := by
    rw [htokens, Option.map_eq_some_iff] at hrow'
    obtain ⟨row, hrow, rfl⟩ := hrow'
    obtain ⟨hsame, huser, hrevoked⟩ := hf id row
    exact ⟨row, hrow, hsame.symm.trans hhash, huser.symm, hrevoked⟩

/-- A node that leaves the tokens alone, of a call that has not found its token. -/
theorem TokenMove.ask_same {tokenHash : JsString} {call : TokenCall} {n : ℕ} {s' : AuthState}
    (hn : n < 3) (htokens : s'.refreshTokens = s.refreshTokens) (hdraws : s.draws ≤ s'.draws) :
    TokenMove tokenHash call (.asking n) s s' (.asking (n + 1)) := by
  refine .ask hn (.of_same htokens hdraws) ?_
  unfold AuthState.redeemable
  rw [htokens]

/-- A found row is one of the token, and not revoked. -/
theorem unrevoked_live {userId : UserId} {tokenHash : JsString} {row : RefreshToken}
    (h : unrevoked userId tokenHash row = true) : row.live tokenHash = true := by
  unfold unrevoked at h
  unfold RefreshToken.live
  rw [Bool.and_eq_true, Bool.and_eq_true] at h
  rw [Bool.and_eq_true]
  exact ⟨h.1.2, h.2⟩

/-- Revoking the row that was the unrevoked one leaves none. -/
theorem redeem_dead {id : ℕ} {row : RefreshToken} {s' : AuthState}
    (hs : TokenStored env jwt token s) (hrow : s.refreshTokens id = some row)
    (hlive : row.live (hashToken env token) = true) (hkept : TokenKept (hashToken env token) s s') :
    ({ s' with refreshTokens := s'.refreshTokens.modify id fun row =>
      { row with revoked := true } } : AuthState).redeemable (hashToken env token) = false := by
  rw [not_redeemable_iff]
  intro id' row' hrow'
  rw [Table.modify_apply] at hrow'
  split at hrow'
  · obtain ⟨old, -, rfl⟩ := Option.map_eq_some_iff.mp hrow'
    exact Bool.and_false _
  · next hne =>
      by_contra hlive'
      rw [Bool.not_eq_false] at hlive'
      obtain ⟨old, hold, hwas⟩ := hkept.live hrow' hlive'
      exact hne (hs.single id' id old row hold hrow hwas hlive)

/-- **`refresh` finds the token, revokes it and issues a pair.** -/
theorem refresh_follows (hs : TokenStored env jwt token s) :
    (TokenCall.refresh.program env jwt token).Follows (TokenKept (hashToken env token))
      (tokenMoves (hashToken env token) .refresh) (TokenEnd env .refresh) (.asking 0) s := by
  suffices hrefresh : (AuthService.refresh env jwt token).Follows (TokenKept (hashToken env token))
      (tokenMoves (hashToken env token) .refresh) (PairEnd env id) (.asking 0) s by
    refine .bind TokenKept.refl (hrefresh.mono fun a t outcome hend => ?_)
    cases outcome with
    | ok pair =>
        refine Proc.follows_pure fun _ _ => ⟨fun _ _ => hend.1 pair rfl, fun _ _ => ⟨pair, rfl⟩⟩
    | error error =>
        exact ⟨nofun, fun hconfigured ha => nomatch (hend.2 hconfigured ha).choose_spec⟩
  unfold AuthService.refresh verifyRefreshToken AuthService.now
  refine .bind TokenKept.refl (Proc.follows_take fun t₁ h₁ => ⟨.asking 1,
    .ask_same (by omega) rfl le_rfl, fun t₂ h₂ => ?_⟩)
  cases hverified : verified env jwt token (env.clock t₁.reads) with
  | none => exact Proc.follows_throw fun _ _ => pairEnd_error fun _ => nofun
  | some payload =>
    dsimp only
    refine .bind TokenKept.refl (Proc.follows_take fun t₃ h₃ => ⟨.asking 2,
      .ask_same (by omega) rfl le_rfl, fun t₄ h₄ => ?_⟩)
    refine .bind TokenKept.refl (Proc.follows_read fun t₅ h₅ => ?_)
    -- the token is stored under its digest as long as the pool runs
    have hstored : TokenStored env jwt token t₅ :=
      ((hs.kept h₁).kept ((TokenKept.clock t₁).trans h₂)).kept
        (h₃.trans ((TokenKept.clock t₃).trans (h₄.trans h₅)))
    cases hfound : (env.rowOrder (t₅.refreshTokens.toList.filter fun row =>
        unrevoked payload.sub (hashToken env token) row.2 &&
          decide (env.clock t₃.reads < row.2.expiresAt))).head? with
    | none =>
        refine ⟨.asking 3, .ask_same (by omega) rfl le_rfl, fun t₆ h₆ => ?_⟩
        exact Proc.follows_throw fun _ _ => pairEnd_error fun _ => nofun
    | some found =>
      obtain ⟨id, row⟩ := found
      have hmem := (env.rowOrder_perm _).mem_iff.mp (List.mem_of_head? hfound)
      rw [List.mem_filter, Table.mem_toList, Bool.and_eq_true] at hmem
      obtain ⟨hrow, hunrevoked, -⟩ := hmem
      -- the row is found at this node, and revoked at the next one
      have hlive := unrevoked_live hunrevoked
      refine ⟨.found, .find (redeemable_iff.mpr ⟨id, row, hrow, hlive⟩), fun t₆ h₆ => ?_⟩
      dsimp only
      unfold refreshTokenRevoke
      refine .bind TokenKept.refl (Proc.follows_atomically_moves fun t₇ h₇ => ?_)
      have hkept : TokenKept (hashToken env token) t₅ t₇ := h₆.trans h₇
      obtain ⟨row', hrow'⟩ := Option.ne_none_iff_exists'.mp
        (hkept.rows id (by rw [hrow]; exact Option.some_ne_none row))
      have hrevoke : TokenKept (hashToken env token) t₇ { t₇ with
          refreshTokens := t₇.refreshTokens.modify id fun row =>
            { row with revoked := true } } := by
        refine revoke_kept
          (f := fun id' row => if id' = id then { row with revoked := true } else row)
          (fun id' => ?_) rfl fun id' row => ?_
        · rw [Table.modify_apply]
          split
          · next heq => rw [heq]
          · simp only [Option.map_id']
        · split
          · exact ⟨rfl, rfl, fun _ => rfl⟩
          · exact ⟨rfl, rfl, fun h => h⟩
      refine ⟨.redeemed, .ok (), _, by rw [Proc.run_atomically, hrow'],
        .redeem hrevoke (redeem_dead hstored hrow hlive hkept), fun t₈ h₈ => ?_⟩
      exact issueTokenPair_follows (hstored.kept (hkept.trans (hrevoke.trans h₈)))

/-- **`logout` revokes the token**, unless it is not valid. -/
theorem logout_follows (hs : TokenStored env jwt token s) :
    (TokenCall.logout.program env jwt token).Follows (TokenKept (hashToken env token))
      (tokenMoves (hashToken env token) .logout) (TokenEnd env .logout) (.asking 0) s := by
  suffices hlogout : (AuthService.logout env jwt token).Follows (TokenKept (hashToken env token))
      (tokenMoves (hashToken env token) .logout)
      (fun a _ _ => a = .revoked ∨ a = .refused) (.asking 0) s by
    refine .bind TokenKept.refl (hlogout.mono fun a t outcome hend => ?_)
    cases outcome with
    | ok done => exact Proc.follows_pure fun _ _ => ⟨hend, nofun⟩
    | error error => exact ⟨hend, nofun⟩
  unfold AuthService.logout verifyRefreshToken
  -- the token is valid or not by the clock of the first node
  refine .bind TokenKept.refl (Proc.follows_take fun t₁ h₁ => ?_)
  cases hverified : verified env jwt token (env.clock t₁.reads) with
  | none =>
      refine ⟨.refused, .refuse (.clock t₁) rfl, fun t₂ h₂ => ?_⟩
      exact Proc.follows_pure fun _ _ => .inr rfl
  | some payload =>
      refine ⟨.asking 1, .ask_same (by omega) rfl le_rfl, fun t₂ h₂ => ?_⟩
      refine Proc.follows_atomically_moves fun t₃ h₃ => ?_
      have hkept : TokenKept (hashToken env token) s t₃ :=
        h₁.trans ((TokenKept.clock t₁).trans (h₂.trans h₃))
      refine ⟨.revoked, .ok (), _, Proc.run_atomically _ _, .revoke ?_ ?_, fun _ _ => .inl rfl⟩
      · refine revoke_kept (fun id => Table.map_apply _ _ id) rfl fun id row => ?_
        split
        · exact ⟨rfl, rfl, fun _ => rfl⟩
        · exact ⟨rfl, rfl, fun h => h⟩
      · rw [not_redeemable_iff]
        intro id row' hrow'
        rw [Table.map_apply] at hrow'
        obtain ⟨row, hrow, rfl⟩ := Option.map_eq_some_iff.mp hrow'
        split
        · exact Bool.and_false _
        · next hnot =>
            -- the row would have been of the user the token names
            by_contra hlive
            rw [Bool.not_eq_false] at hlive
            refine hnot ?_
            unfold RefreshToken.live at hlive
            rw [Bool.and_eq_true, beq_iff_eq] at hlive
            unfold unrevoked
            rw [(hs.kept hkept).owner _ payload hverified id row hrow hlive.1, hlive.1, hlive.2,
              beq_self_eq_true, beq_self_eq_true]
            rfl

end Calls

/-! ## The pool -/

/-- What a phase says of the past of a call. -/
def TokenPhase.Fits (tokenHash : JsString) (call : TokenCall) (thread : TokenThread) :
    TokenPhase → Prop
  | asking n => thread.past.length = n ∧ hasRevoked tokenHash thread = false
  | found => call = .refresh ∧ thread.past.length = 3 ∧ hasRevoked tokenHash thread = false
  | redeemed => call = .refresh ∧ 4 ≤ thread.past.length
  | revoked => call = .logout
  | refused => call = .logout ∧ thread.past.length = 1

/-- The call of a thread; the default is never asked for. -/
def callAt (calls : List TokenCall) (i : ℕ) : TokenCall := calls[i]?.getD .refresh

/-- **What a pool of calls on one token looks like.** -/
structure TokenAccount (tokenHash : JsString) (calls : List TokenCall) (phase : ℕ → TokenPhase)
    (P : TokenPool) : Prop where
  fits : ∀ i thread, P.threads[i]? = some thread →
    (phase i).Fits tokenHash (callAt calls i) thread
  dead : ∀ i, phase i = .redeemed ∨ phase i = .revoked → P.shared.redeemable tokenHash = false
  lost : ∀ i, phase i = .found → P.shared.redeemable tokenHash = true ∨
    ∃ j < P.threads.length, phase j = .redeemed ∨ phase j = .revoked

/-- **What it looks like while its schedule is current**, too: one call has redeemed the
token, and did so by revoking it. -/
structure TokenOnce (tokenHash : JsString) (phase : ℕ → TokenPhase) (P : TokenPool) : Prop where
  single : ∀ i j, phase i = .redeemed → phase j = .redeemed → i = j
  revoked : ∀ i thread, P.threads[i]? = some thread → phase i = .redeemed →
    hasRevoked tokenHash thread = true

section Pool

variable {env : Env} {jwt : JwtService} {token tokenHash : JsString} {calls : List TokenCall}
  {s s' : AuthState} {phase : ℕ → TokenPhase} {P : TokenPool} {i : ℕ} {a a' : TokenPhase}
  {call : TokenCall}

/-- Who has revoked is read off the past node by node. -/
theorem hasRevoked_append {thread : TokenThread} {program : AuthM (Option TokenPair)} :
    hasRevoked tokenHash ⟨program, thread.past ++ [(s, s')]⟩ =
      (hasRevoked tokenHash thread || s.redeemable tokenHash && !s'.redeemable tokenHash) := by
  unfold hasRevoked
  rw [List.any_append, List.any_cons, List.any_nil, Bool.or_false]

/-- A node that keeps what can be redeemed revokes nothing. -/
theorem hasRevoked_same {thread : TokenThread} {program : AuthM (Option TokenPair)}
    (hrevoked : hasRevoked tokenHash thread = false)
    (hsame : s'.redeemable tokenHash = s.redeemable tokenHash) :
    hasRevoked tokenHash ⟨program, thread.past ++ [(s, s')]⟩ = false := by
  rw [hasRevoked_append, hrevoked, hsame, Bool.and_not_self]
  rfl

/-- The past of a call grows as its phase says. -/
theorem TokenMove.fits {thread : TokenThread} {program : AuthM (Option TokenPair)}
    (hmove : TokenMove tokenHash call a s s' a') (hfits : a.Fits tokenHash call thread) :
    a'.Fits tokenHash call ⟨program, thread.past ++ [(s, s')]⟩ := by
  have hgrows : (thread.past ++ [(s, s')]).length = thread.past.length + 1 := by
    rw [List.length_append, List.length_singleton]
  cases hmove with
  | ask hn hkept hsame =>
      exact ⟨hgrows.trans (congrArg (· + 1) hfits.1), hasRevoked_same hfits.2 hsame⟩
  | find hlive => exact ⟨rfl, hgrows.trans (congrArg (· + 1) hfits.1), hasRevoked_same hfits.2 rfl⟩
  | redeem hkept hdead => exact ⟨rfl, (hgrows.trans (congrArg (· + 1) hfits.2.1)).ge⟩
  | issue hkept hsame => exact ⟨rfl, (hfits.2.trans (Nat.le_succ _)).trans hgrows.ge⟩
  | revoke hkept hdead => rfl
  | refuse hkept hsame => exact ⟨rfl, hgrows.trans (congrArg (· + 1) hfits.1)⟩

/-- Nothing makes a token redeemable again. -/
theorem TokenMove.dead (hmove : TokenMove tokenHash call a s s' a')
    (hdead : s.redeemable tokenHash = false) : s'.redeemable tokenHash = false := by
  rw [not_redeemable_iff] at hdead ⊢
  intro id row' hrow'
  by_contra hlive
  rw [Bool.not_eq_false] at hlive
  obtain ⟨row, hrow, hwas⟩ := hmove.kept.live hrow' hlive
  rw [hdead id row hrow] at hwas
  cases hwas

/-- A token is dead once it was redeemed or revoked. -/
theorem TokenMove.ends (hmove : TokenMove tokenHash call a s s' a')
    (hend : a' = .redeemed ∨ a' = .revoked) :
    (a = .redeemed ∨ a = .revoked) ∧ s'.redeemable tokenHash = s.redeemable tokenHash ∨
      s'.redeemable tokenHash = false := by
  cases hmove with
  | ask hn hkept hsame => exact hend.elim nofun nofun
  | find hlive => exact hend.elim nofun nofun
  | redeem hkept hdead => exact .inr hdead
  | issue hkept hsame => exact .inl ⟨.inl rfl, hsame⟩
  | revoke hkept hdead => exact .inr hdead
  | refuse hkept hsame => exact hend.elim nofun nofun

/-- Who redeemed or revoked the token stays who did. -/
theorem TokenMove.stays (hmove : TokenMove tokenHash call a s s' a')
    (hdone : a = .redeemed ∨ a = .revoked) : a' = .redeemed ∨ a' = .revoked := by
  cases hmove with
  | ask hn hkept hsame => exact hdone.elim nofun nofun
  | find hlive => exact hdone.elim nofun nofun
  | redeem hkept hdead => exact .inl rfl
  | issue hkept hsame => exact .inl rfl
  | revoke hkept hdead => exact .inr rfl
  | refuse hkept hsame => exact hdone.elim nofun nofun

/-- Who takes the token from those who found it has redeemed or revoked it. -/
theorem TokenMove.takes (hmove : TokenMove tokenHash call a s s' a') :
    s'.redeemable tokenHash = s.redeemable tokenHash ∨ a' = .redeemed ∨ a' = .revoked := by
  cases hmove with
  | ask hn hkept hsame => exact .inl hsame
  | find hlive => exact .inl rfl
  | redeem hkept hdead => exact .inr (.inl rfl)
  | issue hkept hsame => exact .inl hsame
  | revoke hkept hdead => exact .inr (.inr rfl)
  | refuse hkept hsame => exact .inl hsame

/-- A call that finds the row finds it live. -/
theorem TokenMove.finds (hmove : TokenMove tokenHash call a s s' .found) :
    s'.redeemable tokenHash = true := by
  cases hmove with
  | find hlive => exact hlive

/-- **One step of the protocols keeps the account.** -/
theorem TokenAccount.step (h : TokenAccount tokenHash calls phase P) (hlive : P.live i = true)
    (hmove : TokenMove tokenHash (callAt calls i) (phase i) P.shared (P.step i).shared a') :
    TokenAccount tokenHash calls (Function.update phase i a') (P.step i) := by
  obtain ⟨thread, hthread, -⟩ := Pool.live_iff.mp hlive
  have hdone : ∀ j, phase j = .redeemed ∨ phase j = .revoked →
      Function.update phase i a' j = .redeemed ∨ Function.update phase i a' j = .revoked := by
    intro j hj
    by_cases heq : j = i
    · subst heq
      rw [Function.update_self]
      exact hmove.stays hj
    · rwa [Function.update_of_ne heq]
  constructor
  · refine Pool.forall_step
      (J := fun j a other => TokenPhase.Fits tokenHash (callAt calls j) other a)
      hlive h.fits fun other program shared hother _ hshared => ?_
    rw [← hshared]
    exact hmove.fits (h.fits i other hother)
  · intro j hj
    by_cases heq : j = i
    · subst heq
      rw [Function.update_self] at hj
      rcases hmove.ends hj with ⟨hwas, hsame⟩ | hdead
      · exact hsame.trans (h.dead j hwas)
      · exact hdead
    · rw [Function.update_of_ne heq] at hj
      exact hmove.dead (h.dead j hj)
  · intro j hj
    by_cases heq : j = i
    · subst heq
      rw [Function.update_self] at hj
      subst hj
      exact .inl hmove.finds
    · rw [Function.update_of_ne heq] at hj
      rcases hmove.takes with hsame | htook
      · rcases h.lost j hj with hredeemable | ⟨k, hlt, hk⟩
        · exact .inl (hsame.trans hredeemable)
        · exact .inr ⟨k, Pool.step_length.symm ▸ hlt, hdone k hk⟩
      · obtain ⟨hlt, -⟩ := List.getElem?_eq_some_iff.mp hthread
        exact .inr ⟨i, Pool.step_length.symm ▸ hlt, by rwa [Function.update_self]⟩

/-- Who redeems the token had found it. -/
theorem TokenMove.redeems (hmove : TokenMove tokenHash call a s s' .redeemed) :
    a = .redeemed ∨ a = .found ∧ s'.redeemable tokenHash = false := by
  cases hmove with
  | redeem hkept hdead => exact .inr ⟨rfl, hdead⟩
  | issue hkept hsame => exact .inl rfl

/-- The call of a thread that is there. -/
theorem getElem?_callAt (hlt : i < calls.length) : calls[i]? = some (callAt calls i) := by
  unfold callAt
  rw [List.getElem?_eq_getElem hlt]
  rfl

/-- The number of a thread is that of its call. -/
theorem callAt_of_getElem? (h : calls[i]? = some call) : callAt calls i = call := by
  unfold callAt
  rw [h]
  rfl

/-- Where a call is about to redeem the token, the condition on the schedule is about it. -/
theorem TokenAccount.current (h : TokenAccount tokenHash calls phase P)
    (hsize : P.threads.length = calls.length) (hlive : P.live i = true)
    (hfound : phase i = .found) (hcurrent : P.Current tokenHash calls i) :
    P.shared.redeemable tokenHash = true ∧
      ∀ (j : ℕ) (other : TokenThread), calls[j]? = some TokenCall.logout →
        P.threads[j]? = some other → other.past.length = 1 → other.program.outcome? = none := by
  obtain ⟨thread, hthread, -⟩ := Pool.live_iff.mp hlive
  have hfits := h.fits i thread hthread
  rw [hfound] at hfits
  obtain ⟨hlt, -⟩ := List.getElem?_eq_some_iff.mp hthread
  obtain ⟨hredeemable, hlogout⟩ :=
    hcurrent (by rw [getElem?_callAt (hsize ▸ hlt), hfits.1]) thread hthread hfits.2.1
  refine ⟨hredeemable, fun j other hj hother hlength => ?_⟩
  obtain ⟨hjlt, -⟩ := List.getElem?_eq_some_iff.mp hj
  exact Option.isNone_iff_eq_none.mp (hlogout j hjlt hj other hother hlength)

/-- **One current step redeems the token once.** -/
theorem TokenOnce.step (honce : TokenOnce tokenHash phase P)
    (h : TokenAccount tokenHash calls phase P) (hlive : P.live i = true)
    (hcurrent : phase i = .found → P.shared.redeemable tokenHash = true)
    (hmove : TokenMove tokenHash (callAt calls i) (phase i) P.shared (P.step i).shared a') :
    TokenOnce tokenHash (Function.update phase i a') (P.step i) := by
  -- another call that has redeemed the token left nothing to redeem
  have hfirst : ∀ j, phase j = .redeemed → a' = .redeemed → phase i = .redeemed := by
    rintro j hj rfl
    rcases hmove.redeems with hwas | ⟨hfound, -⟩
    · exact hwas
    · have hredeemable := hcurrent hfound
      rw [h.dead j (.inl hj)] at hredeemable
      cases hredeemable
  constructor
  · exact Pool.single_update (Q := (· = TokenPhase.redeemed)) honce.single hfirst
  · intro j other hother
    refine Pool.forall_step
      (J := fun _ a other => a = TokenPhase.redeemed → hasRevoked tokenHash other = true)
      hlive (fun j other => honce.revoked j other) (fun other program shared hother _ hshared => ?_)
      j other hother
    rintro rfl
    rw [hasRevoked_append, ← hshared]
    rcases hmove.redeems with hwas | ⟨hfound, hdead⟩
    · rw [honce.revoked i other hother hwas]
      rfl
    · rw [hcurrent hfound, hdead]
      exact Bool.or_true _

/-- **A call that has not redeemed the token when a `logout` has returned does not
redeem it**, where the schedule is current. -/
theorem TokenAccount.late {j : ℕ} {other : TokenThread}
    (h : TokenAccount tokenHash calls phase P) (hsize : P.threads.length = calls.length)
    (hlive : P.live i = true) (hcurrent : P.Current tokenHash calls i)
    (hmove : TokenMove tokenHash (callAt calls i) (phase i) P.shared (P.step i).shared a')
    (hcall : calls[j]? = some .logout) (hother : P.threads[j]? = some other)
    (hended : other.program.outcome? ≠ none) (hlogout : phase j = .revoked ∨ phase j = .refused)
    (hnot : phase i ≠ .redeemed) : a' ≠ .redeemed := by
  rintro rfl
  rcases hmove.redeems with hwas | ⟨hfound, -⟩
  · exact hnot hwas
  obtain ⟨hredeemable, hrefused⟩ := h.current hsize hlive hfound hcurrent
  rcases hlogout with hrevoked | hphase
  · rw [h.dead j (.inr hrevoked)] at hredeemable
    cases hredeemable
  · have hfits := h.fits j other hother
    rw [hphase] at hfits
    exact hended (hrefused j other hcall hother hfits.2)

/-- Every call follows its protocol. -/
theorem tokenPool_follows (hs : TokenStored env jwt token s) :
    (tokenPool env jwt token s calls).Follows (TokenKept (hashToken env token))
      (fun i => tokenMoves (hashToken env token) (callAt calls i))
      (fun i => TokenEnd env (callAt calls i)) (fun _ => .asking 0) := by
  refine Pool.follows_start fun i program hprogram => ?_
  rw [List.getElem?_map, Option.map_eq_some_iff] at hprogram
  obtain ⟨call, hcall, rfl⟩ := hprogram
  rw [callAt_of_getElem? hcall]
  cases call with
  | refresh => exact refresh_follows hs
  | logout => exact logout_follows hs

/-- At the beginning no call has found anything, and no pair has been issued. -/
theorem tokenAccount_start :
    TokenAccount tokenHash calls (fun _ => .asking 0) (tokenPool env jwt token s calls) where
  fits i thread hthread := by
    unfold tokenPool Pool.start at hthread
    rw [List.getElem?_map, Option.map_eq_some_iff] at hthread
    obtain ⟨program, -, rfl⟩ := hthread
    exact ⟨rfl, rfl⟩
  dead i hi := hi.elim nofun nofun
  lost i hi := nomatch hi

/-- The protocols of the calls of a pool, and where they end. -/
abbrev TokenPool.InPhase (env : Env) (tokenHash : JsString) (calls : List TokenCall)
    (phase : ℕ → TokenPhase) (P : TokenPool) : Prop :=
  Pool.Follows (TokenKept tokenHash) (fun i => tokenMoves tokenHash (callAt calls i))
    (fun i => TokenEnd env (callAt calls i)) phase P

/-- Who has redeemed the token stays who has. -/
theorem TokenMove.redeemed (hmove : TokenMove tokenHash call .redeemed s s' a') :
    a' = .redeemed := by
  cases hmove with
  | issue hkept hsame => rfl

/-- **Every run of the calls keeps the account**, and who has redeemed the token. -/
theorem TokenAccount.exec {schedule : List ℕ}
    (hfollows : TokenPool.InPhase env tokenHash calls phase P)
    (h : TokenAccount tokenHash calls phase P) (hruns : tokenMachine.Runs P schedule) :
    ∃ phase', TokenPool.InPhase env tokenHash calls phase' (tokenMachine.exec P schedule) ∧
      TokenAccount tokenHash calls phase' (tokenMachine.exec P schedule) ∧
      ∀ i, phase i = .redeemed → phase' i = .redeemed := by
  refine Pool.Follows.exec (C := fun _ _ => True) (I := fun phase' P =>
    TokenAccount tokenHash calls phase' P ∧ ∀ i, phase i = .redeemed → phase' i = .redeemed)
    TokenKept.refl (@TokenKept.trans tokenHash) (fun _ _ _ _ _ hmove => hmove.kept)
    (fun phase' P i update a' hI hlive _ _ hshared hmove => ?_)
    hruns (fun _ _ => trivial) hfollows ⟨h, fun _ hi => hi⟩
  obtain ⟨haccount, hstays⟩ := hI
  refine ⟨haccount.step hlive (by rw [hshared]; exact hmove), fun j hj => ?_⟩
  by_cases heq : j = i
  · subst heq
    rw [Function.update_self]
    rw [hstays j hj] at hmove
    exact TokenMove.redeemed hmove
  · rw [Function.update_of_ne heq]
    exact hstays j hj

/-- **Every current run keeps it, and redeems the token once.** -/
theorem TokenOnce.exec {schedule : List ℕ}
    (hfollows : TokenPool.InPhase env tokenHash calls phase P)
    (h : TokenAccount tokenHash calls phase P) (honce : TokenOnce tokenHash phase P)
    (hsize : P.threads.length = calls.length) (hruns : tokenMachine.Runs P schedule)
    (hcurrent : ∀ visit ∈ tokenMachine.visits P schedule,
      TokenPool.Current tokenHash calls visit.1 visit.2) :
    ∃ phase', TokenPool.InPhase env tokenHash calls phase' (tokenMachine.exec P schedule) ∧
      TokenAccount tokenHash calls phase' (tokenMachine.exec P schedule) ∧
      TokenOnce tokenHash phase' (tokenMachine.exec P schedule) := by
  obtain ⟨phase', hfollows', -, haccount', honce'⟩ := Pool.Follows.exec
    (I := fun phase P => P.threads.length = calls.length ∧ TokenAccount tokenHash calls phase P ∧
      TokenOnce tokenHash phase P) TokenKept.refl (@TokenKept.trans tokenHash)
    (fun _ _ _ _ _ hmove => hmove.kept)
    (fun phase P i update a' hI hlive hcond _ hshared hmove => by
      obtain ⟨hsize, haccount, honce⟩ := hI
      have hmove' : TokenMove tokenHash (callAt calls i) (phase i) P.shared
        (P.step i).shared a' := by
        rw [hshared]
        exact hmove
      exact ⟨Pool.step_length.trans hsize, haccount.step hlive hmove',
        honce.step haccount hlive
          (fun hfound => (haccount.current hsize hlive hfound hcond).1) hmove'⟩)
    hruns hcurrent hfollows ⟨hsize, h, honce⟩
  exact ⟨phase', hfollows', haccount', honce'⟩

/-- A call that answers with a pair has redeemed the token. -/
theorem TokenPool.InPhase.redeemed {pair : TokenPair}
    (h : TokenPool.InPhase env tokenHash calls phase P)
    (houtcome : P.outcome? i = some (.ok (some pair))) : phase i = .redeemed := by
  obtain ⟨thread, hthread, hended⟩ := Option.bind_eq_some_iff.mp houtcome
  have hend : TokenEnd env (callAt calls i) (phase i) P.shared (.ok (some pair)) :=
    (h i thread hthread).ended (.refl _) hended
  cases hcall : callAt calls i with
  | refresh =>
      rw [hcall] at hend
      exact hend.1 pair rfl
  | logout =>
      rw [hcall] at hend
      exact absurd rfl (hend.2 pair)

/-- A `logout` that has returned revoked the token, or found it not valid. -/
theorem TokenPool.InPhase.returned {thread : TokenThread}
    (h : TokenPool.InPhase env tokenHash calls phase P)
    (hcall : calls[i]? = some .logout) (hthread : P.threads[i]? = some thread)
    (hended : thread.program.outcome? ≠ none) : phase i = .revoked ∨ phase i = .refused := by
  obtain ⟨outcome, houtcome⟩ := Option.ne_none_iff_exists'.mp hended
  have hend : TokenEnd env (callAt calls i) (phase i) P.shared outcome :=
    (h i thread hthread).ended (.refl _) houtcome
  rw [callAt_of_getElem? hcall] at hend
  exact hend.1

/-- **Where a `logout` has returned, a call that has not redeemed the token answers with
no pair.** -/
theorem TokenAccount.exec_late {schedule : List ℕ} {j : ℕ} {other : TokenThread}
    (hfollows : TokenPool.InPhase env tokenHash calls phase P)
    (h : TokenAccount tokenHash calls phase P)
    (hsize : P.threads.length = calls.length) (hcall : calls[j]? = some .logout)
    (hother : P.threads[j]? = some other) (hended : other.program.outcome? ≠ none)
    (hnot : phase i ≠ .redeemed) (hruns : tokenMachine.Runs P schedule)
    (hcurrent : ∀ visit ∈ tokenMachine.visits P schedule,
      TokenPool.Current tokenHash calls visit.1 visit.2) (pair : TokenPair) :
    (tokenMachine.exec P schedule).outcome? i ≠ some (.ok (some pair)) := by
  obtain ⟨phase', hfollows', -, -, -, -, hnot'⟩ := Pool.Follows.exec
    (I := fun phase P => P.threads.length = calls.length ∧ TokenAccount tokenHash calls phase P ∧
      P.threads[j]? = some other ∧ (phase j = .revoked ∨ phase j = .refused) ∧
      phase i ≠ .redeemed) TokenKept.refl (@TokenKept.trans tokenHash)
    (fun _ _ _ _ _ hmove => hmove.kept)
    (fun phase P k update a' hI hlive hcond _ hshared hmove => by
      obtain ⟨hsize, haccount, hother, hlogout, hnot⟩ := hI
      have hmove' : TokenMove tokenHash (callAt calls k) (phase k) P.shared
        (P.step k).shared a' := by
        rw [hshared]
        exact hmove
      -- the `logout` has ended
      have hjk : j ≠ k := by
        rintro rfl
        obtain ⟨thread, hthread, hnone⟩ := Pool.live_iff.mp hlive
        rw [hother, Option.some.injEq] at hthread
        exact hended (hthread ▸ hnone)
      refine ⟨Pool.step_length.trans hsize, haccount.step hlive hmove',
        (Pool.step_other hjk).trans hother, by rwa [Function.update_of_ne hjk], ?_⟩
      by_cases heq : i = k
      · subst heq
        rw [Function.update_self]
        exact haccount.late hsize hlive hcond hmove' hcall hother hended hlogout hnot
      · rwa [Function.update_of_ne heq])
    hruns hcurrent hfollows
    ⟨hsize, h, hother, TokenPool.InPhase.returned hfollows hcall hother hended, hnot⟩
  exact fun houtcome => hnot' (TokenPool.InPhase.redeemed hfollows' houtcome)

/-- **A current schedule redeems the token once.** -/
theorem redeemedOnce_of_current (hs : TokenStored env jwt token s) {schedule : List ℕ}
    (hruns : tokenMachine.Runs (tokenPool env jwt token s calls) schedule)
    (hcurrent : ∀ visit ∈ tokenMachine.visits (tokenPool env jwt token s calls) schedule,
      TokenPool.Current (hashToken env token) calls visit.1 visit.2) :
    RedeemedOnce (hashToken env token) calls (tokenPool env jwt token s calls) schedule := by
  have hsize : (tokenPool env jwt token s calls).threads.length = calls.length := by
    unfold tokenPool Pool.start
    rw [List.length_map, List.length_map]
  have hstart : TokenOnce (hashToken env token) (fun _ => .asking 0)
      (tokenPool env jwt token s calls) := ⟨nofun, nofun⟩
  constructor
  · obtain ⟨phase, hfollows, -, honce⟩ :=
      hstart.exec (tokenPool_follows hs) tokenAccount_start hsize hruns hcurrent
    intro i j pair pair' hi hj
    exact honce.single i j (TokenPool.InPhase.redeemed hfollows hi)
      (TokenPool.InPhase.redeemed hfollows hj)
  · rintro front back rfl i hcall hreturned j thread hthread hrevoked pair
    rw [Machine.visits_append, List.forall_mem_append] at hcurrent
    obtain ⟨hfront, hback⟩ := (Machine.runs_append _ _ _ _).mp hruns
    obtain ⟨phase, hfollows, haccount, honce⟩ :=
      hstart.exec (tokenPool_follows hs) tokenAccount_start hsize hfront hcurrent.1
    obtain ⟨outcome, houtcome⟩ := Option.ne_none_iff_exists'.mp hreturned
    obtain ⟨other, hother, hended⟩ := Option.bind_eq_some_iff.mp houtcome
    rw [Machine.exec_append]
    refine haccount.exec_late hfollows (Pool.exec_length.trans hsize) hcall hother
      (by rw [hended]; exact Option.some_ne_none _) (fun hredeemed => ?_) hback hcurrent.2 pair
    rw [honce.revoked j thread hthread hredeemed] at hrevoked
    cases hrevoked

/-- In a finished pool, who has redeemed the token answers with a pair. -/
theorem TokenPool.InPhase.answers (h : TokenPool.InPhase env tokenHash calls phase P)
    (hconfigured : Configured env) (hfinished : P.finished = true)
    (hsize : P.threads.length = calls.length) (hlt : i < calls.length)
    (hcall : callAt calls i = .refresh) (hredeemed : phase i = .redeemed) :
    ∃ pair, P.outcome? i = some (.ok (some pair)) := by
  obtain ⟨outcome, houtcome, hend⟩ := h.outcome TokenKept.refl hfinished (i := i) (hsize ▸ hlt)
  have hpair : PairEnd env some (phase i) P.shared outcome := by
    rw [hcall] at hend
    exact hend
  obtain ⟨pair, rfl⟩ := hpair.2 hconfigured hredeemed
  exact ⟨pair, houtcome⟩

/-- A call that is about to act as one that found the token has found it. -/
theorem TokenAccount.found {thread : TokenThread} (h : TokenAccount tokenHash calls phase P)
    (hthread : P.threads[i]? = some thread) (hcall : calls[i]? = some .refresh)
    (hpast : thread.past.length = 3)
    (hmove : TokenMove tokenHash (callAt calls i) (phase i) P.shared s' a') :
    phase i = .found ∧ a' = .redeemed := by
  have hat := callAt_of_getElem? hcall
  have hfits := h.fits i thread hthread
  generalize hphase : phase i = a at hmove hfits
  rw [hat] at hmove hfits
  cases hmove with
  | ask hn hkept hsame => exact absurd (hfits.1.symm.trans hpast) hn.ne
  | find hlive => exact absurd (hfits.1.symm.trans hpast) (by decide)
  | redeem hkept hdead => exact ⟨rfl, rfl⟩
  | issue hkept hsame => exact absurd hpast (by have := hfits.2; omega)

/-- A call that has revoked the token does nothing more. -/
theorem TokenMove.not_revoked : ¬TokenMove tokenHash call .revoked s s' a' := by
  rintro ⟨⟩

/-- A `logout` that has revoked the token has returned. -/
theorem TokenPool.InPhase.ended {thread : TokenThread}
    (h : TokenPool.InPhase env tokenHash calls phase P) (hthread : P.threads[i]? = some thread)
    (hrevoked : phase i = .revoked) : thread.program.outcome? ≠ none := by
  intro hnone
  obtain ⟨update, a', -, -, hmove, -⟩ := h.step TokenKept.refl (@TokenKept.trans tokenHash)
    (fun _ _ _ _ _ hmove => hmove.kept) (Pool.live_iff.mpr ⟨thread, hthread, hnone⟩)
  rw [hrevoked] at hmove
  exact TokenMove.not_revoked hmove

/-- **Where the token is redeemed once, the schedule was current.** -/
theorem current_of_redeemedOnce (hs : TokenStored env jwt token s) (hconfigured : Configured env)
    {schedule : List ℕ} (hruns : tokenMachine.Runs (tokenPool env jwt token s calls) schedule)
    (hfinished : (tokenMachine.exec (tokenPool env jwt token s calls) schedule).finished = true)
    (honce : RedeemedOnce (hashToken env token) calls (tokenPool env jwt token s calls) schedule) :
    ∀ visit ∈ tokenMachine.visits (tokenPool env jwt token s calls) schedule,
      TokenPool.Current (hashToken env token) calls visit.1 visit.2 := by
  by_contra hviolated
  obtain ⟨front, i, back, rfl, -, hnot⟩ :=
    Machine.exists_first_visit (C := TokenPool.Current (hashToken env token) calls) hviolated
  obtain ⟨hfront, hback⟩ := (Machine.runs_append _ _ _ _).mp hruns
  obtain ⟨hlive, hback⟩ := (Machine.runs_cons _ _ _ _).mp hback
  obtain ⟨phase, hfollows, haccount, -⟩ :=
    tokenAccount_start.exec (tokenPool_follows hs) hfront
  rw [Machine.exec_append, Machine.exec_cons] at hfinished
  have hsize : (tokenMachine.exec (tokenPool env jwt token s calls) front).threads.length =
      calls.length := by
    rw [Pool.exec_length]
    unfold tokenPool Pool.start
    rw [List.length_map, List.length_map]
  generalize hP : tokenMachine.exec (tokenPool env jwt token s calls) front = P at *
  obtain ⟨hcall, thread, hthread, hpast, hstale⟩ : calls[i]? = some .refresh ∧
      ∃ thread, P.threads[i]? = some thread ∧ thread.past.length = 3 ∧
        ¬(P.shared.redeemable (hashToken env token) = true ∧
          ∀ j < calls.length, calls[j]? = some .logout → ∀ other ∈ P.threads[j]?,
            other.past.length = 1 → other.program.outcome?.isNone = true) := by
    unfold TokenPool.Current at hnot
    push Not at hnot
    obtain ⟨hcall, thread, hthread, hpast, hstale⟩ := hnot
    refine ⟨hcall, thread, hthread, hpast, fun h => ?_⟩
    obtain ⟨j, hlt, hj, other, hother, hlength, hended⟩ := hstale h.1
    exact hended (h.2 j hlt hj other hother hlength)
  -- the call redeems the token, and ends with a pair
  obtain ⟨update, a', -, hshared, hmove, hnext⟩ := hfollows.step TokenKept.refl
    (@TokenKept.trans (hashToken env token)) (fun _ _ _ _ _ hmove => hmove.kept) hlive
  obtain ⟨hfound, rfl⟩ := haccount.found hthread hcall hpast hmove
  obtain ⟨phase', hfollows', haccount', hstays⟩ :=
    (haccount.step hlive (by rw [hshared]; exact hmove)).exec hnext hback
  have hanswers : ∀ j, callAt calls j = .refresh → j < calls.length →
      Function.update phase i .redeemed j = .redeemed → ∃ pair,
        (tokenMachine.exec (P.step i) back).outcome? j = some (.ok (some pair)) :=
    fun j hat hlt hj => TokenPool.InPhase.answers hfollows' hconfigured hfinished
      (Pool.exec_length.trans (Pool.step_length.trans hsize)) hlt hat (hstays j hj)
  have hfits := haccount.fits i thread hthread
  rw [hfound] at hfits
  obtain ⟨hlt, -⟩ := List.getElem?_eq_some_iff.mp hcall
  obtain ⟨pair, hpair⟩ := hanswers i hfits.1 hlt (Function.update_self _ _ _)
  rw [← hP] at hpair
  -- so no `logout` can have returned
  have hnone : ∀ (j : ℕ) (other : TokenThread), calls[j]? = some .logout →
      P.threads[j]? = some other → other.program.outcome? = none := by
    intro j other hj hother
    by_contra hended
    refine honce.revoked front (i :: back) rfl j hj ?_ i thread (by rw [hP]; exact hthread)
      hfits.2.2 pair (by rw [Machine.exec_append]; exact hpair)
    rw [hP, Pool.outcome?, hother]
    exact hended
  refine hstale ⟨?_, fun j _ hj other hother _ => Option.isNone_iff_eq_none.mpr
    (hnone j other hj hother)⟩
  rcases haccount.lost i hfound with hredeemable | ⟨k, hk, hredeemed | hrevoked⟩
  · exact hredeemable
  · -- and no other call has redeemed the token
    have hki : k ≠ i := by
      rintro rfl
      rw [hfound] at hredeemed
      cases hredeemed
    have hkfits := haccount.fits k _ (List.getElem?_eq_getElem hk)
    rw [hredeemed] at hkfits
    obtain ⟨pair', hpair'⟩ := hanswers k hkfits.1 (hsize ▸ hk)
      ((Function.update_of_ne hki _ _).trans hredeemed)
    rw [← hP] at hpair'
    exact absurd (honce.once k i pair' pair (by rw [Machine.exec_append]; exact hpair')
      (by rw [Machine.exec_append]; exact hpair)) hki
  · have hkthread := List.getElem?_eq_getElem hk
    have hkfits := haccount.fits k _ hkthread
    rw [hrevoked] at hkfits
    have hklogout : callAt calls k = .logout := hkfits
    exact absurd (hnone k _ (by rw [getElem?_callAt (hsize ▸ hk), hklogout]) hkthread)
      (hfollows.ended hkthread hrevoked)

/-- **A refresh token is redeemed once exactly under current schedules.** -/
theorem refresh_redeems_once_iff (hs : TokenStored env jwt token s) {schedule : List ℕ}
    (hruns : tokenMachine.Runs (tokenPool env jwt token s calls) schedule) :
    ((∀ visit ∈ tokenMachine.visits (tokenPool env jwt token s calls) schedule,
        TokenPool.Current (hashToken env token) calls visit.1 visit.2) →
      RedeemedOnce (hashToken env token) calls (tokenPool env jwt token s calls) schedule) ∧
    (Configured env →
      (tokenMachine.exec (tokenPool env jwt token s calls) schedule).finished = true →
      RedeemedOnce (hashToken env token) calls (tokenPool env jwt token s calls) schedule →
      ∀ visit ∈ tokenMachine.visits (tokenPool env jwt token s calls) schedule,
        TokenPool.Current (hashToken env token) calls visit.1 visit.2) :=
  ⟨redeemedOnce_of_current hs hruns, fun hconfigured hfinished =>
    current_of_redeemedOnce hs hconfigured hruns hfinished⟩

end Pool

/-- A token of user 0 with the secret `r`, as HS256 signs it, and its digest. -/
def sampleToken : JsString :=
  [101, 121, 74, 104, 98, 71, 99, 105, 79, 105, 74, 73, 85, 122, 73, 49, 78, 105, 73, 115, 73,
   110, 82, 53, 99, 67, 73, 54, 73, 107, 112, 88, 86, 67, 74, 57, 46, 101, 121, 74, 122, 100, 87,
   73, 105, 79, 105, 73, 119, 73, 105, 119, 105, 90, 87, 49, 104, 97, 87, 119, 105, 79, 105, 74,
   108, 73, 105, 119, 105, 97, 110, 82, 112, 73, 106, 111, 105, 77, 67, 73, 115, 73, 109, 108,
   104, 100, 67, 73, 54, 77, 67, 119, 105, 90, 88, 104, 119, 73, 106, 111, 121, 78, 84, 107, 121,
   77, 68, 65, 119, 102, 81, 46, 116, 89, 97, 76, 69, 109, 53, 78, 102, 77, 101, 113, 118, 52,
   77, 52, 114, 75, 121, 118, 95, 79, 122, 68, 113, 109, 49, 121, 114, 81, 110, 86, 52, 116, 73,
   120, 51, 78, 77, 104, 82, 118, 85]

/-- The digest of the sample token. -/
def sampleTokenHash : Bytes :=
  [0x38, 0xd0, 0xff, 0x1d, 0x17, 0x0a, 0xd7, 0x48, 0x57, 0xcc, 0x54, 0xcc, 0x51, 0x0f, 0x7e,
   0x8c, 0xa4, 0x3a, 0xe3, 0x5e, 0x17, 0x6c, 0xb8, 0xe2, 0xda, 0x4d, 0x83, 0x16, 0x28, 0xf9,
   0x09, 0x66]

/-- A service that has signed this token; those it signs from now on are named by
their draw. -/
def JwtService.sample : JwtService where
  sign payload _ _ _ :=
    match payload.jti with
    | none => js "access"
    | some draw => List.replicate (draw + 1) 120
  verify token secret date :=
    if token = sampleToken ∧ secret = js "r" ∧ date < 2592000000 then some ⟨0, js "e", some 0⟩
    else none

/-- The settings of `auth`, and the digest of the token. -/
def Env.authSample : Env :=
  { Env.sample with
    clock := fun n => n
    processEnv := fun name =>
      [(js "JWT_ACCESS_SECRET", js "a"), (js "JWT_REFRESH_SECRET", js "r")].lookup name
    crypto := { Env.sample.crypto with
      sha256 := fun bytes =>
        if bytes = utf8Encode sampleToken then sampleTokenHash else List.replicate 33 0 ++ bytes } }

/-- User 0 with this token. -/
def AuthState.sample : AuthState where
  users := Table.empty.insert ⟨js "e", js "h"⟩
  refreshTokens :=
    Table.empty.insert ⟨0, hashToken Env.authSample sampleToken, false, 2592000000⟩
  reads := 0
  draws := 1

theorem sampleToken_ascii : Ascii sampleToken := by
  have hall : (sampleToken.all fun unit => decide (unit.toNat < 0x80)) = true := by decide
  exact fun unit hunit => of_decide_eq_true (List.all_eq_true.mp hall unit hunit)

/-- What the service has signed already is not what it signs from now on. -/
theorem sample_fresh {draw : ℕ} :
    hashToken Env.authSample (List.replicate (draw + 1) 120) ≠
      hashToken Env.authSample sampleToken := by
  have hascii : Ascii (List.replicate (draw + 1) 120) := by
    intro unit hunit
    rw [List.eq_of_mem_replicate hunit]
    decide
  have hother : utf8Encode (List.replicate (draw + 1) 120) ≠ utf8Encode sampleToken := by
    intro heq
    have hhead := congrArg List.head? (utf8Encode_injOn hascii sampleToken_ascii heq)
    rw [List.replicate_succ, List.head?_cons] at hhead
    exact absurd hhead (by decide)
  intro heq
  have hdigest := hexEncode_injective heq
  unfold Env.authSample at hdigest
  dsimp only at hdigest
  rw [if_neg hother, if_pos rfl] at hdigest
  -- a digest has 32 bytes, what stands in for another is longer
  have hlength := congrArg List.length hdigest
  rw [List.length_append, List.length_replicate,
    show sampleTokenHash.length = 32 from rfl] at hlength
  omega

theorem tokenStored_sample :
    TokenStored Env.authSample JwtService.sample sampleToken AuthState.sample where
  single id id' row row' hrow hrow' _ _ := by
    have hone : ∀ id row, AuthState.sample.refreshTokens id = some row → id = 0 :=
      fun id row hrow => Nat.lt_one_iff.mp (Table.lt_next hrow)
    rw [hone id row hrow, hone id' row' hrow']
  owner date payload hverified id row hrow _ := by
    have hrow' : row.userId = 0 := by
      obtain rfl : id = 0 := Nat.lt_one_iff.mp (Table.lt_next hrow)
      cases hrow
      rfl
    unfold verified at hverified
    obtain ⟨secret, -, hverify⟩ := Option.bind_eq_some_iff.mp hverified
    unfold JwtService.sample at hverify
    dsimp only at hverify
    split at hverify
    · cases hverify
      exact hrow'
    · cases hverify
  fresh sub email secret expiresIn date draw _ := sample_fresh

theorem configured_sample : Configured Env.authSample := by
  constructor <;> decide

/-- A call that redeems the token, next to a `logout` and a call that comes too late. -/
theorem refresh_redeems_once_in_turn :
    let calls : List TokenCall := [.refresh, .logout, .refresh]
    let P := tokenPool Env.authSample JwtService.sample sampleToken AuthState.sample calls
    let schedule := [0, 0, 0, 0, 1, 2, 1, 0, 2, 0, 2, 0, 0, 0]
    RedeemedOnce (hashToken Env.authSample sampleToken) calls P schedule ∧
      ∀ visit ∈ tokenMachine.visits P schedule,
        TokenPool.Current (hashToken Env.authSample sampleToken) calls visit.1 visit.2 := by
  intro calls P schedule
  have hcurrent : ∀ visit ∈ tokenMachine.visits P schedule,
      TokenPool.Current (hashToken Env.authSample sampleToken) calls visit.1 visit.2 := by
    decide +kernel
  obtain ⟨honce, hconverse⟩ :=
    @refresh_redeems_once_iff Env.authSample JwtService.sample sampleToken calls
      AuthState.sample tokenStored_sample schedule (by decide +kernel)
  exact ⟨honce hcurrent, hconverse configured_sample (by decide +kernel) (honce hcurrent)⟩

/-- An answer that is a pair. -/
theorem exists_pair {outcome : Option (Except HubError (Option TokenPair))}
    (h : (outcome.bind Except.toOption).join.isSome = true) :
    ∃ pair, outcome = some (.ok (some pair)) := by
  match outcome, h with
  | some (.ok (some pair)), _ => exact ⟨pair, rfl⟩

/-- **Two calls of `refresh` that both look the token up** before either revokes it both
answer with a pair. -/
theorem refresh_redeems_twice :
    let calls : List TokenCall := [.refresh, .refresh]
    let P := tokenPool Env.authSample JwtService.sample sampleToken AuthState.sample calls
    let schedule := [0, 0, 0, 1, 1, 1, 0, 0, 0, 0, 0, 0, 1, 1, 1, 1, 1, 1]
    TokenStored Env.authSample JwtService.sample sampleToken AuthState.sample ∧
      Configured Env.authSample ∧ tokenMachine.Runs P schedule ∧
      (tokenMachine.exec P schedule).finished = true ∧
      ¬RedeemedOnce (hashToken Env.authSample sampleToken) calls P schedule := by
  intro calls P schedule
  refine ⟨tokenStored_sample, configured_sample, by decide +kernel, by decide +kernel,
    fun honce => ?_⟩
  obtain ⟨pair, hpair⟩ : ∃ pair, (tokenMachine.exec P schedule).outcome? 0 =
      some (.ok (some pair)) := exists_pair (by decide +kernel)
  obtain ⟨pair', hpair'⟩ : ∃ pair, (tokenMachine.exec P schedule).outcome? 1 =
      some (.ok (some pair)) := exists_pair (by decide +kernel)
  exact absurd (honce.once 0 1 pair pair' hpair hpair') (by decide)

end CodeCaller
