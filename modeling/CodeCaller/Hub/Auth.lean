import CodeCaller.Hub.State

/-!
# `auth`

`AuthService`: sessions of the app.  A refresh token is a JWT with a row of its own; who presents
it gets a new pair, and its row is revoked.  The service works on a state of its own, users and
refresh tokens, and on the tokens themselves through `JwtService`, which is a parameter.

* `issueTokenPair` signs an access token and a refresh token and stores the digest of the second,
  with the time it expires at.
* `refresh` verifies the token, looks for its unrevoked row, revokes that by its id, and issues a
  new pair.  These are separate nodes: what happens between them is the subject of
  `Hub.TokenRaces`.
* `logout` revokes the rows of a valid token in one update, and ignores one that is not valid.

`verified` has the clock as an argument, since `verify` of the library rejects a token that has
expired.  A setting that is missing makes `sign` throw, and `verify` as well, where it is caught.
-/

namespace CodeCaller

open Async

/-- A user, with what the service reads of it. -/
structure AuthUser where
  email : JsString
  passwordHash : JsString

structure RefreshToken where
  userId : UserId
  tokenHash : JsString
  revoked : Bool
  expiresAt : Time

/-- **The state `AuthService` works on.** -/
structure AuthState where
  users : Table AuthUser
  refreshTokens : Table RefreshToken
  reads : ℕ
  draws : ℕ

abbrev AuthM (α : Type) := Proc AuthState HubError α

/-- The payload of a token; `jti` is the use of the random source it comes from. -/
structure JwtPayload where
  sub : UserId
  email : JsString
  jti : Option ℕ

/-- `JwtService` of NestJS: `verify` answers `none` where it throws. -/
structure JwtService where
  sign : JwtPayload → (secret expiresIn : JsString) → (date : Time) → JsString
  verify : (token secret : JsString) → (date : Time) → Option JwtPayload

structure TokenPair where
  accessToken : JsString
  refreshToken : JsString

/-! ## `durationToMs` -/

/-- The units of a duration. -/
def UNIT_MS : UInt16 → Option ℕ
  | 115 => some 1000
  | 109 => some (60 * 1000)
  | 104 => some (60 * 60 * 1000)
  | 100 => some (24 * 60 * 60 * 1000)
  | _ => none

/-- `/^(\d+)(s|m|h|d)$/` on the trimmed value.  `Number` rounds an amount beyond `2 ^ 53`, and a
product beyond that is rounded too; here both are exact. -/
def durationToMs (value : JsString) : Option ℕ :=
  let text := JsString.trim value
  match JsString.leadingDigits text, text.drop (JsString.leadingDigits text).length with
  | [], _ => none
  | digits, [unit] =>
    (UNIT_MS unit).map fun ms => digits.foldl (fun acc d => 10 * acc + d) 0 * ms
  | _, _ => none

/-! ## `AuthService` -/

variable (env : Env) (jwt : JwtService)

namespace AuthService

/-- `new Date()`. -/
def now : AuthM Time := .take (fun s => env.clock s.reads) fun s => { s with reads := s.reads + 1 }

/-- `randomUUID()`. -/
def randomUUID : AuthM ℕ := .take (fun s => s.draws) fun s => { s with draws := s.draws + 1 }

/-- `this.config.getOrThrow(name)`. -/
def getOrThrow (name : JsString) : AuthM JsString :=
  match env.processEnv name with
  | some value => pure value
  | none => throw ⟨.error, js "Configuration key \"" ++ name ++ js "\" does not exist"⟩

/-- `this.config.get(name, fallback)`. -/
def configGet (name fallback : JsString) : JsString := (env.processEnv name).getD fallback

/-- What is stored of a refresh token. -/
def hashToken (token : JsString) : JsString :=
  hexEncode (env.crypto.sha256 (utf8Encode token))

/-- What `verifyRefreshToken` finds in a token; a missing secret counts as an invalid
token. -/
def verified (refreshToken : JsString) (date : Time) : Option JwtPayload :=
  (env.processEnv (js "JWT_REFRESH_SECRET")).bind fun secret =>
    jwt.verify refreshToken secret date

/-- The exception for a token that is not good. -/
def invalidRefreshToken : HubError := ⟨.unauthorized, js "유효하지 않은 refresh token 입니다."⟩

/-- `verifyRefreshToken`, `none` where it throws. -/
def verifyRefreshToken (refreshToken : JsString) : AuthM (Option JwtPayload) :=
  .take (fun s => verified env jwt refreshToken (env.clock s.reads))
    fun s => { s with reads := s.reads + 1 }

/-- `refreshToken.create({ data })`. -/
def refreshTokenCreate (userId : UserId) (tokenHash : JsString) (expiresAt : Time) : AuthM Unit :=
  .atomically fun s => (.ok (), { s with
    refreshTokens := s.refreshTokens.insert ⟨userId, tokenHash, false, expiresAt⟩ })

/-- `refreshToken.update({ where: { id }, data: { revoked: true } })`. -/
def refreshTokenRevoke (id : ℕ) : AuthM Unit :=
  .atomically fun s =>
    match s.refreshTokens id with
    | none => (.error .recordNotFound, s)
    | some _ => (.ok (), { s with
        refreshTokens := s.refreshTokens.modify id fun row => { row with revoked := true } })

/-- Both tokens are signed before the row of the second is stored. -/
def issueTokenPair (userId : UserId) (email : JsString) : AuthM TokenPair := do
  let accessSecret ← getOrThrow env (js "JWT_ACCESS_SECRET")
  let date ← now env
  let accessToken := jwt.sign ⟨userId, email, none⟩ accessSecret
    (configGet env (js "JWT_ACCESS_EXPIRES_IN") (js "15m")) date
  let refreshExpiresIn := configGet env (js "JWT_REFRESH_EXPIRES_IN") (js "30d")
  let jti ← randomUUID
  let refreshSecret ← getOrThrow env (js "JWT_REFRESH_SECRET")
  let date ← now env
  let refreshToken := jwt.sign ⟨userId, email, some jti⟩ refreshSecret refreshExpiresIn date
  let date ← now env
  match durationToMs refreshExpiresIn with
  | none => throw ⟨.error, js "Invalid duration format: " ++ refreshExpiresIn⟩
  | some duration =>
    refreshTokenCreate userId (hashToken env refreshToken) (date + duration)
    return { accessToken, refreshToken }

/-- Whether a row is the unrevoked one of a token. -/
def unrevoked (userId : UserId) (tokenHash : JsString) (row : RefreshToken) : Bool :=
  row.userId == userId && row.tokenHash == tokenHash && !row.revoked

/-- The row is found and revoked by two nodes. -/
def refresh (refreshToken : JsString) : AuthM TokenPair := do
  match ← verifyRefreshToken env jwt refreshToken with
  | none => throw invalidRefreshToken
  | some payload =>
    let tokenHash := hashToken env refreshToken
    let date ← now env
    let stored ← Proc.read fun s => (env.rowOrder (s.refreshTokens.toList.filter fun row =>
      unrevoked payload.sub tokenHash row.2 && date < row.2.expiresAt)).head?
    match stored with
    | none => throw invalidRefreshToken
    | some (id, _) =>
      refreshTokenRevoke id
      issueTokenPair env jwt payload.sub payload.email

/-- An invalid token is as good as logged out. -/
def logout (refreshToken : JsString) : AuthM Unit := do
  match ← verifyRefreshToken env jwt refreshToken with
  | none => return ()
  | some payload =>
    let tokenHash := hashToken env refreshToken
    Proc.atomically fun s => (.ok (), { s with
      refreshTokens := s.refreshTokens.map fun row =>
        if unrevoked payload.sub tokenHash row then { row with revoked := true } else row })

/-- `login`, with `bcrypt.compare` as a parameter. -/
def login (compare : JsString → JsString → Bool) (email password : JsString) :
    AuthM TokenPair := do
  let wrong : HubError := ⟨.unauthorized, js "이메일 또는 비밀번호가 올바르지 않습니다."⟩
  match ← Proc.read fun s => s.users.toList.find? fun row => row.2.email == email with
  | none => throw wrong
  | some (id, user) =>
    let passwordMatches ← Proc.read fun _ => compare password user.passwordHash
    if !passwordMatches then
      throw wrong
    issueTokenPair env jwt id user.email

end AuthService

end CodeCaller
