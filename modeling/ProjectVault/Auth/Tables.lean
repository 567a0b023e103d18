import Mathlib.Logic.Function.Basic
import Mathlib.Tactic

/-!
The tables of sign-in and what one request decides on the rows it has read
(`auth/service`, `auth/session-revoke`, `auth/user-session`, `plugins/authenticate`).

A session, a user session and a token are named by numbers drawn when they are inserted; the number
of a session stands for its `id` and its `jti` alike. Times are milliseconds.
-/

namespace Auth

/-! ### Rows -/

/-- A row of `sessions`. -/
structure SessionRow where
  userId : ℕ
  orgId : ℕ
  sessionVersion : ℕ
  expiresAt : ℤ
  revokedAt : Option ℤ
  lastActiveAt : ℤ
  deriving DecidableEq

/-- A row of `refresh_tokens`. -/
structure RefreshTokenRow where
  sessionId : ℕ
  orgId : ℕ
  expiresAt : ℤ
  usedAt : Option ℤ
  newSessionId : Option ℕ
  revokedAt : Option ℤ
  deriving DecidableEq

/-- A row of `user_sessions`. -/
structure UserSessionRow where
  userId : ℕ
  sessionVersion : ℕ
  expiresAt : ℤ
  revokedAt : Option ℤ
  lastActiveAt : ℤ
  deriving DecidableEq

/-- A row of `user_refresh_tokens`. -/
structure UserRefreshTokenRow where
  userSessionId : ℕ
  expiresAt : ℤ
  usedAt : Option ℤ
  revokedAt : Option ℤ
  deriving DecidableEq

/-- A row of `cli_org_credentials`. -/
structure CliOrgCredential where
  userSessionId : ℕ
  orgId : ℕ
  sessionId : ℕ

structure AuthDb where
  sessions : ℕ → Option SessionRow
  refreshTokens : ℕ → Option RefreshTokenRow
  /-- the access tokens in `revoked_tokens` -/
  revokedTokens : ℕ → Bool
  userSessions : ℕ → Option UserSessionRow
  userRefreshTokens : ℕ → Option UserRefreshTokenRow
  cliOrgCredentials : List CliOrgCredential
  organizations : List ℕ
  /-- the active memberships, by user and organization -/
  activeMember : ℕ → ℕ → Bool

def AuthDb.empty : AuthDb where
  sessions := fun _ => none
  refreshTokens := fun _ => none
  revokedTokens := fun _ => false
  userSessions := fun _ => none
  userRefreshTokens := fun _ => none
  cliOrgCredentials := []
  organizations := []
  activeMember := fun _ _ => false

/-- The environment, in milliseconds. -/
structure AuthEnv where
  jwtAccessTtl : ℤ
  jwtMaxClockSkew : ℤ
  refreshTokenTtl : ℤ
  refreshGraceWindow : ℤ
  sessionIdleTimeout : ℤ

/-- The defaults of `config/env`. -/
def AuthEnv.default : AuthEnv :=
  ⟨300 * 1000, 30 * 1000, 7 * 24 * 60 * 60 * 1000, 30 * 1000, 30 * 60 * 1000⟩

def userRefreshReuseGraceMs : ℤ := 30000
def cliOrgCredentialTtlMs : ℤ := 900 * 1000

inductive AuthError where
  | accessTokenInvalid | refreshTokenInvalid | refreshTokenRevoked | refreshTokenExpired
  | sessionExpired | sessionRevoked | accountDeactivated
  deriving DecidableEq

def AuthError.code : AuthError → String
  | .accessTokenInvalid => "access_token_invalid"
  | .refreshTokenInvalid => "refresh_token_invalid"
  | .refreshTokenRevoked => "refresh_token_revoked"
  | .refreshTokenExpired => "refresh_token_expired"
  | .sessionExpired => "session_expired"
  | .sessionRevoked => "session_revoked"
  | .accountDeactivated => "account_deactivated"

def AuthError.message : AuthError → String
  | .accessTokenInvalid => "Access token is invalid"
  | .refreshTokenInvalid => "Refresh token is invalid"
  | .refreshTokenRevoked => "Refresh token has been revoked"
  | .refreshTokenExpired => "Refresh token has expired"
  | .sessionExpired => "Session expired due to inactivity"
  | .sessionRevoked => "Session has been revoked"
  | .accountDeactivated => "Account is deactivated"

def AuthError.statusCode : AuthError → ℕ
  | .accountDeactivated => 403
  | _ => 401

/-! ### User sessions -/

def idleExceeded (env : AuthEnv) (lastActiveAt now : ℤ) : Bool :=
  env.sessionIdleTimeout < now - lastActiveAt

/-- The token has been used, longer ago than the grace window. -/
def UserRefreshTokenRow.reused (row : UserRefreshTokenRow) (now : ℤ) : Bool :=
  row.usedAt.any fun usedAt => userRefreshReuseGraceMs < now - usedAt

def rejectReusedRefresh (row : UserRefreshTokenRow) (now : ℤ) : AuthError :=
  if row.usedAt.isNone then .refreshTokenInvalid
  else if row.reused now then .refreshTokenRevoked else .refreshTokenInvalid

/-- How `rotateUserRefresh` goes on with the rows it has read. -/
inductive UserRefreshDecision where
  | rejects (error : AuthError)
  /-- `revokeUserSessionInTx`, then the error is thrown -/
  | revokesAndThrows (error : AuthError)
  | rotates

def rotateUserRefresh (env : AuthEnv) (row : UserRefreshTokenRow) (session : UserSessionRow)
    (now : ℤ) : UserRefreshDecision :=
  if row.revokedAt.isSome || session.revokedAt.isSome then .rejects .refreshTokenRevoked
  else if row.usedAt.isSome then
    let error := rejectReusedRefresh row now
    if error = .refreshTokenRevoked then .revokesAndThrows error else .rejects error
  else if row.expiresAt ≤ now ∨ session.expiresAt ≤ now then .rejects .refreshTokenExpired
  else if idleExceeded env session.lastActiveAt now then .revokesAndThrows .sessionExpired
  else .rotates

/-- The claims of a user access token; `jti` names the user session. -/
structure UserAccessClaims where
  sub : ℕ
  sessionVersion : ℕ
  jti : ℕ
  deriving DecidableEq

/-- How `verifyUserSession` goes on with the row it has read. -/
inductive VerifyDecision where
  | rejects (error : AuthError)
  | revokesAndThrows (error : AuthError)
  | touches
  deriving DecidableEq

def verifyUserSession (env : AuthEnv) (claims : UserAccessClaims) (row : Option UserSessionRow)
    (now : ℤ) : VerifyDecision :=
  match row with
  | none => .rejects .sessionRevoked
  | some row =>
    if row.revokedAt.isSome || row.userId != claims.sub ||
        row.sessionVersion != claims.sessionVersion || decide (row.expiresAt ≤ now) then
      .rejects .sessionRevoked
    else if idleExceeded env row.lastActiveAt now then .revokesAndThrows .sessionExpired
    else .touches

/-! ### Organization sessions -/

/-- The claims of an organization access token; `jti` names the session, `iat` and `exp` are in
seconds. -/
structure AccessTokenClaims where
  sub : ℕ
  orgId : ℕ
  sessionVersion : ℕ
  jti : ℕ
  iat : Option ℤ
  exp : Option ℤ

def assertTemporalClaims (env : AuthEnv) (claims : AccessTokenClaims) (now : ℤ) : Bool :=
  let nowSeconds := now / 1000
  !(claims.exp.any fun exp => exp < nowSeconds) &&
    !(claims.iat.any fun iat => nowSeconds + env.jwtMaxClockSkew / 1000 < iat)

/-- `authenticateRequest` on the rows it reads. -/
def authenticateRequest (env : AuthEnv) (db : AuthDb) (claims : AccessTokenClaims) (now : ℤ) :
    Except AuthError SessionRow :=
  if assertTemporalClaims env claims now = false then .error .accessTokenInvalid
  else if db.revokedTokens claims.jti then .error .sessionRevoked
  else
    match db.sessions claims.jti with
    | none => .error .sessionRevoked
    | some session =>
      if session.revokedAt.isSome || session.sessionVersion != claims.sessionVersion ||
          session.userId != claims.sub || session.orgId != claims.orgId then
        .error .sessionRevoked
      else if idleExceeded env session.lastActiveAt now then .error .sessionExpired
      else if db.activeMember session.userId session.orgId = false then .error .accountDeactivated
      else .ok session

/-- How `refreshSession` goes on with the rows it has read. -/
inductive RefreshDecision where
  | rejects (error : AuthError)
  /-- within the grace window: an access token for the session that replaced this one -/
  | answers (claims : AccessTokenClaims)
  /-- `cleanupExpiredSession`; the error is thrown after the commit -/
  | expires
  | rotates

def handleGraceRefresh (env : AuthEnv) (db : AuthDb) (row : RefreshTokenRow) (now : ℤ) :
    RefreshDecision :=
  if now - row.usedAt.getD 0 ≤ env.refreshGraceWindow then
    match row.newSessionId.bind fun n => (db.sessions n).map fun session => (n, session) with
    | none => .rejects .refreshTokenRevoked
    | some (n, session) =>
      if session.revokedAt.isNone ∧ now < session.expiresAt then
        .answers ⟨session.userId, session.orgId, session.sessionVersion, n, none, none⟩
      else .rejects .refreshTokenRevoked
  else .rejects .refreshTokenRevoked

def refreshSession (env : AuthEnv) (db : AuthDb) (row : RefreshTokenRow) (session : SessionRow)
    (now : ℤ) : RefreshDecision :=
  if row.usedAt.isSome then handleGraceRefresh env db row now
  else if session.revokedAt.isSome then .rejects .refreshTokenRevoked
  else if row.revokedAt.isSome then .rejects .refreshTokenRevoked
  else if row.expiresAt ≤ now then .rejects .refreshTokenExpired
  else if db.revokedTokens row.sessionId then .rejects .refreshTokenRevoked
  else if idleExceeded env session.lastActiveAt now then .expires
  else .rotates

/-! ### Writes -/

def SessionRow.revoke (now : ℤ) (row : SessionRow) : SessionRow :=
  { row with revokedAt := some now, sessionVersion := row.sessionVersion + 1 }

/-- The row a rotation inserts. -/
def SessionRow.successor (env : AuthEnv) (row : SessionRow) (now : ℤ) : SessionRow :=
  ⟨row.userId, row.orgId, row.sessionVersion, now + env.jwtAccessTtl, none, now⟩

/-- The row a login inserts. -/
def loginSession (ttl : ℤ) (userId orgId : ℕ) (now : ℤ) : SessionRow :=
  ⟨userId, orgId, 1, now + ttl, none, now⟩

namespace AuthDb

/-- The writes of `revokeSessionById` to each of some sessions. -/
def revokeSessions (db : AuthDb) (ids : List ℕ) (now : ℤ) : AuthDb :=
  { db with
    sessions := fun n => if n ∈ ids then (db.sessions n).map (·.revoke now) else db.sessions n
    refreshTokens := fun t => (db.refreshTokens t).map fun row =>
      if row.sessionId ∈ ids ∧ row.revokedAt.isNone then { row with revokedAt := some now } else row
    revokedTokens := fun n => decide (n ∈ ids) || db.revokedTokens n }

/-- The first two updates of `revokeUserSessionInTx`. -/
def revokeUserSession (db : AuthDb) (sessionId : ℕ) (now : ℤ) : AuthDb :=
  { db with
    userSessions := fun n =>
      if n = sessionId then (db.userSessions n).map fun row => { row with revokedAt := some now }
      else db.userSessions n
    userRefreshTokens := fun t => (db.userRefreshTokens t).map fun row =>
      if row.userSessionId = sessionId then { row with revokedAt := some now } else row }

/-- The writes of `rotateRefreshToken`: the token it was shown, the session of that token as it was
read, the session and the token it inserts. -/
def rotateRefreshToken (env : AuthEnv) (db : AuthDb) (token : ℕ) (row : RefreshTokenRow)
    (session : SessionRow) (newSession newToken : ℕ) (rotatedAt : ℤ) : AuthDb :=
  { db with
    sessions := Function.update
      (Function.update db.sessions row.sessionId (some (session.revoke rotatedAt)))
      newSession (some (session.successor env rotatedAt))
    refreshTokens := Function.update
      (fun t => (db.refreshTokens t).map fun r =>
        if t = token then { r with usedAt := some rotatedAt, newSessionId := some newSession }
        else if r.sessionId = row.sessionId ∧ r.revokedAt.isNone then
          { r with revokedAt := some rotatedAt }
        else r)
      newToken (some ⟨newSession, row.orgId, rotatedAt + env.refreshTokenTtl, none, none, none⟩)
    revokedTokens := fun n => decide (n = row.sessionId) || db.revokedTokens n }

/-- The writes of `rotateUserRefresh`. -/
def rotateUserRefresh (db : AuthDb) (token : ℕ) (row : UserRefreshTokenRow)
    (session : UserSessionRow) (newToken : ℕ) (now : ℤ) : AuthDb :=
  { db with
    userSessions := fun n =>
      if n = row.userSessionId then
        (db.userSessions n).map fun r => { r with lastActiveAt := now }
      else db.userSessions n
    userRefreshTokens := Function.update
      (fun t => (db.userRefreshTokens t).map fun r =>
        if t = token then { r with usedAt := some now } else r)
      newToken (some ⟨row.userSessionId, session.expiresAt, none, none⟩) }

/-- The write of `verifyUserSession`. -/
def touchUserSession (db : AuthDb) (sessionId : ℕ) (now : ℤ) : AuthDb :=
  { db with
    userSessions := fun n =>
      if n = sessionId then (db.userSessions n).map fun r => { r with lastActiveAt := now }
      else db.userSessions n }

/-- The inserts of `issueUserSessionInTx`. -/
def issueUserSession (env : AuthEnv) (db : AuthDb) (userId newSession newToken : ℕ) (now : ℤ) :
    AuthDb :=
  { db with
    userSessions := Function.update db.userSessions newSession
      (some ⟨userId, 1, now + env.refreshTokenTtl, none, now⟩)
    userRefreshTokens := Function.update db.userRefreshTokens newToken
      (some ⟨newSession, now + env.refreshTokenTtl, none, none⟩) }

/-- The inserts of `createLoginSessionInTx`, with a refresh token unless a user session is exchanged,
and then with `recordOrgCredential`. -/
def createLoginSession (env : AuthEnv) (db : AuthDb) (row : SessionRow) (userSession : Option ℕ)
    (newSession newToken : ℕ) : AuthDb :=
  { db with
    sessions := Function.update db.sessions newSession (some row)
    refreshTokens :=
      if userSession.isSome then db.refreshTokens
      else Function.update db.refreshTokens newToken
        (some ⟨newSession, row.orgId, row.lastActiveAt + env.refreshTokenTtl, none, none, none⟩)
    cliOrgCredentials :=
      match userSession with
      | some n => ⟨n, row.orgId, newSession⟩ :: db.cliOrgCredentials
      | none => db.cliOrgCredentials }

def touchSession (db : AuthDb) (n : ℕ) (now : ℤ) : AuthDb :=
  { db with
    sessions := fun m =>
      if m = n then (db.sessions m).map fun row => { row with lastActiveAt := now }
      else db.sessions m }

end AuthDb

end Auth
