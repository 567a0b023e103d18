import ProjectVault.Auth.Tables
import ProjectVault.Run.System

/-!
The transactions of sign-in, statement by statement at READ COMMITTED.

The refresh tokens of a session are locked along with it. Which sessions exceed the cap of a login,
and which one is signed out, are left open.
-/

namespace Auth

/-! ### Transactions -/

/-- A session to revoke, with `expectedUserId` and `expectedOrgId`. -/
structure Target where
  sessionId : ℕ
  expectedUserId : Option ℕ
  expectedOrgId : Option ℕ
  deriving DecidableEq

/-- The session passes `sessionDoesNotMatchOptions`. -/
def Target.matches (target : Target) (row : SessionRow) : Bool :=
  (target.expectedUserId.all fun userId => row.userId == userId) &&
    target.expectedOrgId.all fun orgId => row.orgId == orgId

/-- How the body of a transaction that has called `revokeUserSessionInTx` ends. -/
inductive Ending where
  | returns | throws
  deriving DecidableEq

/-- A call of `revokeUserSessionInTx`, with the refresh token its transaction has locked. -/
structure UserRevocation where
  sessionId : ℕ
  now : ℤ
  token : Option ℕ
  ending : Ending
  deriving DecidableEq

/-- A call of `createLoginSessionInTx`, with the user session of `exchangeOrgCredential`. -/
structure Login where
  userId : ℕ
  orgId : ℕ
  userSession : Option ℕ
  deriving DecidableEq

/-- Why a transaction revokes sessions. `since` is the next number at the call: what was inserted
before it has a smaller one. -/
inductive Job where
  /-- `revokeSessionById`, `revokeAllOtherSessions`, `cleanupExpiredSession` -/
  | sessions (targets : List ℕ)
  /-- `revokeAllUserSessionsInOrg` -/
  | userInOrg (userId orgId since : ℕ)
  /-- `revokeAllSessionsForOrg` -/
  | org (orgId since : ℕ)
  /-- `enforceMaxSessionsForUser` of a login -/
  | login (l : Login)
  /-- `completeAccountRecovery`, with the organizations it still goes through -/
  | recovery (userId : ℕ) (orgs : List ℕ)
  /-- `revokeLinkedCredentials` of a user session -/
  | userSession (revocation : UserRevocation)
  deriving DecidableEq

/-- The organization whose advisory lock the transaction takes first. -/
def Job.advisory : Job → Option ℕ
  | .org orgId _ => some orgId
  | .login l => some l.orgId
  | _ => none

inductive TokenUse where
  | refresh | logout
  deriving DecidableEq

/-- How far `revokeUserSessionInTx` has come: called, the session updated, the tokens updated. -/
inductive RevokeStage where
  | asked | session | tokens
  deriving DecidableEq

inductive AuthTx where
  | idle
  /-- a user refresh token is shown to `refreshUserSession` or `revokeUserSessionByRefresh` -/
  | presenting (use : TokenUse) (token : ℕ) (now : ℤ)
  /-- its row is locked -/
  | presented (use : TokenUse) (token : ℕ) (now : ℤ) (row : UserRefreshTokenRow)
  /-- `rotateUserRefresh` before and after its update of the user session -/
  | userRotating (token : ℕ) (now : ℤ) (row : UserRefreshTokenRow) (session : UserSessionRow)
  | userRotated (token : ℕ) (now : ℤ) (row : UserRefreshTokenRow) (session : UserSessionRow)
  /-- a body about to throw, for a reused token of the user session if there is one -/
  | throwing (token : ℕ) (reused : Option ℕ)
  /-- `verifyUserSession` before its read, before its update and after it -/
  | verifying (claims : UserAccessClaims) (now : ℤ)
  | touching (n userId : ℕ) (now : ℤ)
  | touched (n userId : ℕ) (now : ℤ)
  /-- a request with a verified user session, between its transactions -/
  | verified (n userId : ℕ)
  /-- `revokeUserSessionById` before its reads -/
  | revokingById (n userId : ℕ)
  | userRevoking (revocation : UserRevocation) (stage : RevokeStage)
  /-- `completeAccountRecovery` reading the memberships -/
  | recovering (userId : ℕ) (orgs found : List ℕ)
  /-- a revocation of sessions, before its first statement and before the read of its targets -/
  | asking (job : Job)
  | enumerating (job : Job)
  /-- the targets it has not come to, and the sessions it has revoked -/
  | revoking (job : Job) (targets : List Target) (pending : List ℕ)
  /-- a login that has inserted its session -/
  | inserted (l : Login) (n : ℕ) (row : SessionRow) (pending : List ℕ)
  /-- `refreshSession` before its locks -/
  | refreshing (token : ℕ)
  /-- `rotateRefreshToken` before and after its insert -/
  | rotating (token : ℕ) (row : RefreshTokenRow) (session : SessionRow)
  | rotated (token : ℕ) (row : RefreshTokenRow) (session : SessionRow) (n : ℕ) (rotatedAt : ℤ)
  deriving DecidableEq

namespace AuthTx

/-- Holds the row of the session. -/
def holdsSession (x : ℕ) : AuthTx → Bool
  | revoking _ _ pending => x ∈ pending
  | inserted _ _ _ pending => x ∈ pending
  | rotating _ row _ => row.sessionId = x
  | rotated _ row _ _ _ => row.sessionId = x
  | _ => false

/-- Holds the row of the user session. -/
def holdsUserSession (n : ℕ) : AuthTx → Bool
  | userRotated _ _ row _ => row.userSessionId = n
  | touched m _ _ => m = n
  | userRevoking revocation stage => stage ≠ .asked ∧ revocation.sessionId = n
  | revoking (.userSession revocation) _ _ => revocation.sessionId = n
  | _ => false

/-- Holds the row of the user refresh token. -/
def holdsUserToken (db : AuthDb) (t : ℕ) : AuthTx → Bool
  | presented _ token _ _ => token = t
  | userRotating token _ _ _ => token = t
  | userRotated token _ _ _ => token = t
  | throwing token _ => token = t
  | userRevoking revocation stage =>
    revocation.token = some t ∨ stage = .tokens ∧
      (db.userRefreshTokens t).any (fun row => row.userSessionId = revocation.sessionId) = true
  | revoking (.userSession revocation) _ _ =>
    revocation.token = some t ∨
      (db.userRefreshTokens t).any (fun row => row.userSessionId = revocation.sessionId) = true
  | _ => false

/-- Holds the advisory lock of the organization. -/
def holdsOrg (orgId : ℕ) : AuthTx → Bool
  | enumerating job => job.advisory = some orgId
  | revoking job _ _ => job.advisory = some orgId
  | inserted l _ _ _ => l.orgId = orgId
  | _ => false

end AuthTx

/-! ### States -/

/-- What the end of a transaction tells. -/
inductive AuthEvent where
  /-- a request that found the session idle, or one of its tokens reused, has failed -/
  | detected (userSession : ℕ)
  /-- a refresh, a verification or an exchange with the user session has succeeded -/
  | accepted (userSession : ℕ)
  | revokedUserInOrg (userId orgId since : ℕ)
  | revokedOrg (orgId since : ℕ)
  /-- with the tables before the commit -/
  | recovered (userId : ℕ) (before : AuthDb)

structure AuthState where
  now : ℤ
  db : AuthDb
  /-- the next number -/
  seq : ℕ
  txs : ℕ → AuthTx
  /-- the transactions ever opened -/
  slots : List ℕ
  log : List AuthEvent

inductive Request where
  | refreshUserSession (token : ℕ)
  | revokeUserSessionByRefresh (token : ℕ)
  | verifyUserSession (claims : UserAccessClaims)
  | exchangeOrgCredential (orgId : ℕ)
  | revokeUserSessionById (n userId : ℕ)
  | login (userId orgId : ℕ)
  | revokeSessions (targets : List ℕ)
  | revokeAllUserSessionsInOrg (userId orgId : ℕ)
  | revokeAllSessionsForOrg (orgId : ℕ)
  | completeAccountRecovery (userId : ℕ)
  | refreshSession (token : ℕ)

namespace AuthState

/-- The next phase of a transaction; every statement uses up numbers. -/
def put (s : AuthState) (i : ℕ) (tx : AuthTx) : AuthState :=
  { s with txs := Function.update s.txs i tx, slots := i :: s.slots, seq := s.seq + 2 }

/-- No transaction but `i` holds the lock. -/
def free (s : AuthState) (i : ℕ) (holds : AuthTx → Bool) : Bool :=
  s.slots.all fun j => j = i || !holds (s.txs j)

/-- A request begins; only the exchange continues one that has verified its user session. -/
def call (s : AuthState) (tx : AuthTx) (request : Request) : Option AuthTx :=
  match tx, request with
  | .verified n userId, .exchangeOrgCredential orgId =>
    if s.db.activeMember userId orgId then some (.asking (.login ⟨userId, orgId, some n⟩))
    else some .idle
  | .verified n userId, .revokeUserSessionById _ _ => some (.revokingById n userId)
  | .idle, .refreshUserSession token => some (.presenting .refresh token s.now)
  | .idle, .revokeUserSessionByRefresh token => some (.presenting .logout token s.now)
  | .idle, .verifyUserSession claims => some (.verifying claims s.now)
  | .idle, .revokeUserSessionById n userId => some (.revokingById n userId)
  | .idle, .login userId orgId => some (.asking (.login ⟨userId, orgId, none⟩))
  | .idle, .revokeSessions targets => some (.asking (.sessions targets))
  | .idle, .revokeAllUserSessionsInOrg userId orgId =>
    some (.asking (.userInOrg userId orgId s.seq))
  | .idle, .revokeAllSessionsForOrg orgId => some (.asking (.org orgId s.seq))
  | .idle, .completeAccountRecovery userId => some (.recovering userId s.db.organizations [])
  | .idle, .refreshSession token => some (.refreshing token)
  | _, _ => none

/-! ### Statements -/

/-- The sessions a statement selects: committed, unrevoked, and not revoked by the transaction
itself. -/
def select (s : AuthState) (pending : List ℕ) (predicate : SessionRow → Bool) : List ℕ :=
  (List.range s.seq).filter fun n =>
    decide (n ∉ pending) && (s.db.sessions n).any fun row => row.revokedAt.isNone && predicate row

/-- `selectRevocableUserSessionsInOrg`. -/
def selectUserInOrg (s : AuthState) (pending : List ℕ) (userId orgId : ℕ) : List Target :=
  (s.select pending fun row => row.userId == userId && row.orgId == orgId).map
    fun n => ⟨n, some userId, some orgId⟩

/-- The targets of a revocation; a login and a sign-out choose theirs. -/
def targets (s : AuthState) (choice : List ℕ) : Job → List Target
  | .sessions targets => targets.map fun n => ⟨n, none, none⟩
  | .userInOrg userId orgId _ => s.selectUserInOrg [] userId orgId
  | .org orgId _ => (s.select [] fun row => row.orgId == orgId).map fun n => ⟨n, none, none⟩
  | .login l =>
    (s.selectUserInOrg [] l.userId l.orgId).filter fun target => target.sessionId ∈ choice
  | .recovery _ _ => []
  | .userSession revocation =>
    (s.db.cliOrgCredentials.filter fun link => link.userSessionId = revocation.sessionId).map
      fun link => ⟨link.sessionId, none, some link.orgId⟩

/-- `revokeSessionById` in a transaction that has already revoked some sessions. -/
def revokeNext (s : AuthState) (target : Target) (pending : List ℕ) : List ℕ :=
  if target.sessionId ∉ pending ∧ (s.db.sessions target.sessionId).any
      (fun row => row.revokedAt.isNone && target.matches row) = true then
    target.sessionId :: pending
  else pending

/-- The decision on a user refresh token whose row is locked. -/
def decidePresented (env : AuthEnv) (s : AuthState) (use : TokenUse) (token : ℕ) (now : ℤ)
    (row : UserRefreshTokenRow) : AuthTx :=
  match s.db.userSessions row.userSessionId with
  | none => .throwing token none
  | some session =>
    match use with
    | .logout =>
      if session.revokedAt.isSome then .idle
      else .userRevoking ⟨row.userSessionId, s.now, some token, .returns⟩ .asked
    | .refresh =>
      match rotateUserRefresh env row session now with
      | .rejects _ =>
        .throwing token (if row.reused now then some row.userSessionId else none)
      | .revokesAndThrows _ =>
        .userRevoking ⟨row.userSessionId, now, some token, .throws⟩ .asked
      | .rotates => .userRotating token now row session

/-- The decision on the claims of a user session. -/
def decideVerify (env : AuthEnv) (s : AuthState) (claims : UserAccessClaims) (now : ℤ) : AuthTx :=
  match verifyUserSession env claims (s.db.userSessions claims.jti) now with
  | .rejects _ => .idle
  | .revokesAndThrows _ => .userRevoking ⟨claims.jti, now, none, .throws⟩ .asked
  | .touches => .touching claims.jti claims.sub now

/-- The decision of `revokeUserSessionById`. -/
def decideById (s : AuthState) (n userId : ℕ) : AuthTx :=
  match s.db.userSessions n with
  | none => .idle
  | some row =>
    if row.userId ≠ userId ∨ row.revokedAt.isSome = true then .idle
    else .userRevoking ⟨n, s.now, none, .returns⟩ .asked

/-- The decision of `refreshSession` on the rows it has locked. -/
def decideRefresh (env : AuthEnv) (s : AuthState) (token : ℕ) (row : RefreshTokenRow) : AuthTx :=
  match s.db.sessions row.sessionId with
  | none => .idle
  | some session =>
    if session.orgId ≠ row.orgId then .idle else
    match refreshSession env s.db row session s.now with
    | .rejects _ | .answers _ => .idle
    | .expires => .revoking (.sessions []) [] [row.sessionId]
    | .rotates => .rotating token row session

/-- The statement of a revocation that comes after its targets are exhausted. -/
def continueJob (env : AuthEnv) (s : AuthState) (job : Job) (pending : List ℕ) : Option AuthTx :=
  match job with
  | .recovery userId (orgId :: orgs) =>
    some (.revoking (.recovery userId orgs) (s.selectUserInOrg pending userId orgId) pending)
  | .login l =>
    let ttl := if l.userSession.isSome then cliOrgCredentialTtlMs else env.jwtAccessTtl
    some (.inserted l s.seq (loginSession ttl l.userId l.orgId s.now) pending)
  | _ => none

/-- The next statement of transaction `i`. The choice names the sessions a login signs out and the
target a revocation comes to. -/
def advance (env : AuthEnv) (s : AuthState) (i : ℕ) (choice : List ℕ) : AuthTx → Option AuthTx
  | .presenting use token now =>
    if s.free i (AuthTx.holdsUserToken s.db token) then
      match s.db.userRefreshTokens token with
      | none => some .idle
      | some row => some (.presented use token now row)
    else none
  | .presented use token now row => some (s.decidePresented env use token now row)
  | .userRotating token now row session =>
    if s.free i (AuthTx.holdsUserSession row.userSessionId) then
      some (.userRotated token now row session)
    else none
  | .verifying claims now => some (s.decideVerify env claims now)
  | .touching n userId now =>
    if s.free i (AuthTx.holdsUserSession n) then some (.touched n userId now) else none
  | .revokingById n userId => some (s.decideById n userId)
  | .userRevoking revocation .asked =>
    if s.free i (AuthTx.holdsUserSession revocation.sessionId) then
      some (.userRevoking revocation .session)
    else none
  | .userRevoking revocation .session =>
    if (List.range s.seq).all fun t =>
        !(s.db.userRefreshTokens t).any (fun row => row.userSessionId = revocation.sessionId) ||
          s.free i (AuthTx.holdsUserToken s.db t) then
      some (.userRevoking revocation .tokens)
    else none
  | .userRevoking revocation .tokens =>
    some (.revoking (.userSession revocation) (s.targets choice (.userSession revocation)) [])
  | .recovering userId (orgId :: orgs) found =>
    some (.recovering userId orgs
      (if s.db.activeMember userId orgId then found ++ [orgId] else found))
  | .recovering userId [] found => some (.revoking (.recovery userId found) [] [])
  | .asking job =>
    match job.advisory with
    | none => some (.enumerating job)
    | some orgId =>
      if s.free i (AuthTx.holdsOrg orgId) then some (.enumerating job) else none
  | .enumerating job => some (.revoking job (s.targets choice job) [])
  | .revoking job [] pending => s.continueJob env job pending
  | .revoking job targets pending =>
    match targets.find? fun target => target.sessionId ∈ choice with
    | none => none
    | some target =>
      if s.free i (AuthTx.holdsSession target.sessionId) then
        some (.revoking job (targets.erase target) (s.revokeNext target pending))
      else none
  | .refreshing token =>
    match s.db.refreshTokens token with
    | none => some .idle
    | some row =>
      if s.free i (AuthTx.holdsSession row.sessionId) then
        some (s.decideRefresh env token row)
      else none
  | .rotating token row session => some (.rotated token row session s.seq s.now)
  | _ => none

/-! ### Ends -/

/-- The end of a body: the tables, what it tells, and the phase after it. -/
structure End where
  db : AuthDb
  events : List AuthEvent
  next : AuthTx

def finish (env : AuthEnv) (s : AuthState) : AuthTx → Option End
  | .throwing _ reused => some ⟨s.db, reused.toList.map .detected, .idle⟩
  | .userRotated token now row session =>
    some ⟨s.db.rotateUserRefresh token row session s.seq now, [.accepted row.userSessionId],
      .idle⟩
  | .touched n userId now =>
    some ⟨s.db.touchUserSession n now, [.accepted n], .verified n userId⟩
  | .verified _ _ => some ⟨s.db, [], .idle⟩
  | .revoking (.userSession revocation) [] pending =>
    match revocation.ending with
    | .returns =>
      some ⟨(s.db.revokeUserSession revocation.sessionId revocation.now).revokeSessions pending
        s.now, [], .idle⟩
    | .throws => some ⟨s.db, [.detected revocation.sessionId], .idle⟩
  | .revoking (.sessions _) [] pending => some ⟨s.db.revokeSessions pending s.now, [], .idle⟩
  | .revoking (.userInOrg userId orgId since) [] pending =>
    some ⟨s.db.revokeSessions pending s.now, [.revokedUserInOrg userId orgId since], .idle⟩
  | .revoking (.org orgId since) [] pending =>
    some ⟨s.db.revokeSessions pending s.now, [.revokedOrg orgId since], .idle⟩
  | .revoking (.recovery userId []) [] pending =>
    some ⟨s.db.revokeSessions pending s.now, [.recovered userId s.db], .idle⟩
  | .inserted l n row pending =>
    some ⟨(s.db.revokeSessions pending s.now).createLoginSession env row l.userSession n (n + 1),
      l.userSession.toList.map .accepted, .idle⟩
  | .rotated token row session n rotatedAt =>
    some ⟨s.db.rotateRefreshToken env token row session n (n + 1) rotatedAt, [], .idle⟩
  | _ => none

end AuthState

/-! ### The system -/

inductive AuthLabel where
  | tick (t : ℤ)
  | issueUserSession (userId : ℕ)
  | setMember (userId orgId : ℕ) (active : Bool)
  | createOrganization (orgId : ℕ)
  /-- `touchSessionActivity` -/
  | touchSession (n : ℕ)
  /-- the worker that prunes `revoked_tokens` -/
  | prune (ids : List ℕ)
  | call (i : ℕ) (request : Request)
  | runs (i : ℕ) (choice : List ℕ)
  | finish (i : ℕ)
  | rollback (i : ℕ)

/-- The next `n` statements of a transaction. -/
def AuthLabel.runsFor (i n : ℕ) : List AuthLabel := List.replicate n (.runs i [])

def authStep (env : AuthEnv) (s : AuthState) : AuthLabel → Option AuthState
  | .tick t => if s.now ≤ t then some { s with now := t } else none
  | .issueUserSession userId =>
    some { s with
      db := s.db.issueUserSession env userId s.seq (s.seq + 1) s.now, seq := s.seq + 2 }
  | .setMember userId orgId active =>
    some { s with
      db := { s.db with activeMember := fun u o =>
        if u = userId ∧ o = orgId then active else s.db.activeMember u o } }
  | .createOrganization orgId =>
    some { s with db := { s.db with organizations := orgId :: s.db.organizations } }
  | .touchSession n =>
    if s.slots.all fun j => !(s.txs j).holdsSession n then
      some { s with db := s.db.touchSession n s.now }
    else none
  | .prune ids =>
    some { s with
      db := { s.db with revokedTokens := fun n => s.db.revokedTokens n && decide (n ∉ ids) } }
  | .call i request => (s.call (s.txs i) request).map (s.put i)
  | .runs i choice => (s.advance env i choice (s.txs i)).map (s.put i)
  | .finish i =>
    (s.finish env (s.txs i)).map fun e =>
      { s.put i e.next with db := e.db, log := e.events ++ s.log }
  | .rollback i => some (s.put i .idle)

/-- The system, before anybody has signed in. -/
def authSystem (env : AuthEnv) : Run.System AuthState AuthLabel where
  init := ⟨0, .empty, 0, fun _ => .idle, [], []⟩
  step := authStep env

end Auth
