import ProjectVault.Erasure.Tables
import ProjectVault.Run.System

/-!
`executeErasure` statement by statement, beside the other requests on the tables.

The inserts and the updates of other requests are made whatever their checks have let through; an
update of one row is made when it commits, unless its row is locked. A unique violation, a raised
trigger and a thrown error roll back.
-/

namespace Erasure

open Auth

/-! ### States -/

inductive Outcome where
  | notFound
  | userHasOtherOrgMemberships (otherOrgCount : ℕ)
  | alreadyCompleted (completedAt : ℤ)
  | erasureAlreadyInProgress
  | completed (userId : ℕ) (completedAt : ℤ) (revokedSessionCount : ℕ)
  deriving DecidableEq

/-- The next statement of an execution. -/
inductive Stage where
  | counting
  | claiming
  | reading
  /-- the identity tokens still to come to, and the attempts made for the first -/
  | drawing (todo : List (ℕ × IdentityToken)) (attempts : ℕ)
  | updating (tokenId : ℕ) (todo : List (ℕ × IdentityToken)) (name : String)
  | overwriting
  | deleting (kind : Credential)
  | scrubbing
  | revoking
  | completing
  | returned (outcome : Outcome)

structure Erasing where
  requestId : ℕ
  orgId : ℕ
  /-- the user of the request, as it was read -/
  userId : ℕ
  writes : Writes

/-- An insert of rows for a user. -/
inductive Insert where
  | membership (orgId : ℕ)
  /-- `createLoginSessionInTx`, with the sessions it signs out -/
  | session (row : SessionRow) (requestMeta : RequestMeta) (signedOut : List ℕ)
      (userSession : Option ℕ)
  | userSession
  | credentials (kind : Credential) (count : ℕ)
  | request (orgId : ℕ)

inductive Tx where
  | erasing (stage : Stage) (e : Erasing)
  | inserting (userId : ℕ) (insert : Insert)
  /-- `rotateRefreshToken` before its insert, with the rows it has locked -/
  | refreshing (token : ℕ) (row : RefreshTokenRow) (session : SessionRow)
      (requestMeta : RequestMeta)
  | rotated (token : ℕ) (row : RefreshTokenRow) (session : SessionRow) (requestMeta : RequestMeta)
      (rotatedAt : ℤ)

/-- A row that can be locked. -/
inductive Row where
  | request (n : ℕ)
  | user (n : ℕ)
  | session (n : ℕ)
  | identityToken (n : ℕ)
  deriving DecidableEq

/-- An execution that has ended, with the tables before and after its commit. -/
structure Entry where
  requestId : ℕ
  orgId : ℕ
  outcome : Outcome
  before : Tables
  after : Tables

structure State where
  now : ℤ
  db : Tables
  /-- the next number -/
  seq : ℕ
  txs : ℕ → Option Tx
  locks : Row → Option ℕ
  /-- the users with the transactions that have inserted rows for them -/
  keyShares : List (ℕ × ℕ)
  /-- the newest first -/
  log : List Entry

/-- What an execution draws at a statement. -/
structure Drawn where
  name : AliasDraw
  email : EmailDraw
  /-- `generateUnusablePasswordHash` -/
  passwordHash : String

inductive Label where
  | execute (i requestId orgId : ℕ)
  | erase (i : ℕ) (drawn : Drawn)
  | login (i userId orgId : ℕ) (ttl : ℤ) (requestMeta : RequestMeta) (choice : List ℕ)
      (userSession : Option ℕ)
  | join (i userId orgId : ℕ)
  | issueUserSession (i userId : ℕ)
  | insertCredentials (i userId : ℕ) (kind : Credential) (count : ℕ)
  | createErasureRequest (i userId orgId : ℕ)
  | refresh (i token : ℕ) (requestMeta : RequestMeta)
  | rotate (i : ℕ)
  | commit (i : ℕ)
  | rollback (i : ℕ)
  | register (email passwordHash : String) (orgId : ℕ)
  | pseudonymizeUser (userId : ℕ) (draw : AliasDraw)
  | leave (userId orgId : ℕ)
  | setStatus (userId orgId : ℕ) (active : Bool)
  | deleteCredentials (kind : Credential) (ids : List ℕ)
  | touchSession (n : ℕ)
  | revokeSessions (ids : List ℕ)
  | verifyUserSession (claims : UserAccessClaims)
  | refreshUserSession (token : ℕ)
  | revokeUserSession (n : ℕ)
  | prune (ids : List ℕ)
  | tick (t : ℤ)

namespace State

variable (s : State) (i : ℕ)

def setTx (tx : Tx) : State := { s with txs := Function.update s.txs i (some tx) }

/-- The transaction is over and its locks are free. -/
def endTx : State :=
  { s with
    txs := Function.update s.txs i none
    locks := fun row => if s.locks row = some i then none else s.locks row
    keyShares := s.keyShares.filter fun share => share.2 ≠ i }

def lock (rows : List Row) : State :=
  { s with locks := fun row => if row ∈ rows then some i else s.locks row }

/-- The rows are free. -/
def unlocked (rows : List Row) : Bool := rows.all fun row => s.locks row = none

/-- The tables and the next number after a commit. -/
def setDb (db : Tables) (seq : ℕ) : State := { s with db, seq }

end State

/-! ### Executions -/

section Steps

variable (env : AuthEnv) (s : State) (i : ℕ)

/-- The transaction begins and reads the request. -/
def execute (requestId orgId : ℕ) : Option State :=
  match s.txs i with
  | some _ => none
  | none =>
    match (s.db.requests requestId).filter fun r => r.orgId = orgId with
    | none => some { s with log := ⟨requestId, orgId, .notFound, s.db, s.db⟩ :: s.log }
    | some existing =>
      let e : Erasing := ⟨requestId, orgId, existing.userId, .none⟩
      match existing.status, existing.completedAt with
      | .completed, some completedAt =>
        some (s.setTx i (.erasing (.returned (.alreadyCompleted completedAt)) e))
      | .completed, none => some s
      | _, _ => some (s.setTx i (.erasing .counting e))

/-- The conditional update of the request, which waits for the lock of its row. -/
def claim (e : Erasing) : Option State :=
  if s.locks (.request e.requestId) ≠ none then none
  else
    match s.db.requests e.requestId with
    | none => some (s.setTx i (.erasing (.returned .erasureAlreadyInProgress) e))
    | some row =>
      match row.status, row.completedAt with
      | .pending, _ =>
        let writes := { e.writes with status := some .inProgress }
        some ((s.setTx i (.erasing .reading { e with writes })).lock i [.request e.requestId])
      | .completed, some completedAt =>
        some (s.setTx i (.erasing (.returned (.alreadyCompleted completedAt)) e))
      | .completed, none => some (s.endTx i)
      | .inProgress, _ => some (s.setTx i (.erasing (.returned .erasureAlreadyInProgress) e))

/-- Another row bears the name, as the transaction sees it. -/
def collides (e : Erasing) (tokenId : ℕ) (name : String) : Bool :=
  (List.range s.seq).any fun n =>
    n ≠ tokenId ∧
      (s.db.identityTokens n).any fun row => (e.writes.pseudonymize n row).displayName = name

/-- One attempt of `generateUniqueAlias`. -/
def draw (e : Erasing) (todo : List (ℕ × IdentityToken)) (attempts : ℕ) (name : String) :
    Option State :=
  match todo with
  | [] => some (s.setTx i (.erasing .overwriting e))
  | (tokenId, row) :: rest =>
    if row.pseudonymizedAt.isSome then some (s.setTx i (.erasing (.drawing rest 0) e))
    else if maxCollisionAttempts ≤ attempts then some (s.endTx i)
    else if collides s e tokenId name then
      some (s.setTx i (.erasing (.drawing todo (attempts + 1)) e))
    else some (s.setTx i (.erasing (.updating tokenId rest name) e))

/-- The update of the identity token; the trigger lets no pseudonym be changed. -/
def rename (e : Erasing) (tokenId : ℕ) (todo : List (ℕ × IdentityToken)) (name : String) :
    Option State :=
  if s.locks (.identityToken tokenId) ≠ none then none
  else
    match s.db.identityTokens tokenId with
    | none => some (s.setTx i (.erasing (.drawing todo 0) e))
    | some row =>
      if row.pseudonymizedAt.isSome ∧ row.displayName ≠ name then some (s.endTx i)
      else
        let writes := { e.writes with aliases := e.writes.aliases ++ [⟨tokenId, name, s.now⟩] }
        some ((s.setTx i (.erasing (.drawing todo 0) { e with writes })).lock i
          [.identityToken tokenId])

/-- The update of the user: it waits for the row and for the inserts for the user. -/
def overwrite (e : Erasing) (email : String) (passwordHash : String) : Option State :=
  if s.locks (.user e.userId) ≠ none ∨ s.keyShares.any (fun share => share.1 = e.userId) = true then
    none
  else if (List.range s.seq).any fun u =>
      u ≠ e.userId ∧ (s.db.users u).any fun row => row.email = email
  then some (s.endTx i)
  else
    let writes := { e.writes with user := some ⟨email, passwordHash, none⟩ }
    some ((s.setTx i (.erasing (.deleting .enrollment) { e with writes })).lock i [.user e.userId])

/-- The rows of the user, deleted. -/
def deleteOf (e : Erasing) (kind : Credential) : Erasing :=
  let ids := (List.range s.seq).filter fun n => s.db.credentials kind n = some e.userId
  { e with writes := { e.writes with deleted := Function.update e.writes.deleted kind ids } }

def afterDeleting : Credential → Stage
  | .enrollment => .deleting .recoveryCode
  | .recoveryCode => .deleting .recoveryToken
  | .recoveryToken => .scrubbing

/-- The update of the sessions of the user in the organization, which waits for their rows. -/
def scrub (e : Erasing) : Option State :=
  let ids := s.db.sessionsInOrg s.seq e.userId e.orgId
  if s.unlocked (ids.map .session) then
    let writes := { e.writes with scrubbed := ids }
    some ((s.setTx i (.erasing .revoking { e with writes })).lock i (ids.map .session))
  else none

/-- `revokeAllUserSessionsInOrg`: the rows are locked, and the pending enrollments it deletes are
gone. -/
def revoke (e : Erasing) : State :=
  let revoked := s.db.selectRevocableUserSessionsInOrg s.seq e.userId e.orgId
  s.setTx i (.erasing .completing
    { e with writes := { e.writes with revoked, revokedAt := s.now } })

def complete (e : Erasing) : State :=
  let writes := { e.writes with status := some .completed, completedAt := some s.now }
  s.setTx i (.erasing (.returned (.completed e.userId s.now e.writes.revoked.length))
    { e with writes })

/-- The next statement of an execution. -/
def erase (drawn : Drawn) : Option State :=
  match s.txs i with
  | some (.erasing stage e) =>
    match stage with
    | .counting =>
      let otherOrgCount := s.db.countOtherOrgMemberships e.userId e.orgId
      if 0 < otherOrgCount then
        some (s.setTx i (.erasing (.returned (.userHasOtherOrgMemberships otherOrgCount)) e))
      else some (s.setTx i (.erasing .claiming e))
    | .claiming => claim s i e
    | .reading =>
      some (s.setTx i (.erasing (.drawing (s.db.identityTokensOf s.seq e.userId) 0) e))
    | .drawing todo attempts => draw s i e todo attempts (generatePseudonymAlias drawn.name)
    | .updating tokenId todo name => rename s i e tokenId todo name
    | .overwriting => overwrite s i e (generateErasedEmail drawn.email) drawn.passwordHash
    | .deleting kind => some (s.setTx i (.erasing (afterDeleting kind) (deleteOf s e kind)))
    | .scrubbing => scrub s i e
    | .revoking => some (revoke s i e)
    | .completing => some (complete s i e)
    | .returned _ => none
  | _ => none

/-! ### Other requests -/

/-- An insert for a user: the foreign key takes its lock on the row. -/
def insert (userId : ℕ) (ins : Insert) (rows : List Row) : Option State :=
  if s.txs i = none ∧ (s.db.users userId).isSome ∧ s.locks (.user userId) = none ∧
      s.unlocked rows = true then
    some { (s.setTx i (.inserting userId ins)).lock i rows with
      keyShares := (userId, i) :: s.keyShares }
  else none

instance (tx : Option Tx) : Decidable (tx = none) :=
  decidable_of_iff (tx.isNone = true) Option.isNone_iff_eq_none

/-- The sessions a login signs out are unrevoked ones of the user in the organization. -/
def login (userId orgId : ℕ) (ttl : ℤ) (requestMeta : RequestMeta) (choice : List ℕ)
    (userSession : Option ℕ) : Option State :=
  let signedOut := (s.db.selectRevocableUserSessionsInOrg s.seq userId orgId).filter (· ∈ choice)
  insert s i userId
    (.session (loginSession ttl userId orgId s.now) requestMeta signedOut userSession)
    (signedOut.map .session)

/-- `refreshSession` behind the locks of its rows; only a rotation goes on. -/
def refresh (token : ℕ) (requestMeta : RequestMeta) : Option State :=
  match s.txs i, s.db.auth.refreshTokens token with
  | none, some row =>
    if s.locks (.session row.sessionId) ≠ none then none
    else
      match s.db.auth.sessions row.sessionId with
      | none => some s
      | some session =>
        match refreshSession env s.db.signIn row session s.now with
        | .rejects _ | .answers _ => some s
        | .expires =>
          some (s.setDb
            { s.db with auth := s.db.auth.revokeSessions [row.sessionId] s.now } s.seq)
        | .rotates =>
          some ((s.setTx i (.refreshing token row session requestMeta)).lock i
            [.session row.sessionId])
  | _, _ => none

/-- The insert of the session that replaces the one read. -/
def rotate : Option State :=
  match s.txs i with
  | some (.refreshing token row session requestMeta) =>
    if s.locks (.user session.userId) ≠ none then none
    else
      some { s.setTx i (.rotated token row session requestMeta s.now) with
        keyShares := (session.userId, i) :: s.keyShares }
  | _ => none

/-! ### Commits -/

/-- The rows of an insert; a second request in progress violates the unique index. -/
def commitInsert (userId : ℕ) : Insert → Option (Tables × ℕ)
  | .membership orgId =>
    if s.db.memberships.any fun m => m.userId = userId ∧ m.orgId = orgId then some (s.db, s.seq)
    else some ({ s.db with memberships := ⟨userId, orgId, true⟩ :: s.db.memberships }, s.seq)
  | .session row requestMeta signedOut userSession =>
    some ({ s.db with
      auth := (s.db.auth.revokeSessions signedOut s.now).createLoginSession env row userSession
        s.seq (s.seq + 1)
      sessionMeta := Function.update s.db.sessionMeta s.seq requestMeta }, s.seq + 2)
  | .userSession =>
    some ({ s.db with auth := s.db.auth.issueUserSession env userId s.seq (s.seq + 1) s.now },
      s.seq + 2)
  | .credentials kind count =>
    some ({ s.db with
      credentials := Function.update s.db.credentials kind fun n =>
        if s.seq ≤ n ∧ n < s.seq + count then some userId else s.db.credentials kind n },
      s.seq + count)
  | .request orgId =>
    if (List.range s.seq).any fun n =>
      (s.db.requests n).any fun r => r.userId = userId ∧ r.status ≠ .completed
    then none
    else some ({ s.db with
      requests := Function.update s.db.requests s.seq (some ⟨orgId, userId, .pending, none⟩) },
      s.seq + 1)

def commit : Option State :=
  match s.txs i with
  | some (.erasing (.returned outcome) e) =>
    let db := e.writes.apply e.requestId e.userId s.db
    some { (s.endTx i).setDb db s.seq with
      log := ⟨e.requestId, e.orgId, outcome, s.db, db⟩ :: s.log }
  | some (.inserting userId ins) =>
    (commitInsert env s userId ins).map fun p => (s.endTx i).setDb p.1 p.2
  | some (.rotated token row session requestMeta rotatedAt) =>
    some ((s.endTx i).setDb { s.db with
      auth := s.db.auth.rotateRefreshToken env token row session s.seq (s.seq + 1) rotatedAt
      sessionMeta := Function.update s.db.sessionMeta s.seq requestMeta } (s.seq + 2))
  | _ => none

/-- A new user, whose address is checked to be one, with its identity token and its membership. -/
def register (email passwordHash : String) (orgId : ℕ) : Option State :=
  if '@' ∈ email.toList then
    some (s.setDb { s.db with
      users := Function.update s.db.users s.seq (some ⟨email, passwordHash, none⟩)
      identityTokens := Function.update s.db.identityTokens s.seq (some ⟨s.seq, email, none⟩)
      memberships := ⟨s.seq, orgId, true⟩ :: s.db.memberships } (s.seq + 1))
  else none

/-- `pseudonymizeUser` of `org/pseudonymize`: one alias for all identity tokens of the user, unless
one of them has been pseudonymized. -/
def pseudonymizeUser (userId : ℕ) (name : String) : Option State :=
  let tokens := s.db.identityTokensOf s.seq userId
  if tokens.any fun token => token.2.pseudonymizedAt.isSome then some s
  else if s.unlocked (tokens.map fun token => .identityToken token.1) then
    some (s.setDb { s.db with
      identityTokens := fun n => (s.db.identityTokens n).map fun row =>
        if row.userId = userId then { row with displayName := name, pseudonymizedAt := some s.now }
        else row } s.seq)
  else none

def step : Label → Option State
  | .execute i requestId orgId => execute s i requestId orgId
  | .erase i drawn => erase s i drawn
  | .login i userId orgId ttl requestMeta choice userSession =>
    login s i userId orgId ttl requestMeta choice userSession
  | .join i userId orgId => insert s i userId (.membership orgId) []
  | .issueUserSession i userId => insert s i userId .userSession []
  | .insertCredentials i userId kind count => insert s i userId (.credentials kind count) []
  | .createErasureRequest i userId orgId =>
    if s.db.memberships.any fun m => m.userId = userId ∧ m.orgId = orgId then
      insert s i userId (.request orgId) []
    else none
  | .refresh i token requestMeta => refresh env s i token requestMeta
  | .rotate i => rotate s i
  | .commit i => commit env s i
  | .rollback i => some (s.endTx i)
  | .register email passwordHash orgId => register s email passwordHash orgId
  | .pseudonymizeUser userId draw => pseudonymizeUser s userId (generatePseudonymAlias draw)
  | .leave userId orgId =>
    some (s.setDb { s.db with
      memberships := s.db.memberships.filter fun m => ¬(m.userId = userId ∧ m.orgId = orgId) }
      s.seq)
  | .setStatus userId orgId active =>
    some (s.setDb { s.db with
      memberships := s.db.memberships.map fun m =>
        if m.userId = userId ∧ m.orgId = orgId then { m with active } else m } s.seq)
  | .deleteCredentials kind ids =>
    some (s.setDb { s.db with
      credentials := Function.update s.db.credentials kind fun n =>
        if n ∈ ids then none else s.db.credentials kind n } s.seq)
  | .touchSession n =>
    if s.unlocked [.session n] then
      some (s.setDb { s.db with auth := s.db.auth.touchSession n s.now } s.seq)
    else none
  | .revokeSessions ids =>
    if s.unlocked (ids.map .session) then
      some (s.setDb { s.db with auth := s.db.auth.revokeSessions ids s.now } s.seq)
    else none
  | .verifyUserSession claims =>
    match verifyUserSession env claims (s.db.auth.userSessions claims.jti) s.now with
    | .touches =>
      some (s.setDb { s.db with auth := s.db.auth.touchUserSession claims.jti s.now } s.seq)
    | _ => some s
  | .refreshUserSession token =>
    match s.db.auth.userRefreshTokens token with
    | none => some s
    | some row =>
      match s.db.auth.userSessions row.userSessionId with
      | none => some s
      | some session =>
        match rotateUserRefresh env row session s.now with
        | .rotates =>
          some (s.setDb
            { s.db with auth := s.db.auth.rotateUserRefresh token row session s.seq s.now }
            (s.seq + 1))
        | _ => some s
  | .revokeUserSession n =>
    some (s.setDb { s.db with auth := s.db.auth.revokeUserSession n s.now } s.seq)
  | .prune ids =>
    some (s.setDb { s.db with auth := { s.db.auth with
      revokedTokens := fun n => s.db.auth.revokedTokens n && decide (n ∉ ids) } } s.seq)
  | .tick t => if s.now ≤ t then some { s with now := t } else none

end Steps

/-- The system, before anybody has registered. -/
def erasureSystem (env : AuthEnv) : Run.System State Label where
  init := ⟨0, .empty, 0, fun _ => none, fun _ => none, [], []⟩
  step := step env

end Erasure
