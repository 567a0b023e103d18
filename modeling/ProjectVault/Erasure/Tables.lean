import ProjectVault.Auth.Steps

/-!
The tables of an erasure and what `executeErasure` writes to them (`compliance/erasure-service`,
`compliance/pseudonymize-identity`).

Rows are named by numbers drawn when they are committed. Audit entries and device grants are left
out.
-/

namespace Erasure

open Auth

/-! ### Rows -/

/-- The metadata of a request, and of the session row it leaves. -/
structure RequestMeta where
  ipAddress : Option String
  userAgent : Option String
  deriving DecidableEq

/-- The columns nulled. -/
def RequestMeta.scrubbed : RequestMeta := ⟨none, none⟩

structure UserRow where
  email : String
  passwordHash : String
  mfaEnrolledAt : Option ℤ

structure OrgMembership where
  userId : ℕ
  orgId : ℕ
  active : Bool
  deriving DecidableEq

/-- The tables of which an erasure deletes the rows of the user: `mfa_enrollments`,
`mfa_recovery_codes` and `account_recovery_tokens`. -/
inductive Credential where
  | enrollment | recoveryCode | recoveryToken
  deriving DecidableEq

/-- A row of `user_identity_tokens`. -/
structure IdentityToken where
  userId : ℕ
  displayName : String
  pseudonymizedAt : Option ℤ

inductive ErasureStatus where
  | pending | inProgress | completed
  deriving DecidableEq

/-- A row of `data_erasure_requests`. -/
structure ErasureRequest where
  orgId : ℕ
  userId : ℕ
  status : ErasureStatus
  completedAt : Option ℤ

structure Tables where
  auth : AuthDb
  /-- the metadata of the rows of `sessions` -/
  sessionMeta : ℕ → RequestMeta
  users : ℕ → Option UserRow
  memberships : List OrgMembership
  /-- the user of each row -/
  credentials : Credential → ℕ → Option ℕ
  identityTokens : ℕ → Option IdentityToken
  requests : ℕ → Option ErasureRequest

def Tables.empty : Tables where
  auth := .empty
  sessionMeta := fun _ => .scrubbed
  users := fun _ => none
  memberships := []
  credentials := fun _ _ => none
  identityTokens := fun _ => none
  requests := fun _ => none

namespace Tables

variable (db : Tables)

/-- `authenticateRequest` reads the memberships. -/
def signIn : AuthDb :=
  { db.auth with
    activeMember := fun u o => db.memberships.any fun m => m.userId = u ∧ m.orgId = o ∧ m.active }

/-- `countOtherOrgMemberships`, whatever the status. -/
def countOtherOrgMemberships (userId excludeOrgId : ℕ) : ℕ :=
  db.memberships.countP fun m => m.userId = userId ∧ m.orgId ≠ excludeOrgId

/-- The sessions of a user in an organization, among the first numbers. -/
def sessionsInOrg (seq userId orgId : ℕ) : List ℕ :=
  (List.range seq).filter fun n =>
    (db.auth.sessions n).any fun row => row.userId = userId ∧ row.orgId = orgId

/-- `selectRevocableUserSessionsInOrg`. -/
def selectRevocableUserSessionsInOrg (seq userId orgId : ℕ) : List ℕ :=
  (db.sessionsInOrg seq userId orgId).filter fun n =>
    (db.auth.sessions n).any fun row => row.revokedAt.isNone

/-- The identity tokens of a user with their numbers. -/
def identityTokensOf (seq userId : ℕ) : List (ℕ × IdentityToken) :=
  (List.range seq).filterMap fun n =>
    (db.identityTokens n).bind fun row => if row.userId = userId then some (n, row) else none

end Tables

/-! ### Drawn texts -/

def aliasAlphabet : List Char := "abcdefghijklmnopqrstuvwxyz0123456789".toList

/-- Eight characters of the alphabet. -/
abbrev AliasDraw := Fin 8 → Fin 36

def generatePseudonymAlias (draw : AliasDraw) : String :=
  "user_" ++ String.ofList (List.ofFn fun i => aliasAlphabet.getD (draw i) 'a')

def hexDigits : List Char := "0123456789abcdef".toList

/-- Six random bytes. -/
abbrev EmailDraw := Fin 12 → Fin 16

def generateErasedEmail (draw : EmailDraw) : String :=
  "erased_" ++ String.ofList (List.ofFn fun i => hexDigits.getD (draw i) '0') ++ "@erased.invalid"

def maxCollisionAttempts : ℕ := 5

/-- No alias is an address. -/
lemma at_notMem_alias (draw : AliasDraw) : '@' ∉ (generatePseudonymAlias draw).toList := by
  have halphabet : ∀ n : Fin 36, '@' ≠ aliasAlphabet.getD n 'a' := by decide
  simp only [generatePseudonymAlias, String.toList_append, String.toList_ofList, List.mem_append,
    List.mem_ofFn, not_or, not_exists]
  exact ⟨by decide, fun i heq => halphabet (draw i) heq.symm⟩

/-! ### Writes -/

/-- An identity token renamed. -/
structure Pseudonym where
  tokenId : ℕ
  displayName : String
  pseudonymizedAt : ℤ

/-- What an execution has written. -/
structure Writes where
  status : Option ErasureStatus
  completedAt : Option ℤ
  aliases : List Pseudonym
  user : Option UserRow
  deleted : Credential → List ℕ
  scrubbed : List ℕ
  revoked : List ℕ
  revokedAt : ℤ

def Writes.none : Writes := ⟨.none, .none, [], .none, fun _ => [], [], [], 0⟩

/-- A row of `user_identity_tokens` behind the writes. -/
def Writes.pseudonymize (w : Writes) (n : ℕ) (row : IdentityToken) : IdentityToken :=
  match w.aliases.find? fun p => p.tokenId = n with
  | some p => { row with displayName := p.displayName, pseudonymizedAt := some p.pseudonymizedAt }
  | .none => row

def Writes.apply (w : Writes) (requestId userId : ℕ) (db : Tables) : Tables where
  auth := db.auth.revokeSessions w.revoked w.revokedAt
  sessionMeta := fun n => if n ∈ w.scrubbed then .scrubbed else db.sessionMeta n
  users := fun u => if u = userId then w.user.or (db.users u) else db.users u
  memberships := db.memberships
  credentials := fun k n => if n ∈ w.deleted k then .none else db.credentials k n
  identityTokens := fun n => (db.identityTokens n).map (w.pseudonymize n)
  requests := fun r => (db.requests r).map fun row =>
    if r = requestId then
      { row with
        status := w.status.getD row.status
        completedAt := w.completedAt.or row.completedAt }
    else row

lemma Writes.pseudonymize_none (n : ℕ) : Writes.none.pseudonymize n = id := rfl

/-- An execution that has written nothing commits nothing. -/
lemma Writes.apply_none (requestId userId : ℕ) (db : Tables) :
    Writes.none.apply requestId userId db = db := by
  have hauth : db.auth.revokeSessions Writes.none.revoked Writes.none.revokedAt = db.auth := by
    simp [AuthDb.revokeSessions, Writes.none]
  simp only [Writes.apply, hauth, pseudonymize_none]
  simp [Writes.none]

end Erasure
