import ProjectVault.Db.Rows

/-!
The API keys of machine users, statement by statement (`machine-users/rotation.ts`,
`machine-users/routes.ts`, `key-validity.ts`, `token-exchange-lookup.ts`, `machine-auth.ts`,
`workers/machine-key-overlap-revoke.ts`, and the bulk update of `auth/session-revoke.ts`).

Keys are numbers drawn from the sequence, and a hash is the number it was made from. A statement
that throws (the audit write at the end of a handler) rolls its transaction back.
-/

namespace ProjectVault.MachineUsers

open Db

/-! ### State -/

/-- A row of `machine_users`. -/
structure MachineUser where
  id : ℕ
  orgId : ℕ
  projectId : ℕ
  hostManaged : Bool
  deactivatedAt : Option ℕ
  deriving DecidableEq

/-- A row of `api_keys`. -/
structure ApiKey where
  id : ℕ
  orgId : ℕ
  machineUserId : ℕ
  name : String
  keyHash : ℕ
  expiresAt : Option ℕ
  lastUsedAt : Option ℕ
  createdAt : ℕ
  revokedAt : Option ℕ
  overlapExpiresAt : Option ℕ
  rotatedFromKeyId : Option ℕ
  deriving DecidableEq

/-- The tables. -/
structure KeyDb where
  users : List MachineUser
  keys : List ApiKey

/-- The locks of the rows. -/
inductive KeyLock where
  | user (id : ℕ)
  | key (id : ℕ)
  deriving DecidableEq

/-- `MachineJwtClaims`, as far as they name a key. -/
structure MachineClaims where
  orgId : ℕ
  sub : ℕ
  scope : ℕ
  keyId : ℕ

/-- What a transaction answers. -/
inductive KeyAnswer where
  | machineUserNotFound | machineUserDeactivated
  | apiKeyNotFound | apiKeyAlreadyRevoked | apiKeyAlreadyRotated
  | issued (id : ℕ)
  /-- A rotation at the time `now`. -/
  | rotated (oldId newId now : ℕ)
  /-- An emergency revocation at the time `now`. -/
  | emergencyRevoked (oldId newId now : ℕ)
  | revoked (id : ℕ)
  | deactivated (id : ℕ)
  | orgRevoked (ids : List ℕ)
  | token (claims : MachineClaims)
  | verified (claims : MachineClaims)
  | unauthorized
  | failed

/-- Code over the tables. -/
abbrev KeyProg (α : Type) := Prog KeyDb KeyLock KeyAnswer α

/-- `api_keys`. -/
def keyTable : Db.Table KeyDb KeyLock ApiKey where
  rows := KeyDb.keys
  modify f d := { d with keys := f d.keys }
  rows_modify _ _ := rfl
  id := ApiKey.id
  lock := .key
  lock_injective _ _ h := by simpa using h

/-- `machine_users`. -/
def userTable : Db.Table KeyDb KeyLock MachineUser where
  rows := KeyDb.users
  modify f d := { d with users := f d.users }
  rows_modify _ _ := rfl
  id := MachineUser.id
  lock := .user
  lock_injective _ _ h := by simpa using h

/-! ### Live keys -/

/-- Not past `expiresAt`. -/
def ApiKey.unexpired (k : ApiKey) (now : ℕ) : Bool := k.expiresAt.all fun t => now < t

/-- `isMachineKeyLive`. -/
def isMachineKeyLive (k : ApiKey) (u : MachineUser) (now : ℕ) : Bool :=
  k.revokedAt.isNone && u.deactivatedAt.isNone && k.unexpired now

/-- A key joined with its machine user. -/
def KeyDb.joined (d : KeyDb) (k : ApiKey) : Option (ApiKey × MachineUser) :=
  (userTable.find d k.machineUserId).map fun u => (k, u)

/-- `findApiKeyByHash`. -/
def findApiKeyByHash (d : KeyDb) (keyHash : ℕ) : Option (ApiKey × MachineUser) :=
  (d.keys.filter fun k => k.keyHash = keyHash).findSome? d.joined

/-- `findLiveKeyState`. -/
def findLiveKeyState (d : KeyDb) (orgId keyId : ℕ) : Option (ApiKey × MachineUser) :=
  (d.keys.filter fun k => k.id = keyId && k.orgId = orgId).findSome? d.joined

/-- The claims the exchange of a key signs, if the key is valid for it. -/
def exchangeClaims (found : Option (ApiKey × MachineUser)) (now : ℕ) : Option MachineClaims :=
  (found.filter fun r => isMachineKeyLive r.1 r.2 now).map fun r =>
    ⟨r.1.orgId, r.1.machineUserId, r.2.projectId, r.1.id⟩

/-- `verifyMachineRequest` accepts a token with these claims. -/
def acceptsClaims (found : Option (ApiKey × MachineUser)) (now : ℕ) : Bool :=
  found.any fun r => isMachineKeyLive r.1 r.2 now

/-! ### Statements -/

/-- `Date.now()`. -/
def dateNow : KeyProg ℕ := .query fun c => c.clock

/-- `findMachineUserById`; whether the project is deleted is left open. -/
def findMachineUserById (machineUserId : ℕ) : KeyProg (Option MachineUser) := do
  if ← .either then return none
  .query fun c => (userTable.find c.view machineUserId).filter fun u => !u.hostManaged

/-- `lockApiKeyForUpdate`. -/
def lockApiKeyForUpdate (machineUserId keyId : ℕ) : KeyProg (Option ApiKey) :=
  keyTable.selectForUpdate keyId fun _ k => k.machineUserId = machineUserId

/-- The end of a handler: the audit write may throw. -/
def audited (answer : KeyAnswer) : KeyProg Unit := do
  if ← .either then .rollbackTx .failed else .commitTx answer

/-! ### Handlers -/

/-- `POST /machine-users/:machineUserId/api-keys`. -/
def issueApiKey (orgId machineUserId : ℕ) (name : String) (expiresAt : Option ℕ) :
    KeyProg Unit := do
  .beginTx
  match ← findMachineUserById machineUserId with
  | none => .commitTx .machineUserNotFound
  | some machineUser =>
    if machineUser.deactivatedAt.isSome then .commitTx .machineUserDeactivated
    else do
      let newKey ← keyTable.insertRow fun c =>
        { id := c.seq, orgId, machineUserId, name, keyHash := c.seq, expiresAt
          lastUsedAt := none, createdAt := c.start, revokedAt := none
          overlapExpiresAt := none, rotatedFromKeyId := none }
      audited (.issued newKey.id)

/-- `lockAndRejectIfRevoked`: the locked key, or the answer that was sent. -/
def lockAndRejectIfRevoked (machineUserId keyId : ℕ) : KeyProg (Except KeyAnswer ApiKey) := do
  match ← lockApiKeyForUpdate machineUserId keyId with
  | none => return .error .apiKeyNotFound
  | some oldKey =>
    if oldKey.revokedAt.isSome then return .error .apiKeyAlreadyRevoked
    else if oldKey.overlapExpiresAt.isSome then return .error .apiKeyAlreadyRotated
    else return .ok oldKey

/-- `issueSuccessorKey`. -/
def issueSuccessorKey (orgId machineUserId : ℕ) (oldKey : ApiKey) : KeyProg ApiKey :=
  keyTable.insertRow fun c =>
    { id := c.seq, orgId, machineUserId, name := oldKey.name, keyHash := c.seq
      expiresAt := none, lastUsedAt := none, createdAt := c.start, revokedAt := none
      overlapExpiresAt := none, rotatedFromKeyId := some oldKey.id }

/-- `POST …/rotate` with `rotateApiKey`. -/
def rotate (orgId machineUserId keyId overlapMinutes : ℕ) : KeyProg Unit := do
  .beginTx
  match ← lockAndRejectIfRevoked machineUserId keyId with
  | .error answer => .commitTx answer
  | .ok oldKey => do
      let now ← dateNow
      let newKey ← issueSuccessorKey orgId machineUserId oldKey
      let _ ← keyTable.updateRow oldKey.id (fun _ _ => true) fun _ k =>
        { k with overlapExpiresAt := some (now + overlapMinutes * 60000) }
      audited (.rotated oldKey.id newKey.id now)

/-- `POST …/emergency-revoke` with `emergencyRevokeApiKey`. -/
def emergencyRevoke (orgId machineUserId keyId : ℕ) : KeyProg Unit := do
  .beginTx
  match ← lockAndRejectIfRevoked machineUserId keyId with
  | .error answer => .commitTx answer
  | .ok oldKey => do
      let now ← dateNow
      let _ ← keyTable.updateRow oldKey.id (fun _ _ => true) fun _ k =>
        { k with revokedAt := some now }
      let newKey ← issueSuccessorKey orgId machineUserId oldKey
      audited (.emergencyRevoked oldKey.id newKey.id now)

/-- `DELETE …/api-keys/:keyId`. -/
def revoke (machineUserId keyId : ℕ) : KeyProg Unit := do
  .beginTx
  let revokedAt ← dateNow
  match ← keyTable.updateRow keyId
      (fun _ k => k.machineUserId = machineUserId && k.revokedAt.isNone)
      fun _ k => { k with revokedAt := some revokedAt } with
  | some claimed => audited (.revoked claimed.id)
  | none =>
    match ← .query fun c => (keyTable.find c.view keyId).filter fun k =>
        k.machineUserId = machineUserId with
    | none => .commitTx .apiKeyNotFound
    | some existing => .commitTx (.revoked existing.id)

/-- `POST /machine-users/:machineUserId/deactivate`. -/
def deactivate (machineUserId : ℕ) : KeyProg Unit := do
  .beginTx
  let deactivatedAt ← dateNow
  match ← userTable.updateRow machineUserId
      (fun _ u => u.deactivatedAt.isNone && !u.hostManaged)
      fun _ u => { u with deactivatedAt := some deactivatedAt } with
  | some claimed => audited (.deactivated claimed.id)
  | none =>
    match ← findMachineUserById machineUserId with
    | none => .commitTx .machineUserNotFound
    | some existing => .commitTx (.deactivated existing.id)

/-- One row of the overlap job: found at `now`, revoked if nobody has been faster. -/
def overlapRevoke (keyId : ℕ) : KeyProg Unit := do
  let now ← dateNow
  let due ← .query fun c => (keyTable.find c.view keyId).any fun k =>
    k.overlapExpiresAt.any (fun t => t ≤ now) && k.revokedAt.isNone
  if due then
    .beginTx
    match ← keyTable.updateRow keyId (fun _ k => k.revokedAt.isNone)
        fun _ k => { k with revokedAt := some now } with
    | none => .commitTx .apiKeyAlreadyRevoked
    | some claimed => audited (.revoked claimed.id)
  else pure ()

/-- The bulk update of the keys of an organization. -/
def revokeOrgKeys (orgId : ℕ) : KeyProg Unit := do
  .beginTx
  let now ← dateNow
  let rows ← keyTable.updateRows (fun _ k => k.orgId = orgId && k.revokedAt.isNone)
    fun _ k => { k with revokedAt := some now }
  audited (.orgRevoked (rows.map ApiKey.id))

/-- `POST /machine-token`: the lookup and the update of `lastUsedAt` are statements of their
own. -/
def exchange (keyHash : ℕ) : KeyProg Unit := do
  let row ← .query fun c => findApiKeyByHash c.view keyHash
  let now ← dateNow
  match exchangeClaims row now with
  | none => .rollbackTx .unauthorized
  | some claims => do
      .beginTx
      let _ ← keyTable.updateRow claims.keyId (fun _ _ => true) fun _ k =>
        { k with lastUsedAt := some now }
      .commitTx (.token claims)

/-- `verifyMachineRequest`, for a token whose signature and expiry are good. -/
def verifyMachineRequest (claims : MachineClaims) : KeyProg Unit := do
  .beginTx
  let row ← .query fun c => findLiveKeyState c.view claims.orgId claims.keyId
  let now ← dateNow
  .commitTx (if acceptsClaims row now then .verified claims else .unauthorized)

/-! ### Calls -/

/-- The calls. -/
inductive KeyCall where
  | issue (orgId machineUserId : ℕ) (name : String) (expiresAt : Option ℕ)
  | rotate (orgId machineUserId keyId overlapMinutes : ℕ)
  | emergencyRevoke (orgId machineUserId keyId : ℕ)
  | revoke (machineUserId keyId : ℕ)
  | deactivate (machineUserId : ℕ)
  | overlapRevoke (keyId : ℕ)
  | revokeOrgKeys (orgId : ℕ)
  | exchange (keyHash : ℕ)
  | verify (claims : MachineClaims)

/-- The code of a call. -/
def keyCall : KeyCall → KeyProg Unit
  | .issue orgId machineUserId name expiresAt => issueApiKey orgId machineUserId name expiresAt
  | .rotate orgId machineUserId keyId overlapMinutes =>
    MachineUsers.rotate orgId machineUserId keyId overlapMinutes
  | .emergencyRevoke orgId machineUserId keyId =>
    MachineUsers.emergencyRevoke orgId machineUserId keyId
  | .revoke machineUserId keyId => MachineUsers.revoke machineUserId keyId
  | .deactivate machineUserId => MachineUsers.deactivate machineUserId
  | .overlapRevoke keyId => MachineUsers.overlapRevoke keyId
  | .revokeOrgKeys orgId => MachineUsers.revokeOrgKeys orgId
  | .exchange keyHash => MachineUsers.exchange keyHash
  | .verify claims => verifyMachineRequest claims

/-- The committed tables with what has been answered. -/
abbrev KeyWorld := World KeyDb KeyLock KeyAnswer

/-- A postcondition. -/
abbrev KeyPost (α : Type) := Post KeyDb KeyLock KeyAnswer α

/-- The end of a transaction. -/
abbrev KeyEnd := Event KeyDb KeyLock KeyAnswer

/-- Machine users whose ids are the primary keys drawn so far. -/
structure Principals where
  users : List MachineUser
  seq : ℕ
  nodup : (users.map MachineUser.id).Nodup
  drawn : ∀ u ∈ users, u.id < seq

/-- A database with machine users and no keys. -/
def Principals.world (p : Principals) (clock : ℕ) : KeyWorld := ⟨⟨p.users, []⟩, p.seq, clock, []⟩

/-- The database with the sessions of the key code. -/
def keySessions (p : Principals) (clock : ℕ) :
    Run.System (State KeyDb KeyLock KeyAnswer) (Label KeyCall) :=
  sessions keyCall (p.world clock)

end ProjectVault.MachineUsers
