import ProjectVault.Credentials.Schema
import ProjectVault.Db.Statements
import ProjectVault.MachineUsers.Keys
import ProjectVault.Shares.Schema

/-!
The lifecycle of a project, statement by statement (`projects/project-lifecycle.ts`,
`projects/archive-guards.ts`, the archive, unarchive, delete and restore handlers of
`projects/routes.ts`, `workers/project-purge.ts`), with what creates rotations, machine keys and
shares (`rotation/service.ts`, `machine-users/routes.ts`, `credential-shares/service.ts`).

Whether a caller may see and change a project, what else a request is refused for, and whether the
statements at the end of a handler throw (the audit write, a foreign key that is gone) is left open.
-/

namespace ProjectVault.Projects

open Db MachineUsers

/-! ### State -/

/-- A row of `projects`. -/
structure Project where
  id : ℕ
  archivedAt : Option ℕ
  deletedAt : Option ℕ
  purgeAfter : Option ℕ
  purgedAt : Option ℕ

/-- A row of `credentials`. -/
structure ProjectCredential where
  id : ℕ
  projectId : ℕ
  deriving DecidableEq

/-- A row of `rotations`. -/
structure ProjectRotation where
  id : ℕ
  projectId : ℕ
  credentialId : ℕ
  status : RotationStatus
  deriving DecidableEq

/-- A row of `credential_shares`. -/
structure ProjectShare where
  id : ℕ
  credentialId : ℕ
  status : Shares.ShareStatus
  revokedAt : Option ℕ
  deriving DecidableEq

/-- The tables. -/
structure ProjectDb where
  projects : List Project
  machineUsers : List MachineUser
  keys : List ApiKey
  credentials : List ProjectCredential
  rotations : List ProjectRotation
  shares : List ProjectShare

/-- The locks: rows, and the advisory lock of a credential. -/
inductive ProjectLock where
  | project (id : ℕ)
  | key (id : ℕ)
  | credential (id : ℕ)
  | rotation (id : ℕ)
  | share (id : ℕ)
  | credentialScope (credentialId : ℕ)
  deriving DecidableEq

/-- What a transaction answers. -/
inductive ProjectAnswer where
  | projectNotFound | insufficientRole | alreadyArchived | notArchived | projectArchived
  | activeRotations | activeShares | activeMachineUserKeys | alreadyDeleted | notDeleted | notDue
  | refused | failed
  | archived (id : ℕ)
  | unarchived (id : ℕ)
  /-- A delete, with the keys and the shares its statements have looked at. -/
  | deleted (id : ℕ) (keys : List ApiKey) (shares : List ProjectShare)
  | restored (id : ℕ)
  /-- A purge of a job that was started at the time `now`. -/
  | purged (id now : ℕ)
  | initiated (id rotationId : ℕ)
  | issued (id keyId : ℕ)
  | shared (id shareId : ℕ)

/-- Code over the tables. -/
abbrev ProjectProg (α : Type) := Prog ProjectDb ProjectLock ProjectAnswer α

/-- `projects`. -/
def projectTable : Db.Table ProjectDb ProjectLock Project where
  rows := ProjectDb.projects
  modify f d := { d with projects := f d.projects }
  rows_modify _ _ := rfl
  id := Project.id
  lock := .project
  lock_injective _ _ h := by simpa using h

/-- `api_keys`. -/
def keyTable : Db.Table ProjectDb ProjectLock ApiKey where
  rows := ProjectDb.keys
  modify f d := { d with keys := f d.keys }
  rows_modify _ _ := rfl
  id := ApiKey.id
  lock := .key
  lock_injective _ _ h := by simpa using h

/-- `credentials`. -/
def credentialTable : Db.Table ProjectDb ProjectLock ProjectCredential where
  rows := ProjectDb.credentials
  modify f d := { d with credentials := f d.credentials }
  rows_modify _ _ := rfl
  id := ProjectCredential.id
  lock := .credential
  lock_injective _ _ h := by simpa using h

/-- `rotations`. -/
def rotationTable : Db.Table ProjectDb ProjectLock ProjectRotation where
  rows := ProjectDb.rotations
  modify f d := { d with rotations := f d.rotations }
  rows_modify _ _ := rfl
  id := ProjectRotation.id
  lock := .rotation
  lock_injective _ _ h := by simpa using h

/-- `credential_shares`. -/
def shareTable : Db.Table ProjectDb ProjectLock ProjectShare where
  rows := ProjectDb.shares
  modify f d := { d with shares := f d.shares }
  rows_modify _ _ := rfl
  id := ProjectShare.id
  lock := .share
  lock_injective _ _ h := by simpa using h

/-! ### Guards -/

/-- `PROJECT_DELETE_GRACE_DAYS`. -/
def projectDeleteGraceDays : ℕ := 30

/-- `purgeAfterFor`. -/
def purgeAfterFor (deletedAt : ℕ) : ℕ := deletedAt + projectDeleteGraceDays * 86400000

/-- `isProjectDeleted`. -/
def isProjectDeleted (d : ProjectDb) (projectId : ℕ) : Bool :=
  (projectTable.find d projectId).any fun p => p.deletedAt.isSome

/-- `BLOCKING_ROTATION_STATUSES`. -/
def blockingRotationStatuses : List RotationStatus :=
  [.inProgress, .staged, .promoted, .staleRecovery]

/-- `findBlockingRotationIds`. -/
def findBlockingRotationIds (d : ProjectDb) (projectId : ℕ) : List ℕ :=
  (d.rotations.filter fun r =>
    r.projectId = projectId && r.status ∈ blockingRotationStatuses).map ProjectRotation.id

/-- The API keys of the machine users of a project. -/
def ProjectDb.keysOf (d : ProjectDb) (projectId : ℕ) : List ApiKey :=
  d.keys.filter fun k => d.machineUsers.any fun u =>
    u.id = k.machineUserId && u.projectId = projectId

/-- Not revoked and not past `expiresAt`. -/
def isActiveKey (k : ApiKey) (now : ℕ) : Bool := k.revokedAt.isNone && k.unexpired now

/-- `activeMachineUserKeysQuery`. -/
def activeMachineUserKeysQuery (d : ProjectDb) (projectId now : ℕ) : List ApiKey :=
  (d.keysOf projectId).filter fun k => isActiveKey k now

/-- The shares of the credentials of a project. -/
def ProjectDb.sharesOf (d : ProjectDb) (projectId : ℕ) : List ProjectShare :=
  d.shares.filter fun s => d.credentials.any fun c =>
    c.id = s.credentialId && c.projectId = projectId

/-- An `active` share. -/
def ProjectShare.isActive (s : ProjectShare) : Bool := s.status = .active

/-- `findBlockingShareIds`. -/
def findBlockingShareIds (d : ProjectDb) (projectId : ℕ) : List ℕ :=
  ((d.sharesOf projectId).filter ProjectShare.isActive).map ProjectShare.id

/-! ### Statements -/

/-- `new Date()`. -/
def dateNow : ProjectProg ℕ := .query fun c => c.clock

/-- The end of a handler: it may throw. -/
def audited (answer : ProjectAnswer) : ProjectProg Unit := do
  if ← .either then .rollbackTx .failed else .commitTx answer

/-- `rejectIfProjectDeleted`: whether the request has been answered. -/
def rejectIfProjectDeleted (projectId : ℕ) : ProjectProg Bool :=
  .query fun c => isProjectDeleted c.view projectId

/-- `SELECT … FROM projects WHERE id = … FOR UPDATE`. -/
def lockProject (projectId : ℕ) : ProjectProg (Option Project) :=
  projectTable.selectForUpdate projectId fun _ _ => true

/-- `lockCredentialInProject`. -/
def lockCredentialInProject (credentialId projectId : ℕ) : ProjectProg (Option ProjectCredential) :=
  credentialTable.selectForUpdate credentialId fun _ c => c.projectId = projectId

/-- `credentialExistsInProject`: the row. -/
def credentialExistsInProject (credentialId projectId : ℕ) :
    ProjectProg (Option ProjectCredential) :=
  .query fun c => c.view.credentials.find? fun r =>
    r.id = credentialId && r.projectId = projectId

/-- `loadOwnedProjectForArchiveToggle`: the locked row, or the answer that was sent. -/
def loadOwnedProjectForArchiveToggle (projectId : ℕ) :
    ProjectProg (Except ProjectAnswer Project) := do
  if ← .either then return .error .projectNotFound
  match ← lockProject projectId with
  | none => return .error .projectNotFound
  | some project =>
    if ← .either then return .error .insufficientRole
    return .ok project

/-- The shares of a project as revoked rows. -/
def revokeShares (now : ℕ) (found : List ProjectShare) (rows : List ProjectShare) :
    List ProjectShare :=
  updateWhere (fun s => s.isActive && found.any fun f => f.id = s.id)
    (fun s => { s with status := .revoked, revokedAt := some now }) rows

/-- `revokeProjectShares`: the shares of the project that were there. -/
def revokeProjectShares (projectId now : ℕ) : ProjectProg (List ProjectShare) :=
  .update
    (fun c => ((c.view.sharesOf projectId).filter ProjectShare.isActive).map fun s => .share s.id)
    (fun c d => { d with shares := revokeShares now (c.view.sharesOf projectId) d.shares })
    fun c => c.view.sharesOf projectId

/-- `markProjectDeleted`. -/
def markProjectDeleted (projectId now : ℕ) (wasArchived : Bool) : ProjectProg (Option Project) :=
  projectTable.updateRow projectId (fun _ p => p.deletedAt.isNone) fun _ p =>
    { p with
      deletedAt := some now, purgeAfter := some (purgeAfterFor now)
      archivedAt := if wasArchived then p.archivedAt else some now }

/-- `markProjectRestored`. -/
def markProjectRestored (projectId : ℕ) : ProjectProg (Option Project) :=
  projectTable.updateRow projectId (fun _ p => p.deletedAt.isSome && p.purgedAt.isNone) fun _ p =>
    { p with deletedAt := none, purgeAfter := none }

/-- A project whose grace period has ended. -/
def isPurgeDue (p : Project) (now : ℕ) : Bool :=
  p.deletedAt.isSome && p.purgedAt.isNone && p.purgeAfter.any fun t => t ≤ now

/-- A `DELETE` of the rows a statement finds. -/
def deleteFound (rows : ProjectDb → ProjectDb → ProjectDb) : ProjectProg Unit :=
  .update (fun _ => []) (fun c d => rows c.view d) fun _ => ()

/-- The rotations of a project are deleted. -/
def deleteRotations (projectId : ℕ) : ProjectProg Unit :=
  deleteFound fun found d =>
    { d with rotations := d.rotations.filter fun r =>
        !(r.projectId = projectId && r ∈ found.rotations) }

/-- The machine users of a project are deleted with their keys. -/
def deleteMachineUsers (projectId : ℕ) : ProjectProg Unit :=
  deleteFound fun found d =>
    { d with
      keys := d.keys.filter fun k => k ∉ found.keysOf projectId
      machineUsers := d.machineUsers.filter fun u =>
        !(u.projectId = projectId && u ∈ found.machineUsers) }

/-- The credentials of a project are deleted with their shares. -/
def deleteCredentials (projectId : ℕ) : ProjectProg Unit :=
  deleteFound fun found d =>
    { d with
      shares := d.shares.filter fun s => s ∉ found.sharesOf projectId
      credentials := d.credentials.filter fun c =>
        !(c.projectId = projectId && c ∈ found.credentials) }

/-- `eraseProjectData`: whether the project was due. -/
def eraseProjectData (projectId now : ℕ) : ProjectProg Bool := do
  match ← projectTable.selectForUpdate projectId fun _ p => isPurgeDue p now with
  | none => return false
  | some due => do
      deleteRotations due.id
      deleteMachineUsers due.id
      deleteCredentials due.id
      let _ ← projectTable.updateRow due.id (fun _ _ => true) fun _ p =>
        { p with purgedAt := some now }
      return true

/-! ### Handlers -/

/-- `POST /:projectId/archive`. -/
def archive (projectId : ℕ) : ProjectProg Unit := do
  .beginTx
  if ← rejectIfProjectDeleted projectId then .commitTx .projectNotFound
  else match ← loadOwnedProjectForArchiveToggle projectId with
  | .error answer => .commitTx answer
  | .ok project =>
    if project.archivedAt.isSome then .commitTx .alreadyArchived
    else do
      let rotationIds ← .query fun c => findBlockingRotationIds c.view projectId
      if rotationIds ≠ [] then .commitTx .activeRotations
      else do
        let shareIds ← .query fun c => findBlockingShareIds c.view projectId
        if shareIds ≠ [] then .commitTx .activeShares
        else do
          let keys ← .query fun c => activeMachineUserKeysQuery c.view projectId c.clock
          if keys ≠ [] then .commitTx .activeMachineUserKeys
          else do
            let now ← dateNow
            match ← projectTable.updateRow projectId (fun _ p => p.archivedAt.isNone)
                fun _ p => { p with archivedAt := some now } with
            | none => .commitTx .alreadyArchived
            | some archived => audited (.archived archived.id)

/-- `POST /:projectId/unarchive`. -/
def unarchive (projectId : ℕ) : ProjectProg Unit := do
  .beginTx
  if ← rejectIfProjectDeleted projectId then .commitTx .projectNotFound
  else match ← loadOwnedProjectForArchiveToggle projectId with
  | .error answer => .commitTx answer
  | .ok project =>
    if project.archivedAt.isNone then .commitTx .notArchived
    else do
      match ← projectTable.updateRow projectId (fun _ p => p.archivedAt.isSome)
          fun _ p => { p with archivedAt := none } with
      | none => .commitTx .notArchived
      | some restored => audited (.unarchived restored.id)

/-- `DELETE /:projectId`. -/
def delete (projectId : ℕ) : ProjectProg Unit := do
  .beginTx
  if ← rejectIfProjectDeleted projectId then .commitTx .projectNotFound
  else match ← loadOwnedProjectForArchiveToggle projectId with
  | .error answer => .commitTx answer
  | .ok project => do
      let rotationIds ← .query fun c => findBlockingRotationIds c.view projectId
      if rotationIds ≠ [] then .commitTx .activeRotations
      else do
        let today ← dateNow
        let (found, keys) ← .query fun c =>
          (c.view.keysOf projectId, activeMachineUserKeysQuery c.view projectId today)
        if keys ≠ [] then .commitTx .activeMachineUserKeys
        else do
          let now ← dateNow
          match ← markProjectDeleted projectId now project.archivedAt.isSome with
          | none => .commitTx .alreadyDeleted
          | some deleted => do
              let revokedAt ← dateNow
              let shares ← revokeProjectShares projectId revokedAt
              audited (.deleted deleted.id found shares)

/-- `POST /:projectId/restore`, a route without the deleted gate. -/
def restore (projectId : ℕ) : ProjectProg Unit := do
  .beginTx
  match ← loadOwnedProjectForArchiveToggle projectId with
  | .error answer => .commitTx answer
  | .ok project =>
    if project.purgedAt.isSome then .commitTx .projectNotFound
    else if project.deletedAt.isNone then .commitTx .notDeleted
    else do
      match ← markProjectRestored projectId with
      | none => .commitTx .notDeleted
      | some restored => audited (.restored restored.id)

/-- One project of the purge job, which finds the projects that are due in a transaction before. -/
def purge (projectId : ℕ) : ProjectProg Unit := do
  let now ← dateNow
  let due ← .query fun c => (projectTable.find c.view projectId).any fun p => isPurgeDue p now
  if due then
    .beginTx
    match ← .query fun c => projectTable.find c.view projectId with
    | none => .commitTx .notDue
    | some row =>
      if ← eraseProjectData row.id now then audited (.purged row.id now)
      else .commitTx .notDue
  else pure ()

/-- `POST /:projectId/credentials/:credentialId/rotations` with `initiateRotation`. -/
def initiateRotation (projectId credentialId : ℕ) : ProjectProg Unit := do
  .beginTx
  if ← rejectIfProjectDeleted projectId then .commitTx .projectNotFound
  else if !(← .tryLock (.credentialScope credentialId)) then .commitTx .refused
  else if ← .either then .commitTx .refused
  else match ← lockProject projectId with
  | none => .commitTx .projectNotFound
  | some project =>
    if project.archivedAt.isSome then .commitTx .projectArchived
    else match ← lockCredentialInProject credentialId projectId with
    | none => .commitTx .refused
    | some credential =>
      if ← .either then .commitTx .refused
      else do
        let rotation ← rotationTable.insertRow fun c =>
          { id := c.seq, projectId := project.id, credentialId := credential.id
            status := .staged }
        audited (.initiated project.id rotation.id)

/-- `findMachineUserById`: not of a deleted project. -/
def findMachineUserById (machineUserId : ℕ) : ProjectProg (Option MachineUser) :=
  .query fun c => c.view.machineUsers.find? fun u =>
    u.id = machineUserId && !u.hostManaged &&
      c.view.projects.any fun p => p.id = u.projectId && p.deletedAt.isNone

/-- `POST /machine-users/:machineUserId/api-keys`, a route without the deleted gate. -/
def issueApiKey (orgId machineUserId : ℕ) (name : String) (expiresAt : Option ℕ) :
    ProjectProg Unit := do
  .beginTx
  match ← findMachineUserById machineUserId with
  | none => .commitTx .refused
  | some machineUser =>
    if machineUser.deactivatedAt.isSome then .commitTx .refused
    else do
      let newKey ← keyTable.insertRow fun c =>
        { id := c.seq, orgId, machineUserId := machineUser.id, name, keyHash := c.seq, expiresAt
          lastUsedAt := none, createdAt := c.start, revokedAt := none
          overlapExpiresAt := none, rotatedFromKeyId := none }
      audited (.issued machineUser.projectId newKey.id)

/-- The creation of a share with `preflightCredentialForShareCreation`. -/
def createCredentialShare (projectId credentialId : ℕ) : ProjectProg Unit := do
  .beginTx
  if ← rejectIfProjectDeleted projectId then .commitTx .projectNotFound
  else match ← credentialExistsInProject credentialId projectId with
  | none => .commitTx .refused
  | some credential =>
    if ← rejectIfProjectDeleted projectId then .commitTx .refused
    else if ← .either then .commitTx .refused
    else do
      let share ← shareTable.insertRow fun c =>
        { id := c.seq, credentialId := credential.id, status := .active, revokedAt := none }
      audited (.shared projectId share.id)

/-! ### Calls -/

/-- The calls. -/
inductive ProjectCall where
  | archive (projectId : ℕ)
  | unarchive (projectId : ℕ)
  | delete (projectId : ℕ)
  | restore (projectId : ℕ)
  | purge (projectId : ℕ)
  | initiateRotation (projectId credentialId : ℕ)
  | issueApiKey (orgId machineUserId : ℕ) (name : String) (expiresAt : Option ℕ)
  | createCredentialShare (projectId credentialId : ℕ)

/-- The code of a call. -/
def projectCall : ProjectCall → ProjectProg Unit
  | .archive projectId => Projects.archive projectId
  | .unarchive projectId => Projects.unarchive projectId
  | .delete projectId => Projects.delete projectId
  | .restore projectId => Projects.restore projectId
  | .purge projectId => Projects.purge projectId
  | .initiateRotation projectId credentialId => Projects.initiateRotation projectId credentialId
  | .issueApiKey orgId machineUserId name expiresAt =>
    Projects.issueApiKey orgId machineUserId name expiresAt
  | .createCredentialShare projectId credentialId =>
    Projects.createCredentialShare projectId credentialId

/-- The committed tables with what has been answered. -/
abbrev ProjectWorld := World ProjectDb ProjectLock ProjectAnswer

/-- The end of a transaction. -/
abbrev ProjectEnd := Event ProjectDb ProjectLock ProjectAnswer

end ProjectVault.Projects
