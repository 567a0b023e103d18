import ProjectVault.Db.Savepoint
import ProjectVault.Db.Shared
import ProjectVault.Projects.Lifecycle
import ProjectVault.Rotation.Initiate

/-!
Deactivating and removing a user who owns rotations, statement by statement (`org/deactivation.ts`,
the deactivate and remove handlers of `org/routes.ts`), with `initiateRotation` and
`abandonRotation` of `rotation/service.ts`.

What a request is refused for before it locks a row, the sole-owner guard, the project and the
credential of a rotation and its preflight, and whether an audit write throws is left open.
-/

namespace ProjectVault.Org

open Db Projects

/-! ### State -/

/-- `OrgRole`. -/
inductive OrgRole where
  | owner | admin | member | viewer

/-- `roleRank`. -/
def roleRank : OrgRole → ℕ
  | .owner => 3
  | .admin => 2
  | .member => 1
  | .viewer => 0

/-- The values of `org_memberships.status`. -/
inductive MemberStatus where
  | active | deactivated
  deriving DecidableEq

/-- A row of `org_memberships`. -/
structure OrgMember where
  userId : ℕ
  role : OrgRole
  status : MemberStatus

/-- A row of `project_memberships`. -/
structure ProjectMembership where
  projectId : ℕ
  userId : ℕ

/-- A row of `rotations`. -/
structure OwnedRotation where
  id : ℕ
  credentialId : ℕ
  newVersionId : ℕ
  previousVersionId : ℕ
  status : RotationStatus
  version : ℕ
  initiatedBy : Option ℕ
  ownerUserId : Option ℕ
  initiatedAt : ℕ

/-- A row of `credential_versions`. -/
structure StagedVersion where
  id : ℕ
  credentialId : ℕ
  versionNumber : ℕ
  rotationLockedAt : Option ℕ
  abandonedAt : Option ℕ
  purgedAt : Option ℕ

/-- A row of `rotation_checklist_items`. -/
structure StagedItem where
  id : ℕ
  rotationId : ℕ
  dependencyId : ℕ

/-- The rows of an organization. -/
structure HandlingDb where
  members : List OrgMember
  projectMembers : List ProjectMembership
  rotations : List OwnedRotation
  versions : List StagedVersion
  items : List StagedItem
  dependencies : List CredentialDependency

/-- The locks: the modes of a membership row, other rows, and the advisory locks. -/
inductive HandlingLock (readers : ℕ) where
  | member (userId : ℕ) (mode : Option (Fin readers))
  | rotation (id : ℕ)
  | version (id : ℕ)
  | item (id : ℕ)
  | credentialScope (credentialId : ℕ)
  | rotationScope (rotationId : ℕ)
  deriving DecidableEq

/-- `rotationHandling` of the body of a request. -/
inductive RotationHandling where
  | block
  | abandon
  | transfer (toUserId : ℕ)
  deriving DecidableEq

/-- The two routes that take a user out of an organization. -/
inductive Leave where
  | deactivate | remove
  deriving DecidableEq

/-- `ClearedRotationHandling`. -/
structure ClearedRotationHandling where
  abandonedRotationIds : List ℕ
  heldRotationIds : List ℕ
  transferredRotationIds : List ℕ
  deriving DecidableEq

/-- What a transaction answers. -/
inductive HandlingAnswer where
  | userNotFound | insufficientRole | alreadyDeactivated | invalidTransferTarget | refused | failed
  | blocked (rotationIds : List ℕ)
  | busy (rotationCount : ℕ)
  | left (leave : Leave) (userId : ℕ) (handling : RotationHandling)
      (rotations : ClearedRotationHandling)
  | initiatorInactive
  | rotationConflict (rotationId : Option ℕ)
  | initiated (rotationId : ℕ)
  deriving DecidableEq

section Statements

variable {readers : ℕ}

variable (readers) in
/-- Code over the rows. -/
abbrev HandlingProg (α : Type) := Prog HandlingDb (HandlingLock readers) HandlingAnswer α

variable (readers) in
/-- `org_memberships`, keyed by the user. -/
def memberTable : SharedTable HandlingDb (HandlingLock readers) OrgMember readers where
  rows := HandlingDb.members
  modify f d := { d with members := f d.members }
  id := OrgMember.userId
  lock := .member

variable (readers) in
/-- `rotations`. -/
def rotationTable : Db.Table HandlingDb (HandlingLock readers) OwnedRotation where
  rows := HandlingDb.rotations
  modify f d := { d with rotations := f d.rotations }
  rows_modify _ _ := rfl
  id := OwnedRotation.id
  lock := .rotation
  lock_injective _ _ h := by simpa using h

variable (readers) in
/-- `credential_versions`. -/
def versionTable : Db.Table HandlingDb (HandlingLock readers) StagedVersion where
  rows := HandlingDb.versions
  modify f d := { d with versions := f d.versions }
  rows_modify _ _ := rfl
  id := StagedVersion.id
  lock := .version
  lock_injective _ _ h := by simpa using h

variable (readers) in
/-- `rotation_checklist_items`. -/
def itemTable : Db.Table HandlingDb (HandlingLock readers) StagedItem where
  rows := HandlingDb.items
  modify f d := { d with items := f d.items }
  rows_modify _ _ := rfl
  id := StagedItem.id
  lock := .item
  lock_injective _ _ h := by simpa using h

/-! ### Rotations of a user -/

/-- `COALESCE(owner_user_id, initiated_by)`. -/
def OwnedRotation.effectiveOwner (r : OwnedRotation) : Option ℕ := r.ownerUserId.or r.initiatedBy

/-- A rotation with a blocking status that a user effectively owns. -/
def OwnedRotation.blocks (r : OwnedRotation) (userId : ℕ) : Bool :=
  r.effectiveOwner = some userId && r.status ∈ blockingRotationStatuses

/-- `ABANDONABLE_ROTATION_STATUSES`. -/
def abandonableRotationStatuses : List RotationStatus := [.staged, .staleRecovery]

/-- `HELD_ROTATION_STATUSES`. -/
def heldRotationStatuses : List RotationStatus := [.promoted, .inProgress]

/-- `TRANSFERRABLE_ROTATION_STATUSES`. -/
def transferrableRotationStatuses : List RotationStatus :=
  [.staged, .promoted, .staleRecovery, .inProgress]

/-- `findBlockingRotationsForUser`. -/
def findBlockingRotationsForUser (userId : ℕ) : HandlingProg readers (List OwnedRotation) :=
  .query fun c => sortAsc (fun r => toLex (r.initiatedAt, r.id))
    (c.view.rotations.filter fun r => r.blocks userId)

/-- `partitionBlockingRotations`: what to abandon and what to hold, unless it throws. -/
def partitionBlockingRotations (rows : List OwnedRotation) :
    Option (List OwnedRotation × List OwnedRotation) :=
  if rows.all fun r => r.status ∈ abandonableRotationStatuses || r.status ∈ heldRotationStatuses then
    some (rows.filter fun r => r.status ∈ abandonableRotationStatuses,
      rows.filter fun r => r.status ∈ heldRotationStatuses)
  else none

/-- `assertTransferableRotations`. -/
def assertTransferableRotations (rows : List OwnedRotation) : Option (List OwnedRotation) :=
  if rows.all fun r => r.status ∈ transferrableRotationStatuses then some rows else none

/-! ### Memberships -/

/-- `lockTransferMembershipsInOrder`. -/
def lockTransferMembershipsInOrder (reader : Fin readers) (deactivatedUserId transferToUserId : ℕ) :
    HandlingProg readers Unit := do
  if deactivatedUserId = transferToUserId then return ()
  else if deactivatedUserId < transferToUserId then do
    let _ ← (memberTable readers).selectForUpdate deactivatedUserId
    let _ ← (memberTable readers).selectForShare reader transferToUserId
  else do
    let _ ← (memberTable readers).selectForShare reader transferToUserId
    let _ ← (memberTable readers).selectForUpdate deactivatedUserId

/-- The locks of a transfer, before that of the target. -/
def lockForTransfer (reader : Fin readers) (userId : ℕ) :
    RotationHandling → HandlingProg readers Unit
  | .transfer toUserId => lockTransferMembershipsInOrder reader userId toUserId
  | _ => return ()

/-- `lockTargetMembership`. -/
def lockTargetMembership (reader : Fin readers) (userId : ℕ) (handling : RotationHandling) :
    HandlingProg readers (Option OrgMember) := do
  lockForTransfer reader userId handling
  (memberTable readers).selectForUpdate userId

/-- An active member who may act on rotations. -/
def OrgMember.isEligible (m : OrgMember) : Bool :=
  m.status = .active && roleRank .admin ≤ roleRank m.role

/-- `validateTransferTarget`. -/
def validateTransferTarget (reader : Fin readers) (transferToUserId deactivatedUserId : ℕ) :
    HandlingProg readers Bool := do
  if transferToUserId = deactivatedUserId then return false
  else do
    let membership ← (memberTable readers).selectForShare reader transferToUserId
    return membership.any OrgMember.isEligible

/-- `lockActiveInitiatorMembership`. -/
def lockActiveInitiatorMembership (reader : Fin readers) (userId : ℕ) :
    HandlingProg readers Bool := do
  let membership ← (memberTable readers).selectForShare reader userId
  return membership.any fun m => m.status = .active

/-- `isUsableTarget`: the answer that is sent when the target may not be acted on. -/
def isUsableTarget (callerRole : OrgRole) : Option OrgMember → Except HandlingAnswer OrgMember
  | none => .error .userNotFound
  | some target =>
    if roleRank target.role < roleRank callerRole then .ok target else .error .insufficientRole

/-! ### The guard -/

/-- Why the work of a savepoint fails. -/
inductive HandlingError where
  /-- `RotationHandlingConflictError`. -/
  | conflict
  /-- The audit write, which fails closed. -/
  | threw

/-- An audit row: it may throw. -/
def auditOrThrow : HandlingProg readers (Except HandlingError Unit) := do
  if ← .either then return .error .threw else return .ok ()

/-- `tryLockAll`. -/
def tryLockAll : List ℕ → HandlingProg readers Bool
  | [] => return true
  | n :: ns => do
      if ← .tryLock (.rotationScope n) then tryLockAll ns else return false

/-- `acquireAndLoadAbandonableRotation`, `ok` only. -/
def acquireAndLoadAbandonableRotation (rotationId : ℕ) :
    HandlingProg readers (Option OwnedRotation) := do
  if ← .tryLock (.rotationScope rotationId) then
    .query fun c => ((rotationTable readers).find c.view rotationId).filter fun r =>
      r.status = .staleRecovery || r.status = .staged
  else return none

/-- `casTransitionRotation` to `abandoned`. -/
def abandonStatus (rotation : OwnedRotation) : HandlingProg readers (Option OwnedRotation) :=
  (rotationTable readers).updateRow rotation.id
    (fun _ r => r.version = rotation.version && r.status = rotation.status)
    fun _ r => { r with status := .abandoned, version := rotation.version + 1 }

/-- `abandonRotation`: whether the outcome is `abandoned`. -/
def abandonRotation (rotationId : ℕ) : HandlingProg readers Bool := do
  match ← acquireAndLoadAbandonableRotation rotationId with
  | none => return false
  | some rotation =>
    match ← abandonStatus rotation with
    | none => return false
    | some updated => do
        let now ← .query fun c => c.clock
        let _ ← (versionTable readers).updateRow updated.newVersionId (fun _ _ => true)
          fun _ v => { v with abandonedAt := some now }
        let _ ← (versionTable readers).updateRow updated.previousVersionId (fun _ _ => true)
          fun _ v => { v with rotationLockedAt := none }
        return true

/-- `abandonAndAudit`, one rotation after another. -/
def abandonAll : List ℕ → HandlingProg readers (Except HandlingError Unit)
  | [] => return .ok ()
  | n :: ns => do
      if ← abandonRotation n then
        match ← auditOrThrow with
        | .error e => return .error e
        | .ok () => abandonAll ns
      else return .error .conflict

/-- The audit rows, one after another. -/
def auditAll : List ℕ → HandlingProg readers (Except HandlingError Unit)
  | [] => return .ok ()
  | _ :: ns => do
      match ← auditOrThrow with
      | .error e => return .error e
      | .ok () => auditAll ns

/-- The rotations that the update of `transferAndAudit` finds. -/
def movedRotations (d : HandlingDb) (ids : List ℕ) (userId : ℕ) : List OwnedRotation :=
  d.rotations.filter fun r => r.id ∈ ids && r.blocks userId

/-- The update of `transferAndAudit`: the rotations that were moved. -/
def moveRotations (ids : List ℕ) (userId toUserId : ℕ) : HandlingProg readers (List ℕ) :=
  .update (fun c => (movedRotations c.view ids userId).map fun r => .rotation r.id)
    (fun c => (rotationTable readers).modify
      (updateWhere (fun r => r.id ∈ (movedRotations c.view ids userId).map OwnedRotation.id)
        fun r => { r with ownerUserId := some toUserId }))
    fun c => (movedRotations c.view ids userId).map OwnedRotation.id

/-- `transferAndAudit`. -/
def transferAndAudit (ids : List ℕ) (userId toUserId : ℕ) :
    HandlingProg readers (Except HandlingError Unit) := do
  let moved ← moveRotations ids userId toUserId
  if moved.length ≠ ids.length then return .error .conflict
  else auditAll ids

/-- `runInSavepoint`, with what follows a failure. -/
def runInSavepoint (work : HandlingProg readers (Except HandlingError Unit)) (rotationCount : ℕ)
    (cleared : ClearedRotationHandling) :
    HandlingProg readers (Except HandlingAnswer ClearedRotationHandling) := do
  match ← work.savepoint with
  | .error .conflict => return .error (.busy rotationCount)
  | .error .threw => return .error .failed
  | .ok () => return .ok cleared

/-- `transferRotations`. -/
def transferRotations (rows : List OwnedRotation) (userId toUserId : ℕ) :
    HandlingProg readers (Except HandlingAnswer ClearedRotationHandling) := do
  if rows = [] then return .ok ⟨[], [], []⟩
  else match assertTransferableRotations rows with
  | none => return .error .failed
  | some transferable => do
      let ids := transferable.map OwnedRotation.id
      if ← tryLockAll ids then
        runInSavepoint (transferAndAudit ids userId toUserId) rows.length ⟨[], [], ids⟩
      else return .error (.busy rows.length)

/-- The `abandon` branch of `enforceRotationHandling`. -/
def abandonRotations (rows : List OwnedRotation) :
    HandlingProg readers (Except HandlingAnswer ClearedRotationHandling) := do
  match partitionBlockingRotations rows with
  | none => return .error .failed
  | some (abandonable, held) => do
      let ids := abandonable.map OwnedRotation.id
      if ← tryLockAll ids then
        runInSavepoint (abandonAll ids) rows.length ⟨ids, held.map OwnedRotation.id, []⟩
      else return .error (.busy rows.length)

/-- `enforceRotationHandling`: the answer that is sent, or what has been done. -/
def enforceRotationHandling (userId : ℕ) (handling : RotationHandling) :
    HandlingProg readers (Except HandlingAnswer ClearedRotationHandling) := do
  let rows ← findBlockingRotationsForUser userId
  match handling with
  | .transfer toUserId => transferRotations rows userId toUserId
  | .block =>
    if rows = [] then return .ok ⟨[], [], []⟩
    else return .error (.blocked (rows.map OwnedRotation.id))
  | .abandon => if rows = [] then return .ok ⟨[], [], []⟩ else abandonRotations rows

/-- `guardTargetRotations`. -/
def guardTargetRotations (reader : Fin readers) (userId : ℕ) (handling : RotationHandling) :
    HandlingProg readers (Except HandlingAnswer ClearedRotationHandling) := do
  match handling with
  | .transfer toUserId =>
    if ← validateTransferTarget reader toUserId userId then
      enforceRotationHandling userId handling
    else return .error .invalidTransferTarget
  | _ => enforceRotationHandling userId handling

/-! ### Handlers -/

/-- The end of a handler: the audit write may throw. -/
def audited (answer : HandlingAnswer) : HandlingProg readers Unit := do
  if ← .either then .rollbackTx .failed else .commitTx answer

/-- A refusal; an error that was thrown rolls the transaction back. -/
def reject (answer : HandlingAnswer) : HandlingProg readers Unit :=
  if answer = .failed then .rollbackTx .failed else .commitTx answer

/-- The status checks of the two handlers before the guard: the answer that is sent. -/
def rejectsLeave (leave : Leave) (target : OrgMember) : HandlingProg readers (Option HandlingAnswer) :=
  match leave with
  | .deactivate =>
    return if target.status = .deactivated then some .alreadyDeactivated else none
  | .remove => do
      if ← .either then return some .refused else return none

/-- The update of the membership: `status = 'deactivated'`, or `removeUserFromOrgMemberships`. -/
def leaveMembership (leave : Leave) (userId : ℕ) : HandlingProg readers Unit :=
  match leave with
  | .deactivate => (memberTable readers).updateRow userId fun m => { m with status := .deactivated }
  | .remove => do
      .update (fun _ => []) (fun _ d =>
        { d with projectMembers := d.projectMembers.filter fun m => m.userId ≠ userId }) fun _ => ()
      (memberTable readers).deleteRow userId

/-- `POST /users/:userId/deactivate` and `DELETE /users/:userId`. -/
def leaveOrg (leave : Leave) (callerRole : OrgRole) (reader : Fin readers) (userId : ℕ)
    (handling : RotationHandling) : HandlingProg readers Unit := do
  .beginTx
  let target? ← lockTargetMembership reader userId handling
  match isUsableTarget callerRole target? with
  | .error answer => reject answer
  | .ok target => do
      match ← rejectsLeave leave target with
      | some answer => reject answer
      | none => do
          match ← guardTargetRotations reader userId handling with
          | .error answer => reject answer
          | .ok cleared => do
              leaveMembership leave userId
              audited (.left leave userId handling cleared)

/-- `findInProgressRotationId`. -/
def findInProgressRotationId (d : HandlingDb) (credentialId : ℕ) : Option ℕ :=
  (d.rotations.find? fun r => r.credentialId = credentialId && r.status ∈ activeRotationStatuses).map
    OwnedRotation.id

/-- The version that `lockCurrentNonPurgedVersion` selects. -/
def currentNonPurgedVersion (d : HandlingDb) (credentialId : ℕ) : Option StagedVersion :=
  (d.versions.filter fun v =>
    v.credentialId = credentialId && v.purgedAt.isNone && v.abandonedAt.isNone).argmax
      StagedVersion.versionNumber

/-- `nextCredentialVersionNumber`. -/
def nextCredentialVersionNumber (d : HandlingDb) (credentialId : ℕ) : ℕ :=
  ((d.versions.filter fun v => v.credentialId = credentialId).map StagedVersion.versionNumber).foldr
    max 0 + 1

/-- The dependencies of `dependencyChecklistFilter`. -/
def dependencyChecklist (d : HandlingDb) (credentialId : ℕ) (targets : Option (List String)) :
    List CredentialDependency :=
  d.dependencies.filter fun dep =>
    dep.credentialId = credentialId && dep.archivedAt.isNone && dependencyInScope targets dep

/-- `INSERT INTO rotations`: the row, unless the credential has an active rotation. -/
def insertRotation (credentialId userId newVersionId previousVersionId : ℕ) :
    HandlingProg readers (Option OwnedRotation) :=
  .update
    (fun c => if (findInProgressRotationId c.view credentialId).isSome then [] else [.rotation c.seq])
    (fun c d => if (findInProgressRotationId c.view credentialId).isSome then d else
      (rotationTable readers).modify (fun rows => rows ++ [row c]) d)
    fun c => if (findInProgressRotationId c.view credentialId).isSome then none else some (row c)
where
  /-- The new row. -/
  row (c : Ctx HandlingDb) : OwnedRotation :=
    { id := c.seq, credentialId, newVersionId, previousVersionId, status := .staged, version := 1
      initiatedBy := some userId, ownerUserId := none, initiatedAt := c.start }

/-- Why a rotation is not staged. -/
inductive StageError where
  | refused
  /-- The unique violation of the insert. -/
  | conflict
  | threw

/-- `lockCurrentNonPurgedVersion`. -/
def lockCurrentNonPurgedVersion (credentialId : ℕ) :
    HandlingProg readers (Option StagedVersion) := do
  match ← .query fun c => currentNonPurgedVersion c.view credentialId with
  | none => return none
  | some found =>
    (versionTable readers).selectForUpdate found.id fun _ v =>
      v.purgedAt.isNone && v.abandonedAt.isNone

/-- The rotation of `initiateRotation` with its checklist. -/
def insertWithChecklist (credentialId userId : ℕ) (targets : Option (List String))
    (newVersionId previousVersionId : ℕ) : HandlingProg readers (Except StageError ℕ) := do
  let dependencyRows ← .query fun c => dependencyChecklist c.view credentialId targets
  match ← insertRotation credentialId userId newVersionId previousVersionId with
  | none => return .error .conflict
  | some rotation => do
      .forEach dependencyRows fun dep => do
        let _ ← (itemTable readers).insertRow fun c => ⟨c.seq, rotation.id, dep.id⟩
      return .ok rotation.id

/-- The writes of `initiateRotation`. -/
def insertStaged (credentialId userId : ℕ) (targets : Option (List String))
    (previousVersion : StagedVersion) : HandlingProg readers (Except StageError ℕ) := do
  let versionNumber ← .query fun c => nextCredentialVersionNumber c.view credentialId
  let newVersion ← (versionTable readers).insertRow fun c =>
    { id := c.seq, credentialId, versionNumber, rotationLockedAt := none, abandonedAt := none
      purgedAt := none }
  let now ← .query fun c => c.clock
  let _ ← (versionTable readers).updateRow previousVersion.id (fun _ _ => true)
    fun _ v => { v with rotationLockedAt := some now }
  insertWithChecklist credentialId userId targets newVersion.id previousVersion.id

/-- The savepoint of `initiateRotation`. -/
def stageRotation (credentialId userId : ℕ) (targets : Option (List String)) :
    HandlingProg readers (Except StageError ℕ) := do
  if ← .either then return .error .refused
  else match ← lockCurrentNonPurgedVersion credentialId with
  | none => return .error .threw
  | some previousVersion => do
      if ← .either then return .error .refused
      else insertStaged credentialId userId targets previousVersion

/-- `initiateRotation`, with the transaction of its route. -/
def initiateRotation (reader : Fin readers) (userId credentialId : ℕ)
    (targets : Option (List String)) : HandlingProg readers Unit := do
  .beginTx
  if ← .tryLock (.credentialScope credentialId) then
    if ← lockActiveInitiatorMembership reader userId then
      match ← (stageRotation credentialId userId targets).savepoint with
      | .error .refused => .commitTx .refused
      | .error .threw => .rollbackTx .failed
      | .error .conflict => do
          let rotationId ← .query fun c => findInProgressRotationId c.view credentialId
          .commitTx (.rotationConflict rotationId)
      | .ok rotationId => audited (.initiated rotationId)
    else .commitTx .initiatorInactive
  else do
    .lock (.credentialScope credentialId)
    let rotationId ← .query fun c => findInProgressRotationId c.view credentialId
    .commitTx (.rotationConflict rotationId)

/-! ### Calls -/

variable (readers) in
/-- The calls; each request reads memberships under a lock of its own. -/
inductive HandlingCall where
  | leave (leave : Leave) (callerRole : OrgRole) (reader : Fin readers) (userId : ℕ)
      (handling : RotationHandling)
  | initiate (reader : Fin readers) (userId credentialId : ℕ) (targets : Option (List String))

/-- The code of a call. -/
def handlingCall : HandlingCall readers → HandlingProg readers Unit
  | .leave leave callerRole reader userId handling => leaveOrg leave callerRole reader userId handling
  | .initiate reader userId credentialId targets => initiateRotation reader userId credentialId targets

end Statements

end ProjectVault.Org
