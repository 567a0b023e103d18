import ProjectVault.Db.Statements

/-!
The members of a project, statement by statement (the member removal and the ownership transfer of
`projects/routes.ts`, the role change and the removal of a user of `org/routes.ts`, with
`projects/member-management.ts` and `org/user-management.ts`).

Whether the caller may act, what else a request is refused for (the organization's roles, the
archived project, the rotation guard), and whether the audit write throws is left open.
-/

namespace ProjectVault.Projects

open Db

/-! ### State -/

/-- The values of `project_memberships.role`. -/
inductive ProjectRole where
  | owner | admin | member | viewer
  deriving DecidableEq

/-- The roles of `ProjectRoleChangeBodySchema`. -/
abbrev AssignableRole := { role : ProjectRole // role ≠ .owner }

/-- A row of `project_memberships` of the project. -/
structure Member where
  userId : ℕ
  role : ProjectRole
  deriving DecidableEq

/-- The memberships of the project. -/
structure OwnerDb where
  members : List Member

/-- The locks of the rows of `project_memberships` and `org_memberships`. -/
inductive OwnerLock where
  | member (userId : ℕ)
  | orgMember (userId : ℕ)
  deriving DecidableEq

/-- What a transaction answers. -/
inductive OwnerAnswer where
  | membershipNotFound | mustTransferOwnershipFirst | lastOwner | soleOwnerOfProjects
  | notAProjectMember | alreadyOwner | ownershipAlreadyChanged | refused | failed
  | roleChanged (userId : ℕ)
  /-- A removal from the project, with the role the handler has read. -/
  | removed (userId : ℕ) (role : ProjectRole)
  | orgRemoved (userId : ℕ)
  | transferred (previousOwnerId newOwnerId : ℕ)

/-- Code over the memberships. -/
abbrev OwnerProg (α : Type) := Prog OwnerDb OwnerLock OwnerAnswer α

/-- `project_memberships`, keyed by the user. -/
def memberTable : Db.Table OwnerDb OwnerLock Member where
  rows := OwnerDb.members
  modify f d := { d with members := f d.members }
  rows_modify _ _ := rfl
  id := Member.userId
  lock := .member
  lock_injective _ _ h := by simpa using h

/-! ### Statements -/

/-- The role `owner`. -/
def Member.isOwner (m : Member) : Bool := m.role = .owner

/-- The owners of the project other than a user. -/
def OwnerDb.ownersExcept (d : OwnerDb) (userId : ℕ) : List Member :=
  d.members.filter fun m => m.isOwner && m.userId ≠ userId

/-- An owner of the project, and no other user is. -/
def isSoleOwner (d : OwnerDb) (userId : ℕ) : Bool :=
  (d.members.any fun m => m.userId = userId && m.isOwner) && d.ownersExcept userId = []

/-- The end of a handler: the audit write may throw. -/
def auditedOwner (answer : OwnerAnswer) : OwnerProg Unit := do
  if ← .either then .rollbackTx .failed else .commitTx answer

/-- `getProjectMembershipRole`. -/
def getProjectMembershipRole (userId : ℕ) : OwnerProg (Option ProjectRole) :=
  .query fun c => (memberTable.find c.view userId).map Member.role

/-- The other owners, `FOR UPDATE`. -/
def lockOtherOwners (userId : ℕ) : OwnerProg (List Member) := do
  let found ← .query fun c => (c.view.ownersExcept userId).map Member.userId
  memberTable.selectEachForUpdate (fun _ m => m.isOwner && m.userId ≠ userId) found

/-- The current owner, `FOR UPDATE LIMIT 1`. -/
def lockCurrentOwner : OwnerProg (Option Member) := do
  let found ← .query fun c => (c.view.members.filter Member.isOwner).map Member.userId
  memberTable.selectFirstForUpdate (fun _ m => m.isOwner) found

/-- The memberships of a user who is the sole owner, `FOR UPDATE OF pm`. -/
def lockSoleOwner (userId : ℕ) : OwnerProg (Option Member) := do
  if ← .query fun c => isSoleOwner c.view userId then
    memberTable.selectForUpdate userId fun _ m => m.isOwner
  else return none

/-- `UPDATE project_memberships SET role = … WHERE user_id = … AND …`. -/
def setRole (userId : ℕ) (cond : Member → Bool) (role : ProjectRole) : OwnerProg (Option Member) :=
  memberTable.updateRow userId (fun _ m => cond m) fun _ m => { m with role }

/-! ### Handlers -/

/-- `PUT /users/:userId/projects/:projectId/role`. -/
def changeRole (userId : ℕ) (role : AssignableRole) : OwnerProg Unit := do
  .beginTx
  if ← .either then .commitTx .refused
  else match ← getProjectMembershipRole userId with
  | none => .commitTx .membershipNotFound
  | some membershipRole =>
    if membershipRole = .owner then .commitTx .mustTransferOwnershipFirst
    else do
      let _ ← setRole userId (fun _ => true) role
      auditedOwner (.roleChanged userId)

/-- The last-owner guard of `DELETE /:projectId/members/:userId`: whether it refuses. -/
def rejectLastOwner (userId : ℕ) (role : ProjectRole) : OwnerProg Bool := do
  if role = .owner then
    let otherOwners ← lockOtherOwners userId
    return otherOwners = []
  else return false

/-- `DELETE /:projectId/members/:userId`. -/
def removeMember (userId : ℕ) : OwnerProg Unit := do
  .beginTx
  match ← getProjectMembershipRole userId with
  | none => .commitTx .membershipNotFound
  | some targetMembershipRole =>
    if ← .either then .commitTx .refused
    else if ← rejectLastOwner userId targetMembershipRole then .commitTx .lastOwner
    else do
      memberTable.deleteRow userId
      auditedOwner (.removed userId targetMembershipRole)

/-- `DELETE /users/:userId`, as far as the memberships of the project go. -/
def removeOrgUser (userId : ℕ) : OwnerProg Unit := do
  .beginTx
  .lock (.orgMember userId)
  if ← .either then .commitTx .refused
  else match ← lockSoleOwner userId with
  | some _ => .commitTx .soleOwnerOfProjects
  | none =>
    if ← .either then .commitTx .refused
    else do
      memberTable.deleteRow userId
      auditedOwner (.orgRemoved userId)

/-- `resolveTransferTargets`: the current owner, or the answer that was sent. -/
def resolveTransferTargets (newOwnerId : ℕ) : OwnerProg (Except OwnerAnswer Member) := do
  match ← getProjectMembershipRole newOwnerId with
  | none => return .error .notAProjectMember
  | some role =>
    if role = .owner then return .error .alreadyOwner
    else match ← lockCurrentOwner with
    | none => return .error .ownershipAlreadyChanged
    | some currentOwner => return .ok currentOwner

/-- `POST /:projectId/transfer-ownership`. -/
def transferOwnership (newOwnerId : ℕ) : OwnerProg Unit := do
  .beginTx
  if ← .either then .commitTx .refused
  else match ← resolveTransferTargets newOwnerId with
  | .error answer => .commitTx answer
  | .ok currentOwner => do
      match ← setRole currentOwner.userId Member.isOwner .admin with
      | none => .commitTx .ownershipAlreadyChanged
      | some _ => do
          let _ ← setRole newOwnerId (fun _ => true) .owner
          auditedOwner (.transferred currentOwner.userId newOwnerId)

/-! ### Calls -/

/-- The calls. -/
inductive OwnerCall where
  | changeRole (userId : ℕ) (role : AssignableRole)
  | removeMember (userId : ℕ)
  | removeOrgUser (userId : ℕ)
  | transferOwnership (newOwnerId : ℕ)

/-- The code of a call. -/
def ownerCall : OwnerCall → OwnerProg Unit
  | .changeRole userId role => Projects.changeRole userId role
  | .removeMember userId => Projects.removeMember userId
  | .removeOrgUser userId => Projects.removeOrgUser userId
  | .transferOwnership newOwnerId => Projects.transferOwnership newOwnerId

/-- The committed memberships with what has been answered. -/
abbrev OwnerWorld := World OwnerDb OwnerLock OwnerAnswer

/-- The end of a transaction. -/
abbrev OwnerEnd := Event OwnerDb OwnerLock OwnerAnswer

/-- The members of a project, each once. -/
structure Roster where
  members : List Member
  nodup : (members.map Member.userId).Nodup

/-- The database with the sessions of the membership code. -/
def ownerSessions (roster : Roster) (seq clock : ℕ) :
    Run.System (State OwnerDb OwnerLock OwnerAnswer) (Label OwnerCall) :=
  sessions ownerCall ⟨⟨roster.members⟩, seq, clock, []⟩

end ProjectVault.Projects
