import ProjectVault.Db.Table
import ProjectVault.Credentials.FieldSet

/-!
The tables behind credentials and rotations (`packages/db/src/schema`) and the
store that holds them.

A ciphertext is represented by the plaintext it decrypts to (`EncryptedValue`).
Primary keys are numbers drawn from one increasing supply, and points of time are
numbers of milliseconds.
-/

namespace ProjectVault

/-- `EncryptedValue`, represented by the plaintext it decrypts to. -/
structure EncryptedValue where
  plaintext : String
  deriving DecidableEq

/-- `encryptValue`. -/
def encryptValue (value : String) : EncryptedValue := ⟨value⟩

/-- `withSecret`: the decrypted plaintext. -/
def withSecret (e : EncryptedValue) : String := e.plaintext

/-- A row of `projects`. -/
structure Project where
  id : ℕ
  orgId : ℕ
  archivedAt : Option ℕ
  deriving DecidableEq

/-- A row of `org_memberships`. -/
structure OrgMembership where
  orgId : ℕ
  userId : ℕ
  status : String
  deriving DecidableEq

/-- A row of `credentials`. -/
structure Credential where
  id : ℕ
  orgId : ℕ
  projectId : ℕ
  name : String
  description : Option String
  tags : List String
  expiresAt : Option ℕ
  rotationSchedule : Option String
  cacheable : Bool
  retentionCount : ℕ
  currentVersionId : Option ℕ
  createdBy : Option ℕ
  createdAt : ℕ
  archivedAt : Option ℕ
  deriving DecidableEq

/-- A row of `credential_versions`. -/
structure CredentialVersion where
  id : ℕ
  orgId : ℕ
  credentialId : ℕ
  encryptedValue : Option EncryptedValue
  keyVersion : Option ℕ
  versionNumber : ℕ
  rotationLockedAt : Option ℕ
  purgedAt : Option ℕ
  breakGlassOverlapExpiresAt : Option ℕ
  abandonedAt : Option ℕ
  promotedAt : Option ℕ
  createdBy : Option ℕ
  createdAt : ℕ
  schemaVersion : ℕ
  fieldMeta : Option (List FieldMeta)
  deriving DecidableEq

/-- The values of `rotations.status`. -/
inductive RotationStatus where
  | inProgress | staged | promoted | retired | completed | abandoned | staleRecovery
  | breakGlassComplete
  deriving DecidableEq

/-- `ACTIVE_ROTATION_STATUSES`, also the predicate of
`idx_rotations_one_active_per_credential`. -/
def activeRotationStatuses : List RotationStatus :=
  [.inProgress, .staged, .promoted, .staleRecovery]

/-- A row of `rotations`. -/
structure Rotation where
  id : ℕ
  orgId : ℕ
  projectId : ℕ
  credentialId : ℕ
  newVersionId : ℕ
  previousVersionId : ℕ
  status : RotationStatus
  version : ℕ
  initiatedBy : Option ℕ
  initiatedAt : ℕ
  completedAt : Option ℕ
  promotedAt : Option ℕ
  retiredAt : Option ℕ
  notes : Option String
  targetFields : Option (List String)
  createdAt : ℕ
  updatedAt : ℕ
  deriving DecidableEq

/-- A rotation that blocks another on its credential. -/
def Rotation.isActive (r : Rotation) : Bool := r.status ∈ activeRotationStatuses

/-- The values of `rotation_checklist_items.status`. -/
inductive ChecklistStatus where
  | unconfirmed | confirmed | failed | maxRetriesExceeded
  deriving DecidableEq

/-- A row of `rotation_checklist_items`. -/
structure ChecklistItem where
  id : ℕ
  orgId : ℕ
  rotationId : ℕ
  dependencyId : ℕ
  systemName : String
  status : ChecklistStatus
  confirmedBy : Option ℕ
  confirmedAt : Option ℕ
  retryCount : ℕ
  retryScheduledAt : Option ℕ
  lastFailureReason : Option String
  lastActedBy : Option ℕ
  lastActedAt : Option ℕ
  notes : Option String
  deriving DecidableEq

/-- A row of `credential_dependencies`. -/
structure CredentialDependency where
  id : ℕ
  orgId : ℕ
  credentialId : ℕ
  systemName : String
  fieldKey : Option String
  archivedAt : Option ℕ
  deriving DecidableEq

/-- `ImportAction`. -/
inductive ImportAction where
  | createNew | newVersion | skip
  deriving DecidableEq

/-- `PendingImportItemRecord`. -/
structure PendingImportItem where
  name : String
  encryptedValue : EncryptedValue
  keyVersion : ℕ
  conflictsWith : Option ℕ
  suggestedAction : ImportAction
  deriving DecidableEq

/-- A row of `pending_imports`. -/
structure PendingImport where
  id : ℕ
  orgId : ℕ
  projectId : ℕ
  items : List PendingImportItem
  expiresAt : ℕ
  deriving DecidableEq

/-- The tables. -/
structure Store where
  projects : List Project
  memberships : List OrgMembership
  credentials : List Credential
  versions : List CredentialVersion
  rotations : List Rotation
  checklistItems : List ChecklistItem
  dependencies : List CredentialDependency
  pendingImports : List PendingImport
  keyVersion : Option ℕ
  nextId : ℕ
  deriving DecidableEq

/-- The store of a fresh installation. -/
def Store.empty : Store :=
  { projects := [], memberships := [], credentials := [], versions := [], rotations := [],
    checklistItems := [], dependencies := [], pendingImports := [], keyVersion := some 1,
    nextId := 1 }

/-! ### Statements on single rows -/

/-- `UPDATE credential_versions SET … WHERE id = …`. -/
def Store.updateVersion (s : Store) (id : ℕ) (f : CredentialVersion → CredentialVersion) : Store :=
  { s with versions := Db.updateWhere (fun v => v.id = id) f s.versions }

/-- `UPDATE rotations SET … WHERE id = …`. -/
def Store.updateRotation (s : Store) (id : ℕ) (f : Rotation → Rotation) : Store :=
  { s with rotations := Db.updateWhere (fun r => r.id = id) f s.rotations }

/-- The columns an insert into `credential_versions` may leave to their
defaults. -/
structure VersionValues where
  orgId : ℕ
  credentialId : ℕ
  encryptedValue : EncryptedValue
  keyVersion : ℕ
  versionNumber : ℕ
  createdBy : ℕ
  schemaVersion : ℕ := 1
  fieldMeta : Option (List FieldMeta) := none
  promotedAt : Option ℕ := none

/-- The row an insert of `values` creates. -/
def VersionValues.row (values : VersionValues) (id : ℕ) (now : ℕ) : CredentialVersion :=
  { id, orgId := values.orgId, credentialId := values.credentialId,
    encryptedValue := some values.encryptedValue, keyVersion := some values.keyVersion,
    versionNumber := values.versionNumber, rotationLockedAt := none, purgedAt := none,
    breakGlassOverlapExpiresAt := none, abandonedAt := none, promotedAt := values.promotedAt,
    createdBy := some values.createdBy, createdAt := now, schemaVersion := values.schemaVersion,
    fieldMeta := values.fieldMeta }

/-- `INSERT INTO credential_versions`, guarded by `idx_credential_versions_unique`. -/
def Store.insertVersion (s : Store) (now : ℕ) (values : VersionValues) :
    Except VaultError (CredentialVersion × Store) :=
  if s.versions.any fun v =>
      v.credentialId = values.credentialId ∧ v.versionNumber = values.versionNumber then
    .error .uniqueViolation
  else
    let row := values.row s.nextId now
    .ok (row, { s with versions := s.versions ++ [row], nextId := s.nextId + 1 })

/-- The columns an insert into `rotations` may leave to their defaults. -/
structure RotationValues where
  orgId : ℕ
  projectId : ℕ
  credentialId : ℕ
  newVersionId : ℕ
  previousVersionId : ℕ
  initiatedBy : ℕ
  notes : Option String
  targetFields : Option (List String) := none
  status : RotationStatus := .staged

/-- The row an insert of `values` creates. -/
def RotationValues.row (values : RotationValues) (id : ℕ) (now : ℕ) : Rotation :=
  { id, orgId := values.orgId, projectId := values.projectId, credentialId := values.credentialId,
    newVersionId := values.newVersionId, previousVersionId := values.previousVersionId,
    status := values.status, version := 1, initiatedBy := some values.initiatedBy,
    initiatedAt := now, completedAt := none, promotedAt := none, retiredAt := none,
    notes := values.notes, targetFields := values.targetFields, createdAt := now,
    updatedAt := now }

/-- `INSERT INTO rotations`, guarded by `idx_rotations_one_active_per_credential`. -/
def Store.insertRotation (s : Store) (now : ℕ) (values : RotationValues) :
    Except VaultError (Rotation × Store) :=
  if values.status ∈ activeRotationStatuses ∧
      s.rotations.any (fun r => r.credentialId = values.credentialId && r.isActive) then
    .error .uniqueViolation
  else
    let row := values.row s.nextId now
    .ok (row, { s with rotations := s.rotations ++ [row], nextId := s.nextId + 1 })

/-- `COALESCE(MAX(version_number), 0)` over all rows of a credential. -/
def Store.maxVersionNumber (s : Store) (credentialId : ℕ) : ℕ :=
  ((s.versions.filter fun v => v.credentialId = credentialId).map
    CredentialVersion.versionNumber).foldr max 0

end ProjectVault
