import ProjectVault.ProjectExport.Bundle

/-!
The tables of a project (`packages/db/src/schema`) with the constraints an insert is checked
against.

Primary keys are numbers drawn from one increasing supply (`nextId`).
-/

namespace ProjectVault.ProjectExport

open Js

/-! ### Columns -/

/-- A point of time, in milliseconds, that the driver can write: `toISOString` prints its year
with four digits, and it is not the year 0. -/
structure Timestamp where
  ms : ℤ
  inRange : -62135596800000 ≤ ms ∧ ms ≤ 253402300799999

/-- The point of time of a `Date`, if a column takes it. -/
def Timestamp.ofDate (ms : ℤ) : Option Timestamp :=
  if h : -62135596800000 ≤ ms ∧ ms ≤ 253402300799999 then some ⟨ms, h⟩ else none

/-- The start of the epoch. -/
def Timestamp.epoch : Timestamp := ⟨0, by decide⟩

/-- A text column holds no `U+0000`. -/
def storableText (s : String) : Bool := '\x00' ∉ s.toList

/-- A nullable text column. -/
def storableText? (s : Option String) : Bool := s.all storableText

mutual

/-- A `jsonb` column holds no string and no key with `U+0000`. -/
def storableJson : Json → Bool
  | .str s => storableText s
  | .arr xs => storableElems xs
  | .obj ms => storableMembers ms
  | .null | .bool _ | .num _ => true

/-- The elements of an array. -/
def storableElems : List Json → Bool
  | [] => true
  | x :: xs => storableJson x && storableElems xs

/-- The members of an object. -/
def storableMembers : List (String × Json) → Bool
  | [] => true
  | (k, v) :: ms => storableText k && storableJson v && storableMembers ms

end

/-- The largest value of an `integer` column. -/
def maxInteger : ℕ := 2147483647

/-- The largest value of a `smallint` column. -/
def maxSmallint : ℕ := 32767

/-- `char_length(s) BETWEEN min AND max`. -/
def charLengthBetween (min max : ℕ) (s : String) : Bool := min ≤ s.length && s.length ≤ max

/-- `s IS NULL OR char_length(s) <= max`. -/
def charLengthAtMost? (max : ℕ) (s : Option String) : Bool := s.all (charLengthBetween 0 max)

/-! ### Rows -/

/-- A row of `projects`. -/
structure ProjectRow where
  id : ℕ
  orgId : ℕ
  name : String
  description : Option String
  tags : List String
  createdBy : Option ℕ
  archivedAt : Option Timestamp

def ProjectRow.isValid (r : ProjectRow) : Bool :=
  storableText r.name && storableText? r.description && r.tags.all storableText

/-- A row of `credentials`. -/
structure CredentialRow where
  id : ℕ
  orgId : ℕ
  projectId : ℕ
  name : String
  description : Option String
  tags : List String
  expiresAt : Option Timestamp
  alertLeadDays : List ℤ
  notifiedLeadDays : List ℤ
  rotationSchedule : Option String
  retentionCount : ℕ
  cacheable : Bool
  currentVersionId : Option ℕ
  createdBy : Option ℕ
  createdAt : Timestamp
  archivedAt : Option Timestamp

/-- `credentials_retention_count_check` and the ranges of the columns. -/
def CredentialRow.isValid (r : CredentialRow) : Bool :=
  1 ≤ r.retentionCount && r.retentionCount ≤ maxInteger && storableText r.name &&
    storableText? r.description && r.tags.all storableText && storableText? r.rotationSchedule

/-- A row of `credential_versions`. -/
structure VersionRow where
  id : ℕ
  orgId : ℕ
  credentialId : ℕ
  encryptedValue : Option EncryptedValue
  keyVersion : Option ℕ
  versionNumber : ℕ
  rotationLockedAt : Option Timestamp
  purgedAt : Option Timestamp
  breakGlassOverlapExpiresAt : Option Timestamp
  abandonedAt : Option Timestamp
  promotedAt : Option Timestamp
  createdBy : Option ℕ
  createdAt : Timestamp
  schemaVersion : ℕ
  fieldMeta : Json

def VersionRow.isValid (r : VersionRow) : Bool :=
  r.versionNumber ≤ maxInteger && r.schemaVersion ≤ maxSmallint && storableJson r.fieldMeta

/-- A row of `credential_dependencies`. -/
structure DependencyRow where
  id : ℕ
  orgId : ℕ
  credentialId : ℕ
  systemName : String
  systemType : SystemType
  notes : Option String
  linkUrl : Option String
  fieldKey : Option String
  createdBy : Option ℕ
  archivedAt : Option Timestamp

/-- The length checks of `credential_dependencies`. -/
def DependencyRow.isValid (r : DependencyRow) : Bool :=
  charLengthBetween 1 256 r.systemName && charLengthAtMost? 2048 r.notes &&
    charLengthAtMost? 2048 r.linkUrl && storableText r.systemName && storableText? r.notes &&
    storableText? r.linkUrl && storableText? r.fieldKey

/-- A row of `rotations`. -/
structure RotationRow where
  id : ℕ
  orgId : ℕ
  projectId : ℕ
  credentialId : ℕ
  newVersionId : ℕ
  previousVersionId : ℕ
  status : RotationStatus
  version : ℕ
  initiatedBy : Option ℕ
  initiatedAt : Timestamp
  completedAt : Option Timestamp
  promotedAt : Option Timestamp
  retiredAt : Option Timestamp
  notes : Option String
  targetFields : Option (List String)
  createdAt : Timestamp
  updatedAt : Timestamp

def RotationRow.isValid (r : RotationRow) : Bool :=
  storableText? r.notes && r.targetFields.all fun keys => keys.all storableText

/-- The predicate of `idx_rotations_one_active_per_credential`. -/
def RotationRow.isActive (r : RotationRow) : Bool := r.status ∈ activeRotationStatuses

/-- A row of `rotation_checklist_items`. -/
structure ChecklistRow where
  id : ℕ
  orgId : ℕ
  rotationId : ℕ
  dependencyId : Option ℕ
  systemName : String
  status : ChecklistStatus
  confirmedBy : Option ℕ
  confirmedAt : Option Timestamp
  notes : Option String
  retryCount : ℕ
  retryScheduledAt : Option Timestamp
  lastFailureReason : Option String
  lastActedBy : Option ℕ
  lastActedAt : Option Timestamp

def ChecklistRow.isValid (r : ChecklistRow) : Bool :=
  r.retryCount ≤ maxInteger && storableText r.systemName && storableText? r.notes &&
    storableText? r.lastFailureReason

/-- A row of `cert_records`. -/
structure CertRow where
  id : ℕ
  orgId : ℕ
  projectId : ℕ
  domain : String
  expiresAt : Option Timestamp
  alertLeadDays : List ℤ
  notifiedLeadDays : List ℤ
  createdBy : Option ℕ

/-- `cert_records_domain_len_check`. -/
def CertRow.isValid (r : CertRow) : Bool :=
  charLengthBetween 1 256 r.domain && storableText r.domain

/-- A row of `domain_records`. -/
structure DomainRow where
  id : ℕ
  orgId : ℕ
  projectId : ℕ
  domainName : String
  renewalDate : Option Timestamp
  alertLeadDays : List ℤ
  notifiedLeadDays : List ℤ
  createdBy : Option ℕ

/-- `domain_records_domain_name_len_check`. -/
def DomainRow.isValid (r : DomainRow) : Bool :=
  charLengthBetween 1 256 r.domainName && storableText r.domainName

/-- A row of `service_endpoints`. -/
structure EndpointRow where
  id : ℕ
  orgId : ℕ
  projectId : ℕ
  name : String
  url : String
  checkFrequencyMinutes : ℤ
  downThresholdFailures : ℤ
  createdBy : Option ℕ
  createdAt : Timestamp

/-- The checks of `service_endpoints`. -/
def EndpointRow.isValid (r : EndpointRow) : Bool :=
  charLengthBetween 1 256 r.name && charLengthBetween 1 2048 r.url && storableText r.name &&
    storableText r.url && r.checkFrequencyMinutes ∈ [1, 5, 15, 30] &&
    1 ≤ r.downThresholdFailures && r.downThresholdFailures ≤ 10

/-- A row of `status_pages`. -/
structure StatusPageRow where
  id : ℕ
  orgId : ℕ
  projectId : ℕ
  createdBy : Option ℕ

/-- A row of `status_page_services`. -/
structure StatusPageServiceRow where
  id : ℕ
  orgId : ℕ
  statusPageId : ℕ
  serviceId : ℕ
  displayName : String
  sortOrder : ℕ

/-- `status_page_services_display_name_len_check`. -/
def StatusPageServiceRow.isValid (r : StatusPageServiceRow) : Bool :=
  charLengthBetween 1 100 r.displayName && storableText r.displayName &&
    r.sortOrder ≤ maxInteger

/-- A row of `machine_users` that a project has. -/
structure MachineUserRow where
  id : ℕ
  orgId : ℕ
  projectId : ℕ
  name : String
  description : Option String
  role : MachineUserRole
  createdBy : Option ℕ

/-- `machine_users_name_len_check`. -/
def MachineUserRow.isValid (r : MachineUserRow) : Bool :=
  charLengthBetween 1 128 r.name && storableText r.name && storableText? r.description

/-- The tables. -/
structure Tables where
  projects : List ProjectRow
  credentials : List CredentialRow
  versions : List VersionRow
  dependencies : List DependencyRow
  rotations : List RotationRow
  checklistItems : List ChecklistRow
  certRecords : List CertRow
  domainRecords : List DomainRow
  serviceEndpoints : List EndpointRow
  statusPages : List StatusPageRow
  statusPageServices : List StatusPageServiceRow
  machineUsers : List MachineUserRow
  keyVersion : Option ℕ
  nextId : ℕ

/-- The tables of a fresh installation. -/
def Tables.empty : Tables :=
  { projects := [], credentials := [], versions := [], dependencies := [], rotations := [],
    checklistItems := [], certRecords := [], domainRecords := [], serviceEndpoints := [],
    statusPages := [], statusPageServices := [], machineUsers := [], keyVersion := some 1,
    nextId := 1 }

/-! ### Inserts -/

/-- What an import throws; the transaction is rolled back. -/
inductive ImportError where
  /-- `toISOString` of an invalid date. -/
  | rangeError
  /-- The database refuses a row of the table. -/
  | refused (table : String)
  /-- `StatusPageAlreadyEnabledError`. -/
  | statusPageAlreadyEnabled
  /-- `StatusPageNotFoundError`. -/
  | statusPageNotFound
  /-- `InvalidServiceReferenceError`. -/
  | invalidServiceReference

/-- A statement that the database carries out if the rows satisfy its constraints. -/
def checked {α : Type} (table : String) (ok : Bool) (a : α) : Except ImportError α :=
  if ok then .ok a else .error (.refused table)

/-- No row of a table stands twice under one key of a unique index. -/
def uniqueIn {α κ : Type} [DecidableEq κ] (key : α → κ) (rows : List α) : Bool :=
  (rows.map key).Nodup

/-- `INSERT INTO projects`. -/
def Tables.insertProject (db : Tables) (row : ProjectRow) : Except ImportError Tables :=
  checked "projects" row.isValid
    { db with projects := db.projects ++ [row], nextId := db.nextId + 1 }

/-- The tables with one more credential. -/
def Tables.withCredential (db : Tables) (row : CredentialRow) : Tables :=
  { db with credentials := db.credentials ++ [row], nextId := db.nextId + 1 }

/-- `INSERT INTO credentials`. -/
def Tables.insertCredential (db : Tables) (row : CredentialRow) : Except ImportError Tables :=
  checked "credentials" row.isValid (db.withCredential row)

/-- `UPDATE credentials SET current_version_id = … WHERE id = …`, if there is a version to set. -/
def Tables.setCurrentVersion (db : Tables) (credentialId : ℕ) : Option ℕ → Tables
  | none => db
  | some versionId =>
    { db with credentials := Db.updateWhere (fun c => c.id = credentialId)
                (fun c => { c with currentVersionId := some versionId }) db.credentials }

/-- `INSERT INTO credential_versions`, with `idx_credential_versions_unique`. -/
def Tables.insertVersion (db : Tables) (row : VersionRow) : Except ImportError Tables :=
  checked "credential_versions"
    (row.isValid && db.versions.all fun v =>
      !(v.credentialId = row.credentialId && v.versionNumber = row.versionNumber))
    { db with versions := db.versions ++ [row], nextId := db.nextId + 1 }

/-- `INSERT INTO credential_dependencies`. -/
def Tables.insertDependencies (db : Tables) (rows : List DependencyRow) :
    Except ImportError Tables :=
  checked "credential_dependencies" (rows.all DependencyRow.isValid)
    { db with dependencies := db.dependencies ++ rows, nextId := db.nextId + rows.length }

/-- `INSERT INTO rotations`, with `idx_rotations_one_active_per_credential`. -/
def Tables.insertRotation (db : Tables) (row : RotationRow) : Except ImportError Tables :=
  checked "rotations"
    (row.isValid && db.rotations.all fun r =>
      !(r.credentialId = row.credentialId && r.isActive && row.isActive))
    { db with rotations := db.rotations ++ [row], nextId := db.nextId + 1 }

/-- `INSERT INTO rotation_checklist_items`. -/
def Tables.insertChecklistItems (db : Tables) (rows : List ChecklistRow) :
    Except ImportError Tables :=
  checked "rotation_checklist_items" (rows.all ChecklistRow.isValid)
    { db with checklistItems := db.checklistItems ++ rows, nextId := db.nextId + rows.length }

/-- `INSERT INTO cert_records`. -/
def Tables.insertCertRecords (db : Tables) (rows : List CertRow) : Except ImportError Tables :=
  checked "cert_records" (rows.all CertRow.isValid)
    { db with certRecords := db.certRecords ++ rows, nextId := db.nextId + rows.length }

/-- `INSERT INTO domain_records`. -/
def Tables.insertDomainRecords (db : Tables) (rows : List DomainRow) :
    Except ImportError Tables :=
  checked "domain_records" (rows.all DomainRow.isValid)
    { db with domainRecords := db.domainRecords ++ rows, nextId := db.nextId + rows.length }

/-- `INSERT INTO service_endpoints`. -/
def Tables.insertEndpoint (db : Tables) (row : EndpointRow) : Except ImportError Tables :=
  checked "service_endpoints" row.isValid
    { db with serviceEndpoints := db.serviceEndpoints ++ [row], nextId := db.nextId + 1 }

/-- `INSERT INTO status_page_services`, with its unique index on page and service. -/
def Tables.insertStatusPageServices (db : Tables) (rows : List StatusPageServiceRow) :
    Except ImportError Tables :=
  checked "status_page_services"
    (rows.all StatusPageServiceRow.isValid &&
      uniqueIn (fun r => (r.statusPageId, r.serviceId)) (db.statusPageServices ++ rows))
    { db with statusPageServices := db.statusPageServices ++ rows
              nextId := db.nextId + rows.length }

/-- `INSERT INTO machine_users`. -/
def Tables.insertMachineUsers (db : Tables) (rows : List MachineUserRow) :
    Except ImportError Tables :=
  checked "machine_users" (rows.all MachineUserRow.isValid)
    { db with machineUsers := db.machineUsers ++ rows, nextId := db.nextId + rows.length }

/-! ### Keys -/

/-- Tables whose rows have drawn their keys from the supply, and refer to keys drawn. -/
structure Database extends Tables where
  credentials_lt : ∀ c ∈ credentials, c.id < nextId
  versions_lt : ∀ v ∈ versions, v.credentialId < nextId
  rotations_lt : ∀ r ∈ rotations, r.credentialId < nextId
  endpoints_lt : ∀ e ∈ serviceEndpoints, e.id < nextId ∧ e.projectId < nextId
  statusPages_lt : ∀ p ∈ statusPages, p.id < nextId ∧ p.projectId < nextId
  services_lt : ∀ s ∈ statusPageServices, s.statusPageId < nextId
  services_unique : (statusPageServices.map fun s => (s.statusPageId, s.serviceId)).Nodup

/-- The database of a fresh installation. -/
def Database.empty : Database where
  toTables := Tables.empty
  credentials_lt := by simp [Tables.empty]
  versions_lt := by simp [Tables.empty]
  rotations_lt := by simp [Tables.empty]
  endpoints_lt := by simp [Tables.empty]
  statusPages_lt := by simp [Tables.empty]
  services_lt := by simp [Tables.empty]
  services_unique := by simp [Tables.empty]

end ProjectVault.ProjectExport
