import ProjectVault.ProjectExport.Tables

/-!
The export of a project (`project-export/service.ts`).
-/

namespace ProjectVault.ProjectExport

open Js

/-- Why no payload is built. -/
inductive ExportError where
  | projectNotFound
  /-- The envelope of a version cannot be read. -/
  | unreadable (error : VaultError)

/-- `Date.prototype.toISOString`, on the dates of a column. -/
abbrev DateFormat := Timestamp → String

/-! ### Rotations -/

/-- `TERMINAL_ROTATION_STATUSES`. -/
def terminalRotationStatuses : List RotationStatus :=
  [.promoted, .retired, .completed, .abandoned, .breakGlassComplete]

/-- `coerceRotationStatusForExport`. -/
def coerceRotationStatusForExport (status : RotationStatus) : RotationStatus :=
  if status ∈ terminalRotationStatuses then status else .completed

/-- `buildExportChecklistItems`. -/
def buildExportChecklistItems (toISOString : DateFormat) (items : List ChecklistRow) :
    List ExportChecklistItem :=
  items.map fun item =>
    { systemName := item.systemName
      status := item.status
      confirmedAt := item.confirmedAt.map toISOString
      notes := item.notes
      retryCount := item.retryCount
      lastFailureReason := item.lastFailureReason
      lastActedAt := item.lastActedAt.map toISOString }

/-- `buildExportRotation`: one whose versions are not found is left out. -/
def buildExportRotation (toISOString : DateFormat) (db : Tables) (credentialRows : List CredentialRow)
    (rotation : RotationRow) : List ExportRotation :=
  match db.versions.find? fun v => v.id = rotation.newVersionId,
      db.versions.find? fun v => v.id = rotation.previousVersionId with
  | some newVersion, some previousVersion =>
    [{ credentialIndex :=
         (credentialRows.findIdx? fun c => c.id = rotation.credentialId).getD 0
       newVersionNumber := newVersion.versionNumber
       previousVersionNumber := previousVersion.versionNumber
       status := coerceRotationStatusForExport rotation.status
       initiatedAt := some (toISOString rotation.initiatedAt)
       completedAt := rotation.completedAt.map toISOString
       promotedAt := rotation.promotedAt.map toISOString
       retiredAt := rotation.retiredAt.map toISOString
       notes := rotation.notes
       targetFields := rotation.targetFields
       checklistItems := buildExportChecklistItems toISOString
         (db.checklistItems.filter fun item => item.rotationId = rotation.id) }]
  | _, _ => []

/-! ### Credentials -/

/-- `decryptVersionValue`: a purged version has none, and `totp` seeds stay behind. -/
def decryptVersionValue (version : VersionRow) : Except ExportError (Option String) :=
  match version.encryptedValue with
  | none => .ok none
  | some e =>
    match plaintextWithoutTotpSeeds version.schemaVersion (withSecret e) with
    | .ok value => .ok (some value)
    | .error error => .error (.unreadable error)

/-- One version of `buildExportCredential`. -/
def buildExportVersion (toISOString : DateFormat) (version : VersionRow) :
    Except ExportError ExportVersion := do
  let value ← decryptVersionValue version
  return { versionNumber := version.versionNumber
           schemaVersion := version.schemaVersion
           fieldMeta := version.fieldMeta
           value
           promoted := version.promotedAt.isSome
           createdAt := some (toISOString version.createdAt) }

/-- The versions of a credential, `ORDER BY version_number`. -/
def versionRowsOf (db : Tables) (credentialId : ℕ) : List VersionRow :=
  Db.sortAsc VersionRow.versionNumber (db.versions.filter fun v => v.credentialId = credentialId)

/-- `buildExportCredential`. -/
def buildExportCredential (toISOString : DateFormat) (db : Tables) (credential : CredentialRow) :
    Except ExportError ExportCredential := do
  let versionRows := versionRowsOf db credential.id
  let versions ← versionRows.mapM (buildExportVersion toISOString)
  let currentVersion := versionRows.find? fun v => some v.id = credential.currentVersionId
  return { name := credential.name
           description := credential.description
           tags := credential.tags
           expiresAt := credential.expiresAt.map toISOString
           alertLeadDays := credential.alertLeadDays
           notifiedLeadDays := credential.notifiedLeadDays
           rotationSchedule := credential.rotationSchedule
           retentionCount := credential.retentionCount
           cacheable := credential.cacheable
           createdAt := some (toISOString credential.createdAt)
           currentVersionNumber := currentVersion.map VersionRow.versionNumber
           versions }

/-- The credentials of a project, `ORDER BY created_at`. -/
def credentialRowsOf (db : Tables) (projectId : ℕ) : List CredentialRow :=
  Db.sortAsc (fun c => c.createdAt.ms) (db.credentials.filter fun c => c.projectId = projectId)

/-! ### Dependencies and monitoring -/

/-- The dependencies of the exported credentials, archived or not. -/
def dependencyRowsOf (db : Tables) (credentialRows : List CredentialRow) : List DependencyRow :=
  db.dependencies.filter fun d => credentialRows.any fun c => c.id = d.credentialId

/-- One dependency of the payload. -/
def buildExportDependency (credentialRows : List CredentialRow) (dep : DependencyRow) :
    ExportDependency :=
  { credentialIndex := (credentialRows.findIdx? fun c => c.id = dep.credentialId).getD 0
    systemName := dep.systemName
    systemType := dep.systemType
    notes := dep.notes
    linkUrl := dep.linkUrl
    fieldKey := dep.fieldKey }

/-- One certificate of the payload. -/
def buildExportCertRecord (toISOString : DateFormat) (c : CertRow) : ExportCertRecord :=
  { domain := c.domain
    expiresAt := c.expiresAt.map toISOString
    alertLeadDays := c.alertLeadDays
    notifiedLeadDays := c.notifiedLeadDays }

/-- One domain of the payload. -/
def buildExportDomainRecord (toISOString : DateFormat) (d : DomainRow) : ExportDomainRecord :=
  { domainName := d.domainName
    renewalDate := d.renewalDate.map toISOString
    alertLeadDays := d.alertLeadDays
    notifiedLeadDays := d.notifiedLeadDays }

/-- One endpoint of the payload. -/
def buildExportServiceEndpoint (s : EndpointRow) : ExportServiceEndpoint :=
  { name := s.name
    url := s.url
    checkFrequencyMinutes := s.checkFrequencyMinutes
    downThresholdFailures := s.downThresholdFailures }

/-- The endpoints of a project, `ORDER BY created_at`. -/
def serviceRowsOf (db : Tables) (projectId : ℕ) : List EndpointRow :=
  Db.sortAsc (fun s => s.createdAt.ms) (db.serviceEndpoints.filter fun s => s.projectId = projectId)

/-- The services of a status page, `ORDER BY sort_order`. -/
def pageServiceRowsOf (db : Tables) (statusPageId : ℕ) : List StatusPageServiceRow :=
  Db.sortAsc StatusPageServiceRow.sortOrder
    (db.statusPageServices.filter fun s => s.statusPageId = statusPageId)

/-- The status page of the payload: a service of an endpoint elsewhere is left out. -/
def buildExportStatusPage (db : Tables) (serviceRows : List EndpointRow) (page : StatusPageRow) :
    ExportStatusPage :=
  { services := (pageServiceRowsOf db page.id).filterMap fun s =>
      (serviceRows.findIdx? fun e => e.id = s.serviceId).map fun serviceIndex =>
        { serviceIndex, displayName := s.displayName, sortOrder := s.sortOrder } }

/-- One machine user of the payload. -/
def buildExportMachineUser (m : MachineUserRow) : ExportMachineUser :=
  { name := m.name, description := m.description, role := m.role }

/-! ### The payload -/

/-- `buildExportBundle`. -/
def buildExportBundle (toISOString : DateFormat) (db : Tables) (projectId : ℕ) :
    Except ExportError ExportBundle :=
  match db.projects.find? fun p => p.id = projectId with
  | none => .error .projectNotFound
  | some project => do
      let credentialRows := credentialRowsOf db projectId
      let credentials ← credentialRows.mapM (buildExportCredential toISOString db)
      let rotationRows := Db.sortAsc (fun r => r.initiatedAt.ms)
        (db.rotations.filter fun r => r.projectId = projectId)
      let serviceRows := serviceRowsOf db projectId
      let statusPageRow := db.statusPages.find? fun p => p.projectId = projectId
      return {
        project := { name := project.name, description := project.description, tags := project.tags }
        credentials
        credentialDependencies :=
          (dependencyRowsOf db credentialRows).map (buildExportDependency credentialRows)
        rotations := rotationRows.flatMap (buildExportRotation toISOString db credentialRows)
        certRecords := (db.certRecords.filter fun c => c.projectId = projectId).map
          (buildExportCertRecord toISOString)
        domainRecords := (db.domainRecords.filter fun d => d.projectId = projectId).map
          (buildExportDomainRecord toISOString)
        serviceEndpoints := serviceRows.map buildExportServiceEndpoint
        statusPages := (statusPageRow.map (buildExportStatusPage db serviceRows)).toList
        machineUsers := (db.machineUsers.filter fun m => m.projectId = projectId).map
          buildExportMachineUser }

end ProjectVault.ProjectExport
