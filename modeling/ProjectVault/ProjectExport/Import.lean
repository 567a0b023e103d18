import ProjectVault.ProjectExport.Tables

/-!
The import of a project (`project-export/import-service.ts`, `project-export/import-name.ts`, and
`createProject` as far as an import meets it).
-/

namespace ProjectVault.ProjectExport

open Js

/-- What an import depends on besides the payload and the tables. -/
structure ImportContext where
  orgId : ℕ
  userId : ℕ
  /-- `new Date()` and `now()`. -/
  now : Timestamp
  /-- `Date.parse`; `none` is an invalid date. -/
  parseDate : String → Option ℤ
  /-- `lower(btrim(…))` of the database. -/
  normalizeName : String → String
  /-- The decision of the policy hook on project creation. -/
  creationPermitted : Bool
  /-- Another project of the organization has taken the slug. -/
  slugTaken : Bool

/-! ### The name -/

/-- `IMPORT_NAME_MAX_LENGTH`. -/
def importNameMaxLength : ℕ := 128

/-- `MAX_IMPORT_NAME_ATTEMPTS`. -/
def maxImportNameAttempts : ℕ := 50

/-- `importSuffix`. -/
def importSuffix (attempt : ℕ) : String :=
  if attempt = 1 then " (imported)" else " (imported " ++ toString attempt ++ ")"

/-- `slice(0, n)` on code units; half of a surrogate pair is stored as `U+FFFD`. -/
def takeUnits : ℕ → List Char → List Char
  | _, [] => []
  | n, c :: cs =>
    let width := if c.toNat < 0x10000 then 1 else 2
    if width ≤ n then c :: takeUnits (n - width) cs else if n = 1 then ['\uFFFD'] else []

/-- `trimEnd`, on characters. -/
def trimEnd (cs : List Char) : List Char := (cs.reverse.dropWhile isTrimmable).reverse

/-- `buildImportNameCandidates`. -/
def buildImportNameCandidates (baseName : String) : List String :=
  let trimmed := trim baseName
  trimmed :: (List.range maxImportNameAttempts).map fun i =>
    let suffix := importSuffix (i + 1)
    String.ofList (trimEnd (takeUnits (importNameMaxLength - Js.length suffix) trimmed.toList)) ++
      suffix

/-- `pickImportName`. -/
def pickImportName (candidates : List String) (taken : String → Bool) : String :=
  (candidates.find? fun c => !taken c).getD (candidates.getLastD "")

/-- `resolveImportProjectName`: the candidates are parameters of one query. -/
def resolveImportProjectName (ctx : ImportContext) (db : Tables) (bundleName : String) :
    Except ImportError String := do
  let candidates := buildImportNameCandidates bundleName
  let taken := fun c => db.projects.any fun p =>
    p.orgId = ctx.orgId && p.archivedAt = none && ctx.normalizeName p.name = ctx.normalizeName c
  checked "projects" (candidates.all storableText)
    (if taken (trim bundleName) then pickImportName candidates taken else bundleName)

/-! ### The project -/

/-- The errors `createProject` returns. -/
inductive CreateProjectError where
  | projectCreationNotPermitted | projectSlugTaken

/-- The row `createProject` inserts. -/
def projectRow (ctx : ImportContext) (id : ℕ) (name : String) (description : Option String) :
    ProjectRow :=
  { id, orgId := ctx.orgId, name, description, tags := [], createdBy := some ctx.userId,
    archivedAt := none }

/-- `createProject`, for a request without a slug and a request id of its own. -/
def createProject (ctx : ImportContext) (db : Tables) (name : String)
    (description : Option String) :
    Except ImportError (Except CreateProjectError (ProjectRow × Tables)) :=
  if ctx.creationPermitted = false then .ok (.error .projectCreationNotPermitted)
  else do
    let row := projectRow ctx db.nextId name description
    let db' ← db.insertProject row
    if ctx.slugTaken then return .error .projectSlugTaken else return .ok (row, db')

/-! ### Credentials -/

/-- `value ? new Date(value) : null`, written to a timestamp column. -/
def dateColumn (ctx : ImportContext) : Option String → Except ImportError (Option Timestamp)
  | none => .ok none
  | some s =>
    if s = "" then .ok none
    else
      match ctx.parseDate s with
      | none => .error .rangeError
      | some ms =>
        match Timestamp.ofDate ms with
        | none => .error (.refused "timestamptz")
        | some t => .ok (some t)

/-- `ImportTarget`. -/
structure ImportTarget where
  ctx : ImportContext
  projectId : ℕ

/-- `newVersionIdByKey`, under the pairs of credential index and version number its keys spell. -/
abbrev VersionIds := ℕ × ℕ → Option ℕ

/-- `InsertedCredentials`. -/
structure InsertedCredentials where
  newCredentialIds : List ℕ
  newVersionIdByKey : VersionIds

/-- The row of an imported version. -/
def versionRow (target : ImportTarget) (keyVersion credentialId id : ℕ) (version : ExportVersion) :
    VersionRow :=
  let encryptedValue := version.value.map encryptValue
  { id, orgId := target.ctx.orgId, credentialId, encryptedValue
    keyVersion := if encryptedValue.isSome then some keyVersion else none
    versionNumber := version.versionNumber, rotationLockedAt := none
    purgedAt := if encryptedValue.isSome then none else some target.ctx.now
    breakGlassOverlapExpiresAt := none, abandonedAt := none
    promotedAt := if version.promoted then some target.ctx.now else none
    createdBy := none, createdAt := target.ctx.now, schemaVersion := version.schemaVersion
    fieldMeta := version.fieldMeta }

/-- `insertCredentialVersions`: the id of the version marked current, the ids by key, and the
tables. -/
def insertCredentialVersions (target : ImportTarget) (credential : ExportCredential)
    (credentialId credentialIndex keyVersion : ℕ) :
    List ExportVersion → Option ℕ → VersionIds → Tables →
      Except ImportError (Option ℕ × VersionIds × Tables)
  | [], current, ids, db => .ok (current, ids, db)
  | version :: rest, current, ids, db => do
      let id := db.nextId
      let db ← db.insertVersion (versionRow target keyVersion credentialId id version)
      insertCredentialVersions target credential credentialId credentialIndex keyVersion rest
        (if credential.currentVersionNumber = some version.versionNumber then some id else current)
        (Function.update ids (credentialIndex, version.versionNumber) (some id)) db

/-- The row of an imported credential. -/
def credentialRow (target : ImportTarget) (id : ℕ) (credential : ExportCredential)
    (expiresAt : Option Timestamp) : CredentialRow :=
  { id, orgId := target.ctx.orgId, projectId := target.projectId, name := credential.name
    description := credential.description, tags := credential.tags, expiresAt
    alertLeadDays := credential.alertLeadDays, notifiedLeadDays := []
    rotationSchedule := credential.rotationSchedule
    retentionCount := credential.retentionCount, cacheable := credential.cacheable
    currentVersionId := none, createdBy := some target.ctx.userId, createdAt := target.ctx.now
    archivedAt := none }

/-- One round of `insertCredentialsAndVersions`. -/
def insertOneCredential (target : ImportTarget) (keyVersion : ℕ) (credential : ExportCredential)
    (inserted : InsertedCredentials) (db : Tables) :
    Except ImportError (InsertedCredentials × Tables) := do
  let expiresAt ← dateColumn target.ctx credential.expiresAt
  let id := db.nextId
  let db ← db.insertCredential (credentialRow target id credential expiresAt)
  let credentialIndex := inserted.newCredentialIds.length
  let (current, ids, db) ← insertCredentialVersions target credential id credentialIndex
    keyVersion credential.versions none inserted.newVersionIdByKey db
  return ({ newCredentialIds := inserted.newCredentialIds ++ [id], newVersionIdByKey := ids },
    db.setCurrentVersion id current)

/-- The loop of `insertCredentialsAndVersions`. -/
def insertCredentialsFrom (target : ImportTarget) (keyVersion : ℕ) :
    List ExportCredential → InsertedCredentials → Tables →
      Except ImportError (InsertedCredentials × Tables)
  | [], inserted, db => .ok (inserted, db)
  | credential :: rest, inserted, db => do
      let (inserted, db) ← insertOneCredential target keyVersion credential inserted db
      insertCredentialsFrom target keyVersion rest inserted db

/-- `insertCredentialsAndVersions`. -/
def insertCredentialsAndVersions (target : ImportTarget) (bundle : ExportBundle) (db : Tables) :
    Except ImportError (InsertedCredentials × Tables) :=
  insertCredentialsFrom target (db.keyVersion.getD 1) bundle.credentials
    { newCredentialIds := [], newVersionIdByKey := fun _ => none } db

/-! ### Dependencies and rotations -/

/-- The row of an imported dependency. -/
def dependencyRow (target : ImportTarget) (credentialId id : ℕ) (dep : ExportDependency) :
    DependencyRow :=
  { id, orgId := target.ctx.orgId, credentialId, systemName := dep.systemName
    systemType := dep.systemType, notes := dep.notes, linkUrl := dep.linkUrl
    fieldKey := dep.fieldKey, createdBy := some target.ctx.userId, archivedAt := none }

/-- The dependencies whose index names a credential, each with the id of it. -/
def dependenciesInRange (newCredentialIds : List ℕ) (deps : List ExportDependency) :
    List (ℕ × ExportDependency) :=
  deps.filterMap fun dep => newCredentialIds[dep.credentialIndex]?.map fun id => (id, dep)

/-- `insertDependencies`: one whose index names no credential is left out. -/
def insertDependencies (target : ImportTarget) (bundle : ExportBundle)
    (newCredentialIds : List ℕ) (db : Tables) : Except ImportError Tables :=
  let inRange := dependenciesInRange newCredentialIds bundle.credentialDependencies
  if inRange = [] then .ok db
  else db.insertDependencies
    (inRange.mapIdx fun i p => dependencyRow target p.1 (db.nextId + i) p.2)

/-- The row of an imported checklist item. -/
def checklistRow (target : ImportTarget) (rotationId id : ℕ) (item : ExportChecklistItem)
    (confirmedAt lastActedAt : Option Timestamp) : ChecklistRow :=
  { id, orgId := target.ctx.orgId, rotationId, dependencyId := none, systemName := item.systemName
    status := item.status, confirmedBy := none, confirmedAt, notes := item.notes
    retryCount := item.retryCount, retryScheduledAt := none
    lastFailureReason := item.lastFailureReason, lastActedBy := none, lastActedAt }

/-- The rows of the checklist items of a rotation, numbered from `id`. -/
def checklistRows (target : ImportTarget) (rotationId : ℕ) :
    List ExportChecklistItem → ℕ → Except ImportError (List ChecklistRow)
  | [], _ => .ok []
  | item :: rest, id => do
      let confirmedAt ← dateColumn target.ctx item.confirmedAt
      let lastActedAt ← dateColumn target.ctx item.lastActedAt
      let rows ← checklistRows target rotationId rest (id + 1)
      return checklistRow target rotationId id item confirmedAt lastActedAt :: rows

/-- The points of time of an imported rotation. -/
structure RotationDates where
  initiatedAt : Option Timestamp
  completedAt : Option Timestamp
  promotedAt : Option Timestamp
  retiredAt : Option Timestamp

/-- The date columns of a rotation. -/
def rotationDates (ctx : ImportContext) (rotation : ExportRotation) :
    Except ImportError RotationDates := do
  let initiatedAt ← dateColumn ctx rotation.initiatedAt
  let completedAt ← dateColumn ctx rotation.completedAt
  let promotedAt ← dateColumn ctx rotation.promotedAt
  let retiredAt ← dateColumn ctx rotation.retiredAt
  return { initiatedAt, completedAt, promotedAt, retiredAt }

/-- The row of an imported rotation. -/
def rotationRow (target : ImportTarget) (credentialId newVersionId previousVersionId id : ℕ)
    (rotation : ExportRotation) (dates : RotationDates) : RotationRow :=
  { id, orgId := target.ctx.orgId, projectId := target.projectId, credentialId, newVersionId
    previousVersionId, status := rotation.status, version := 1, initiatedBy := none
    initiatedAt := dates.initiatedAt.getD target.ctx.now, completedAt := dates.completedAt
    promotedAt := dates.promotedAt, retiredAt := dates.retiredAt, notes := rotation.notes
    targetFields := rotation.targetFields, createdAt := target.ctx.now
    updatedAt := target.ctx.now }

/-- The statements of `insertOneRotation` for a rotation whose versions are known. -/
def insertRotationBetween (target : ImportTarget) (credentialId newVersionId previousVersionId : ℕ)
    (rotation : ExportRotation) (db : Tables) : Except ImportError Tables := do
  let dates ← rotationDates target.ctx rotation
  let id := db.nextId
  let db ← db.insertRotation
    (rotationRow target credentialId newVersionId previousVersionId id rotation dates)
  if rotation.checklistItems = [] then .ok db
  else checklistRows target id rotation.checklistItems db.nextId >>= db.insertChecklistItems

/-- `insertOneRotation`: one that names a version the credential does not have is left out. -/
def insertOneRotation (target : ImportTarget) (inserted : InsertedCredentials)
    (rotation : ExportRotation) (db : Tables) : Except ImportError Tables :=
  match inserted.newVersionIdByKey (rotation.credentialIndex, rotation.newVersionNumber),
      inserted.newVersionIdByKey (rotation.credentialIndex, rotation.previousVersionNumber) with
  | some newVersionId, some previousVersionId =>
    insertRotationBetween target (inserted.newCredentialIds.getD rotation.credentialIndex 0)
      newVersionId previousVersionId rotation db
  | _, _ => .ok db

/-- `insertRotations`. -/
def insertRotations (target : ImportTarget) (inserted : InsertedCredentials) :
    List ExportRotation → Tables → Except ImportError Tables
  | [], db => .ok db
  | rotation :: rest, db => do
      let db ← insertOneRotation target inserted rotation db
      insertRotations target inserted rest db

/-! ### Monitoring -/

/-- The row of an imported certificate. -/
def certRow (target : ImportTarget) (id : ℕ) (cert : ExportCertRecord)
    (expiresAt : Option Timestamp) : CertRow :=
  { id, orgId := target.ctx.orgId, projectId := target.projectId, domain := cert.domain, expiresAt
    alertLeadDays := cert.alertLeadDays, notifiedLeadDays := []
    createdBy := some target.ctx.userId }

/-- The rows of the certificates, numbered from `id`. -/
def certRows (target : ImportTarget) :
    List ExportCertRecord → ℕ → Except ImportError (List CertRow)
  | [], _ => .ok []
  | cert :: rest, id => do
      let expiresAt ← dateColumn target.ctx cert.expiresAt
      let rows ← certRows target rest (id + 1)
      return certRow target id cert expiresAt :: rows

/-- The row of an imported domain. -/
def domainRow (target : ImportTarget) (id : ℕ) (record : ExportDomainRecord)
    (renewalDate : Option Timestamp) : DomainRow :=
  { id, orgId := target.ctx.orgId, projectId := target.projectId, domainName := record.domainName
    renewalDate, alertLeadDays := record.alertLeadDays, notifiedLeadDays := []
    createdBy := some target.ctx.userId }

/-- The rows of the domains, numbered from `id`. -/
def domainRows (target : ImportTarget) :
    List ExportDomainRecord → ℕ → Except ImportError (List DomainRow)
  | [], _ => .ok []
  | record :: rest, id => do
      let renewalDate ← dateColumn target.ctx record.renewalDate
      let rows ← domainRows target rest (id + 1)
      return domainRow target id record renewalDate :: rows

/-- The first half of `insertCertAndDomainRecords`. -/
def insertCerts (target : ImportTarget) (certs : List ExportCertRecord) (db : Tables) :
    Except ImportError Tables :=
  if certs = [] then .ok db else certRows target certs db.nextId >>= db.insertCertRecords

/-- The second half of `insertCertAndDomainRecords`. -/
def insertDomains (target : ImportTarget) (domains : List ExportDomainRecord) (db : Tables) :
    Except ImportError Tables :=
  if domains = [] then .ok db else domainRows target domains db.nextId >>= db.insertDomainRecords

/-- `insertCertAndDomainRecords`. -/
def insertCertAndDomainRecords (target : ImportTarget) (bundle : ExportBundle) (db : Tables) :
    Except ImportError Tables := do
  let db ← insertCerts target bundle.certRecords db
  insertDomains target bundle.domainRecords db

/-- The row of an imported endpoint. -/
def endpointRow (target : ImportTarget) (id : ℕ) (endpoint : ExportServiceEndpoint) :
    EndpointRow :=
  { id, orgId := target.ctx.orgId, projectId := target.projectId, name := endpoint.name
    url := endpoint.url, checkFrequencyMinutes := endpoint.checkFrequencyMinutes
    downThresholdFailures := endpoint.downThresholdFailures
    createdBy := some target.ctx.userId, createdAt := target.ctx.now }

/-- The loop over the endpoints, with the ids inserted so far. -/
def insertEndpoints (target : ImportTarget) :
    List ExportServiceEndpoint → List ℕ → Tables → Except ImportError (List ℕ × Tables)
  | [], newServiceIds, db => .ok (newServiceIds, db)
  | endpoint :: rest, newServiceIds, db => do
      let id := db.nextId
      let db ← db.insertEndpoint (endpointRow target id endpoint)
      insertEndpoints target rest (newServiceIds ++ [id]) db

/-- The row of a status page. -/
def statusPageRow (target : ImportTarget) (id : ℕ) : StatusPageRow :=
  { id, orgId := target.ctx.orgId, projectId := target.projectId,
    createdBy := some target.ctx.userId }

/-- `enableStatusPage`; its key and token columns are not modelled. -/
def enableStatusPage (target : ImportTarget) (db : Tables) : Except ImportError Tables :=
  if db.statusPages.any fun p => p.projectId = target.projectId then
    .error .statusPageAlreadyEnabled
  else
    .ok { db with statusPages := db.statusPages ++ [statusPageRow target db.nextId],
                  nextId := db.nextId + 1 }

/-- One service of `UpdateStatusPageBody`. -/
structure StatusPageServiceInput where
  serviceId : ℕ
  displayName : String

/-- The row of a service of a status page. -/
def statusPageServiceRow (target : ImportTarget) (statusPageId id sortOrder : ℕ)
    (service : StatusPageServiceInput) : StatusPageServiceRow :=
  { id, orgId := target.ctx.orgId, statusPageId, serviceId := service.serviceId
    displayName := service.displayName, sortOrder }

/-- `updateStatusPageServices`: all services of the page are replaced. -/
def updateStatusPageServices (target : ImportTarget) (services : List StatusPageServiceInput)
    (db : Tables) : Except ImportError Tables :=
  match db.statusPages.find? fun p => p.projectId = target.projectId with
  | none => .error .statusPageNotFound
  | some page =>
    let serviceIds := (services.map StatusPageServiceInput.serviceId).toFinset
    let validIds := ((db.serviceEndpoints.filter fun e =>
      e.id ∈ serviceIds && e.projectId = target.projectId).map EndpointRow.id).toFinset
    if services ≠ [] ∧ validIds.card ≠ serviceIds.card then .error .invalidServiceReference
    else
      let db := { db with
        statusPageServices := db.statusPageServices.filter fun s => s.statusPageId ≠ page.id }
      db.insertStatusPageServices (services.mapIdx fun i service =>
        statusPageServiceRow target page.id (db.nextId + i) i service)

/-- The services of the page in their order, those of no imported endpoint left out. -/
def importedServices (newServiceIds : List ℕ) (page : ExportStatusPage) :
    List StatusPageServiceInput :=
  ((page.services.filter fun svc => newServiceIds[svc.serviceIndex]?.isSome).insertionSort
    fun a b => a.sortOrder ≤ b.sortOrder).map fun svc =>
      { serviceId := newServiceIds.getD svc.serviceIndex 0, displayName := svc.displayName }

/-- The second half of `insertServiceEndpointsAndStatusPage`: no endpoint, no page. -/
def insertStatusPage (target : ImportTarget) (newServiceIds : List ℕ) :
    Option ExportStatusPage → Tables → Except ImportError Tables
  | none, db => .ok db
  | some page, db =>
    if newServiceIds = [] then .ok db
    else do
      let db ← enableStatusPage target db
      let services := importedServices newServiceIds page
      if services = [] then .ok db else updateStatusPageServices target services db

/-- `insertServiceEndpointsAndStatusPage`. -/
def insertServiceEndpointsAndStatusPage (target : ImportTarget) (bundle : ExportBundle)
    (db : Tables) : Except ImportError Tables := do
  let (newServiceIds, db) ← insertEndpoints target bundle.serviceEndpoints [] db
  insertStatusPage target newServiceIds bundle.statusPages.head? db

/-! ### The whole import -/

/-- The row of an imported machine user. -/
def machineUserRow (target : ImportTarget) (id : ℕ) (user : ExportMachineUser) : MachineUserRow :=
  { id, orgId := target.ctx.orgId, projectId := target.projectId, name := user.name
    description := user.description, role := user.role, createdBy := some target.ctx.userId }

/-- `insertMachineUsers`. -/
def insertMachineUsers (target : ImportTarget) (bundle : ExportBundle) (db : Tables) :
    Except ImportError Tables :=
  if bundle.machineUsers = [] then .ok db
  else db.insertMachineUsers
    (bundle.machineUsers.mapIdx fun i user => machineUserRow target (db.nextId + i) user)

/-- The counts an import reports. -/
structure ImportCounts where
  credentials : ℕ
  credentialVersions : ℕ
  credentialDependencies : ℕ
  rotations : ℕ
  certRecords : ℕ
  domainRecords : ℕ
  serviceEndpoints : ℕ
  statusPages : ℕ
  machineUsers : ℕ
  deriving DecidableEq

/-- `summarizeImportedCounts`. -/
def summarizeImportedCounts (bundle : ExportBundle) : ImportCounts :=
  { credentials := bundle.credentials.length
    credentialVersions := (bundle.credentials.map fun c => c.versions.length).sum
    credentialDependencies := bundle.credentialDependencies.length
    rotations := bundle.rotations.length
    certRecords := bundle.certRecords.length
    domainRecords := bundle.domainRecords.length
    serviceEndpoints := bundle.serviceEndpoints.length
    statusPages := bundle.statusPages.length
    machineUsers := bundle.machineUsers.length }

/-- `ImportProjectBundleResult`. -/
inductive ImportProjectBundleResult where
  | createProjectFailed (error : CreateProjectError)
  | ok (projectId : ℕ) (name : String) (counts : ImportCounts)

/-- The name of the new project: an explicit one is kept. -/
def importName (ctx : ImportContext) (db : Tables) (projectNameOverride : Option String)
    (bundleName : String) : Except ImportError String :=
  let overrideName := trim (projectNameOverride.getD "")
  if overrideName = "" then resolveImportProjectName ctx db bundleName else .ok overrideName

/-- The rows of a created project. -/
def populateProject (target : ImportTarget) (bundle : ExportBundle) (db : Tables) :
    Except ImportError Tables := do
  let (inserted, db) ← insertCredentialsAndVersions target bundle db
  let db ← insertDependencies target bundle inserted.newCredentialIds db
  let db ← insertRotations target inserted bundle.rotations db
  let db ← insertCertAndDomainRecords target bundle db
  let db ← insertServiceEndpointsAndStatusPage target bundle db
  insertMachineUsers target bundle db

/-- `importProjectBundle`. -/
def importProjectBundle (ctx : ImportContext) (db : Tables) (projectNameOverride : Option String)
    (bundle : ExportBundle) : Except ImportError (ImportProjectBundleResult × Tables) := do
  let name ← importName ctx db projectNameOverride bundle.project.name
  let created ← createProject ctx db name bundle.project.description
  match created with
  | .error e => return (.createProjectFailed e, db)
  | .ok (project, db) => do
      let db ← populateProject ⟨ctx, project.id⟩ bundle db
      return (.ok project.id project.name (summarizeImportedCounts bundle), db)

end ProjectVault.ProjectExport
