import ProjectVault.Credentials.Schema
import ProjectVault.Js.Codec

/-!
The payload of a project export (`project-export/schema.ts`) and the checks on it.

Whole numbers are naturals where the schema asks for them to be non-negative.
-/

namespace ProjectVault.ProjectExport

open Js

/-- `EXPORT_FORMAT_VERSION`. -/
def exportFormatVersion : ℤ := 1

/-- `MAX_IMPORT_CREDENTIALS`. -/
def maxImportCredentials : ℕ := 2000

/-- `MAX_VERSIONS_PER_CREDENTIAL`. -/
def maxVersionsPerCredential : ℕ := 1000

/-- `MAX_DEPENDENCIES`. -/
def maxDependencies : ℕ := 5000

/-- `MAX_ROTATIONS`. -/
def maxRotations : ℕ := 5000

/-- `MAX_CHECKLIST_ITEMS_PER_ROTATION`. -/
def maxChecklistItemsPerRotation : ℕ := 200

/-- `MAX_CERT_RECORDS`. -/
def maxCertRecords : ℕ := 2000

/-- `MAX_DOMAIN_RECORDS`. -/
def maxDomainRecords : ℕ := 2000

/-- `MAX_SERVICE_ENDPOINTS`. -/
def maxServiceEndpoints : ℕ := 2000

/-- `MAX_STATUS_PAGES`. -/
def maxStatusPages : ℕ := 1

/-- `MAX_STATUS_PAGE_SERVICES`. -/
def maxStatusPageServices : ℕ := 2000

/-- `MAX_MACHINE_USERS`. -/
def maxMachineUsers : ℕ := 2000

/-! ### Enumerations -/

/-- The values of `credential_dependencies.system_type`. -/
inductive SystemType where
  | service | ciPipeline | database | thirdParty | other
  deriving DecidableEq

/-- The literal of a system type. -/
def SystemType.literal : SystemType → String
  | .service => "service"
  | .ciPipeline => "ci_pipeline"
  | .database => "database"
  | .thirdParty => "third_party"
  | .other => "other"

/-- The literal of a checklist status. -/
def checklistStatusLiteral : ChecklistStatus → String
  | .unconfirmed => "unconfirmed"
  | .confirmed => "confirmed"
  | .failed => "failed"
  | .maxRetriesExceeded => "max_retries_exceeded"

/-- The literal of a rotation status. -/
def rotationStatusLiteral : RotationStatus → String
  | .inProgress => "in_progress"
  | .staged => "staged"
  | .promoted => "promoted"
  | .retired => "retired"
  | .completed => "completed"
  | .abandoned => "abandoned"
  | .staleRecovery => "stale_recovery"
  | .breakGlassComplete => "break_glass_complete"

/-- The values of `machine_users.role`. -/
inductive MachineUserRole where
  | member | viewer
  deriving DecidableEq

/-- The literal of a machine user's role. -/
def MachineUserRole.literal : MachineUserRole → String
  | .member => "member"
  | .viewer => "viewer"

/-! ### The payload -/

/-- `ExportCredentialVersionSchema`. -/
structure ExportVersion where
  versionNumber : ℕ
  schemaVersion : ℕ
  fieldMeta : Json
  value : Option String
  promoted : Bool
  createdAt : Option String

/-- `ExportCredentialSchema`. -/
structure ExportCredential where
  name : String
  description : Option String
  tags : List String
  expiresAt : Option String
  alertLeadDays : List ℤ
  notifiedLeadDays : List ℤ
  rotationSchedule : Option String
  retentionCount : ℕ
  cacheable : Bool
  createdAt : Option String
  currentVersionNumber : Option ℕ
  versions : List ExportVersion

/-- `ExportDependencySchema`. -/
structure ExportDependency where
  credentialIndex : ℕ
  systemName : String
  systemType : SystemType
  notes : Option String
  linkUrl : Option String
  fieldKey : Option String

/-- `ExportChecklistItemSchema`. -/
structure ExportChecklistItem where
  systemName : String
  status : ChecklistStatus
  confirmedAt : Option String
  notes : Option String
  retryCount : ℕ
  lastFailureReason : Option String
  lastActedAt : Option String

/-- `ExportRotationSchema`. -/
structure ExportRotation where
  credentialIndex : ℕ
  newVersionNumber : ℕ
  previousVersionNumber : ℕ
  status : RotationStatus
  initiatedAt : Option String
  completedAt : Option String
  promotedAt : Option String
  retiredAt : Option String
  notes : Option String
  targetFields : Option (List String)
  checklistItems : List ExportChecklistItem

/-- `ExportCertRecordSchema`. -/
structure ExportCertRecord where
  domain : String
  expiresAt : Option String
  alertLeadDays : List ℤ
  notifiedLeadDays : List ℤ

/-- `ExportDomainRecordSchema`. -/
structure ExportDomainRecord where
  domainName : String
  renewalDate : Option String
  alertLeadDays : List ℤ
  notifiedLeadDays : List ℤ

/-- `ExportServiceEndpointSchema`. -/
structure ExportServiceEndpoint where
  name : String
  url : String
  checkFrequencyMinutes : ℤ
  downThresholdFailures : ℤ

/-- `ExportStatusPageServiceSchema`. -/
structure ExportStatusPageService where
  serviceIndex : ℕ
  displayName : String
  sortOrder : ℤ

/-- `ExportStatusPageSchema`. -/
structure ExportStatusPage where
  services : List ExportStatusPageService

/-- `ExportMachineUserSchema`. -/
structure ExportMachineUser where
  name : String
  description : Option String
  role : MachineUserRole

/-- The `project` member of the payload. -/
structure ExportProject where
  name : String
  description : Option String
  tags : List String

/-- `ExportBundle`. -/
structure ExportBundle where
  project : ExportProject
  credentials : List ExportCredential
  credentialDependencies : List ExportDependency
  rotations : List ExportRotation
  certRecords : List ExportCertRecord
  domainRecords : List ExportDomainRecord
  serviceEndpoints : List ExportServiceEndpoint
  statusPages : List ExportStatusPage
  machineUsers : List ExportMachineUser

/-! ### The schema -/

section Schema

open Codec Fields

/-- `z.string().min(min).max(max)`. -/
def text (min max : ℕ) : Codec String := str fun s => min ≤ Js.length s && Js.length s ≤ max

/-- `z.string().max(max).nullable()`. -/
def nullableText (max : ℕ) : Codec (Option String) := (text 0 max).nullable fun _ h => nomatch h

/-- `nullableIsoString`. -/
def nullableIsoString : Codec (Option String) := nullableText 64

/-- `z.number().int().min(min)`. -/
def atLeast (min : ℕ) : Codec ℕ := nat fun n => min ≤ n

/-- `z.number().int().min(min).max(max)`. -/
def between (min max : ℕ) : Codec ℕ := nat fun n => min ≤ n && n ≤ max

/-- `z.number().int()`. -/
def anyInt : Codec ℤ := int fun _ => true

/-- `leadDaysArraySchema`. -/
def leadDaysArraySchema : Codec (List ℤ) := list anyInt 16

/-- The tags of a project or a credential. -/
def tagsSchema : Codec (List String) := list (text 0 64) 64

/-- `ExportCredentialVersionSchema`. -/
def exportVersionSchema : Codec ExportVersion :=
  object
    (((field "versionNumber" (atLeast 1)).both <|
      (field "schemaVersion" (between 1 1000)).both <|
      (optional "fieldMeta").both <|
      (field "value" (nullableText 1000000)).both <|
      (field "promoted" bool).both <|
      field "createdAt" nullableIsoString))
    (by decide) |>.iso
      (fun (versionNumber, schemaVersion, fieldMeta, value, promoted, createdAt) =>
        { versionNumber, schemaVersion, fieldMeta, value, promoted, createdAt })
      (fun v => (v.versionNumber, v.schemaVersion, v.fieldMeta, v.value, v.promoted, v.createdAt))
      (fun _ => rfl) (fun _ => rfl)

/-- `ExportCredentialSchema`. -/
def exportCredentialSchema : Codec ExportCredential :=
  object
    ((field "name" (text 1 256)).both <|
      (field "description" (nullableText 2048)).both <|
      (field "tags" tagsSchema).both <|
      (field "expiresAt" nullableIsoString).both <|
      (field "alertLeadDays" leadDaysArraySchema).both <|
      (field "notifiedLeadDays" leadDaysArraySchema).both <|
      (field "rotationSchedule" (nullableText 256)).both <|
      (field "retentionCount" (between 1 1000)).both <|
      (field "cacheable" bool).both <|
      (field "createdAt" nullableIsoString).both <|
      (field "currentVersionNumber" ((atLeast 1).nullable fun _ h => nomatch h)).both <|
      field "versions" (list exportVersionSchema maxVersionsPerCredential))
    (by decide) |>.iso
      (fun (name, description, tags, expiresAt, alertLeadDays, notifiedLeadDays, rotationSchedule,
          retentionCount, cacheable, createdAt, currentVersionNumber, versions) =>
        { name, description, tags, expiresAt, alertLeadDays, notifiedLeadDays, rotationSchedule,
          retentionCount, cacheable, createdAt, currentVersionNumber, versions })
      (fun c => (c.name, c.description, c.tags, c.expiresAt, c.alertLeadDays, c.notifiedLeadDays,
        c.rotationSchedule, c.retentionCount, c.cacheable, c.createdAt, c.currentVersionNumber,
        c.versions))
      (fun _ => rfl) (fun _ => rfl)

/-- `ExportDependencySchema`. -/
def exportDependencySchema : Codec ExportDependency :=
  object
    ((field "credentialIndex" (atLeast 0)).both <|
      (field "systemName" (text 1 256)).both <|
      (field "systemType" (enum [.service, .ciPipeline, .database, .thirdParty, .other]
        SystemType.literal (by intro a; cases a <;> decide)
        (by intro a b h; cases a <;> cases b <;> first | rfl | exact absurd h (by decide)))).both <|
      (field "notes" (nullableText 2048)).both <|
      (field "linkUrl" (nullableText 2048)).both <|
      field "fieldKey" (nullableText 256))
    (by decide) |>.iso
      (fun (credentialIndex, systemName, systemType, notes, linkUrl, fieldKey) =>
        { credentialIndex, systemName, systemType, notes, linkUrl, fieldKey })
      (fun d => (d.credentialIndex, d.systemName, d.systemType, d.notes, d.linkUrl, d.fieldKey))
      (fun _ => rfl) (fun _ => rfl)

/-- `ExportChecklistItemSchema`. -/
def exportChecklistItemSchema : Codec ExportChecklistItem :=
  object
    ((field "systemName" (text 0 256)).both <|
      (field "status" (enum [.unconfirmed, .confirmed, .failed, .maxRetriesExceeded]
        checklistStatusLiteral (by intro a; cases a <;> decide)
        (by intro a b h; cases a <;> cases b <;> first | rfl | exact absurd h (by decide)))).both <|
      (field "confirmedAt" nullableIsoString).both <|
      (field "notes" (nullableText 2048)).both <|
      (field "retryCount" (between 0 100000)).both <|
      (field "lastFailureReason" (nullableText 2048)).both <|
      field "lastActedAt" nullableIsoString)
    (by decide) |>.iso
      (fun (systemName, status, confirmedAt, notes, retryCount, lastFailureReason, lastActedAt) =>
        { systemName, status, confirmedAt, notes, retryCount, lastFailureReason, lastActedAt })
      (fun i => (i.systemName, i.status, i.confirmedAt, i.notes, i.retryCount, i.lastFailureReason,
        i.lastActedAt))
      (fun _ => rfl) (fun _ => rfl)

/-- `ExportRotationSchema`. -/
def exportRotationSchema : Codec ExportRotation :=
  object
    ((field "credentialIndex" (atLeast 0)).both <|
      (field "newVersionNumber" (atLeast 1)).both <|
      (field "previousVersionNumber" (atLeast 1)).both <|
      (field "status" (enum [.inProgress, .staged, .promoted, .retired, .completed, .abandoned,
          .staleRecovery, .breakGlassComplete]
        rotationStatusLiteral (by intro a; cases a <;> decide)
        (by intro a b h; cases a <;> cases b <;> first | rfl | exact absurd h (by decide)))).both <|
      (field "initiatedAt" nullableIsoString).both <|
      (field "completedAt" nullableIsoString).both <|
      (field "promotedAt" nullableIsoString).both <|
      (field "retiredAt" nullableIsoString).both <|
      (field "notes" (nullableText 2048)).both <|
      (field "targetFields" ((list (text 0 256) 64).nullable fun _ h => nomatch h)).both <|
      field "checklistItems" (list exportChecklistItemSchema maxChecklistItemsPerRotation))
    (by decide) |>.iso
      (fun (credentialIndex, newVersionNumber, previousVersionNumber, status, initiatedAt,
          completedAt, promotedAt, retiredAt, notes, targetFields, checklistItems) =>
        { credentialIndex, newVersionNumber, previousVersionNumber, status, initiatedAt,
          completedAt, promotedAt, retiredAt, notes, targetFields, checklistItems })
      (fun r => (r.credentialIndex, r.newVersionNumber, r.previousVersionNumber, r.status,
        r.initiatedAt, r.completedAt, r.promotedAt, r.retiredAt, r.notes, r.targetFields,
        r.checklistItems))
      (fun _ => rfl) (fun _ => rfl)

/-- `ExportCertRecordSchema`. -/
def exportCertRecordSchema : Codec ExportCertRecord :=
  object
    ((field "domain" (text 1 256)).both <|
      (field "expiresAt" nullableIsoString).both <|
      (field "alertLeadDays" leadDaysArraySchema).both <|
      field "notifiedLeadDays" leadDaysArraySchema)
    (by decide) |>.iso
      (fun (domain, expiresAt, alertLeadDays, notifiedLeadDays) =>
        { domain, expiresAt, alertLeadDays, notifiedLeadDays })
      (fun c => (c.domain, c.expiresAt, c.alertLeadDays, c.notifiedLeadDays))
      (fun _ => rfl) (fun _ => rfl)

/-- `ExportDomainRecordSchema`. -/
def exportDomainRecordSchema : Codec ExportDomainRecord :=
  object
    ((field "domainName" (text 1 256)).both <|
      (field "renewalDate" nullableIsoString).both <|
      (field "alertLeadDays" leadDaysArraySchema).both <|
      field "notifiedLeadDays" leadDaysArraySchema)
    (by decide) |>.iso
      (fun (domainName, renewalDate, alertLeadDays, notifiedLeadDays) =>
        { domainName, renewalDate, alertLeadDays, notifiedLeadDays })
      (fun d => (d.domainName, d.renewalDate, d.alertLeadDays, d.notifiedLeadDays))
      (fun _ => rfl) (fun _ => rfl)

/-- `ExportServiceEndpointSchema`. -/
def exportServiceEndpointSchema : Codec ExportServiceEndpoint :=
  object
    ((field "name" (text 1 256)).both <|
      (field "url" (text 1 2048)).both <|
      (field "checkFrequencyMinutes" anyInt).both <|
      field "downThresholdFailures" anyInt)
    (by decide) |>.iso
      (fun (name, url, checkFrequencyMinutes, downThresholdFailures) =>
        { name, url, checkFrequencyMinutes, downThresholdFailures })
      (fun e => (e.name, e.url, e.checkFrequencyMinutes, e.downThresholdFailures))
      (fun _ => rfl) (fun _ => rfl)

/-- `ExportStatusPageServiceSchema`. -/
def exportStatusPageServiceSchema : Codec ExportStatusPageService :=
  object
    ((field "serviceIndex" (atLeast 0)).both <|
      (field "displayName" (text 1 100)).both <|
      field "sortOrder" anyInt)
    (by decide) |>.iso
      (fun (serviceIndex, displayName, sortOrder) => { serviceIndex, displayName, sortOrder })
      (fun s => (s.serviceIndex, s.displayName, s.sortOrder))
      (fun _ => rfl) (fun _ => rfl)

/-- `ExportStatusPageSchema`. -/
def exportStatusPageSchema : Codec ExportStatusPage :=
  object (field "services" (list exportStatusPageServiceSchema maxStatusPageServices))
    (by decide) |>.iso (fun services => { services }) (fun p => p.services)
      (fun _ => rfl) (fun _ => rfl)

/-- `ExportMachineUserSchema`. -/
def exportMachineUserSchema : Codec ExportMachineUser :=
  object
    ((field "name" (text 1 128)).both <|
      (field "description" (nullableText 2048)).both <|
      field "role" (enum [.member, .viewer] MachineUserRole.literal (by intro a; cases a <;> decide)
        (by intro a b h; cases a <;> cases b <;> first | rfl | exact absurd h (by decide))))
    (by decide) |>.iso
      (fun (name, description, role) => { name, description, role })
      (fun m => (m.name, m.description, m.role))
      (fun _ => rfl) (fun _ => rfl)

/-- The schema of the `project` member. -/
def exportProjectSchema : Codec ExportProject :=
  object
    ((field "name" (text 1 128)).both <|
      (field "description" (nullableText 512)).both <|
      field "tags" tagsSchema)
    (by decide) |>.iso
      (fun (name, description, tags) => { name, description, tags })
      (fun p => (p.name, p.description, p.tags))
      (fun _ => rfl) (fun _ => rfl)

/-- `z.literal(EXPORT_FORMAT_VERSION)`. -/
def formatVersionSchema : Codec Unit where
  encode _ := .num (NumLit.ofInt exportFormatVersion)
  decode
    | .num n => if n.int? = some exportFormatVersion then some () else none
    | _ => none
  Accepts _ := True
  decode_encode := by
    rintro ⟨⟩ ⟨⟩
    simp [NumLit.int?_ofInt]
  accepts_of_decode _ := trivial

/-- `ExportBundleSchema`. -/
def exportBundleSchema : Codec ExportBundle :=
  object
    ((field "exportFormatVersion" formatVersionSchema).both <|
      (field "project" exportProjectSchema).both <|
      (field "credentials" (list exportCredentialSchema maxImportCredentials)).both <|
      (field "credentialDependencies" (list exportDependencySchema maxDependencies)).both <|
      (field "rotations" (list exportRotationSchema maxRotations)).both <|
      (field "certRecords" (list exportCertRecordSchema maxCertRecords)).both <|
      (field "domainRecords" (list exportDomainRecordSchema maxDomainRecords)).both <|
      (field "serviceEndpoints" (list exportServiceEndpointSchema maxServiceEndpoints)).both <|
      (field "statusPages" (list exportStatusPageSchema maxStatusPages)).both <|
      field "machineUsers" (list exportMachineUserSchema maxMachineUsers))
    (by decide) |>.iso
      (fun ((), project, credentials, credentialDependencies, rotations, certRecords,
          domainRecords, serviceEndpoints, statusPages, machineUsers) =>
        { project, credentials, credentialDependencies, rotations, certRecords, domainRecords,
          serviceEndpoints, statusPages, machineUsers })
      (fun b => ((), b.project, b.credentials, b.credentialDependencies, b.rotations,
        b.certRecords, b.domainRecords, b.serviceEndpoints, b.statusPages, b.machineUsers))
      (fun _ => rfl) (fun _ => rfl)

end Schema

/-! ### The gates -/

/-- `FormatVersionCheckResult`. -/
inductive FormatVersionCheckResult where
  | ok
  | unsupported (found : Option Json)

/-- `checkExportFormatVersion`: the version is compared before anything else is read. -/
def checkExportFormatVersion (json : Json) : FormatVersionCheckResult :=
  match json.get? "exportFormatVersion" with
  | some (.num n) =>
    if n.int? = some exportFormatVersion then .ok else .unsupported (some (.num n))
  | some found => .unsupported (some found)
  | none => .unsupported none

/-- `parseExportBundle`; `none` is `invalid_payload`. -/
def parseExportBundle (json : Json) : Option ExportBundle := exportBundleSchema.decode json

end ProjectVault.ProjectExport
