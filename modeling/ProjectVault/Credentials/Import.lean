import ProjectVault.Credentials.Service

/-!
Bulk import of credentials (`credentials/import-service.ts`).
-/

namespace ProjectVault

open Js

/-- `IMPORT_ENTRY_LIMIT`. -/
def importEntryLimit : ℕ := 500

/-- `IMPORT_TTL_MS`. -/
def importTtlMs : ℕ := 15 * 60 * 1000

/-- `IMPORT_FIELD_META`. -/
def importFieldMeta : List FieldMeta :=
  [{ key := defaultFieldKey, sensitive := true, template := none, kind := none }]

/-- `importFieldEnvelope`. -/
def importFieldEnvelope (value : String) : String :=
  stringify (.arr [.obj [("key", .str defaultFieldKey), ("value", .str value),
    ("sensitive", .bool true)]])

/-- `insertImportedVersionRow`. -/
def insertImportedVersionRow (s : Store) (now : ℕ) (orgId credentialId : ℕ)
    (versionNumber : ℕ) (userId : ℕ) (item : PendingImportItem) : Except VaultError Store := do
  let (_, s) ← insertVersionAndSetCurrent s now
    { orgId, credentialId, encryptedValue := item.encryptedValue, keyVersion := item.keyVersion,
      versionNumber, createdBy := userId, schemaVersion := 2, fieldMeta := some importFieldMeta }
  return s

/-! ### Staging -/

/-- `findProjectInOrg`: the project exists and is not archived. -/
def findProjectInOrg (s : Store) (projectId : ℕ) : Bool :=
  s.projects.any fun p => p.id = projectId ∧ p.archivedAt = none

/-- The credential an entry of a given name conflicts with: a later row of the
same name replaces an earlier one in the map. -/
def importConflict (s : Store) (projectId : ℕ) (name : String) : Option ℕ :=
  (s.credentials.reverse.find? fun c => c.projectId = projectId ∧ c.name = name).map
    Credential.id

/-- `encryptImportEntries`, one entry. -/
def encryptImportEntry (s : Store) (projectId : ℕ) (entry : String × String) :
    PendingImportItem :=
  let conflictsWith := importConflict s projectId entry.1
  { name := entry.1, encryptedValue := encryptValue (importFieldEnvelope entry.2),
    keyVersion := currentKeyVersion s, conflictsWith,
    suggestedAction := if conflictsWith.isSome then .newVersion else .createNew }

/-- The arguments of `stageCredentialImport`, the file already parsed. -/
structure StageImportInput where
  orgId : ℕ
  projectId : ℕ
  entries : List (String × String)

/-- The answers of `stageCredentialImport`. -/
inductive StageImportResult where
  | projectNotFound
  | tooLarge (found : ℕ)
  | ok (importId : ℕ) (items : List PendingImportItem)

/-- `stageCredentialImport`. -/
def stageCredentialImport (s : Store) (now : ℕ) (input : StageImportInput) :
    StageImportResult × Store :=
  if findProjectInOrg s input.projectId = false then (.projectNotFound, s)
  else if input.entries.length > importEntryLimit then (.tooLarge input.entries.length, s)
  else
    let items := input.entries.map (encryptImportEntry s input.projectId)
    (.ok s.nextId items,
      { s with pendingImports := s.pendingImports ++
                 [{ id := s.nextId, orgId := input.orgId, projectId := input.projectId, items,
                    expiresAt := now + importTtlMs }],
               nextId := s.nextId + 1 })

/-! ### Confirmation -/

/-- The arguments of `confirmCredentialImport`. -/
structure ConfirmImportInput where
  orgId : ℕ
  projectId : ℕ
  userId : ℕ
  importId : ℕ
  defaultAction : ImportAction
  overrides : List (String × ImportAction)

/-- `resolveImportAction`. -/
def resolveImportAction (item : PendingImportItem) (defaultAction : ImportAction)
    (overrides : List (String × ImportAction)) : ImportAction :=
  let action := ((overrides.find? fun o => o.1 = item.name).map Prod.snd).getD defaultAction
  if item.conflictsWith = none ∧ action = .newVersion then .createNew else action

/-- `insertImportedCredential`: a fresh credential with version `1`. -/
def insertImportedCredential (s : Store) (now : ℕ) (input : ConfirmImportInput)
    (name : String) (item : PendingImportItem) : Except VaultError (ℕ × Store) := do
  let credential : Credential :=
    { id := s.nextId, orgId := input.orgId, projectId := input.projectId, name,
      description := none, tags := [], expiresAt := none, rotationSchedule := none,
      cacheable := true, retentionCount := 3, currentVersionId := none,
      createdBy := some input.userId, createdAt := now, archivedAt := none }
  let s' ← insertImportedVersionRow
    { s with credentials := s.credentials ++ [credential], nextId := s.nextId + 1 }
    now input.orgId credential.id 1 input.userId item
  return (credential.id, s')

/-- `assertImportTargetNotMultiField`. -/
def assertImportTargetNotMultiField (s : Store) (credentialId : ℕ) : Except VaultError Unit :=
  let keys := currentFieldKeys s credentialId
  if keys.length > 1 ∨ (keys.head? ≠ none ∧ keys.head? ≠ some defaultFieldKey) then
    .error .importTargetMultiField
  else .ok ()

/-- A unique violation of an imported version is reported as a plain error. -/
def importConflictOnUnique {α : Type} : Except VaultError α → Except VaultError α
  | .error .uniqueViolation => .error (.error "Concurrent version creation conflict during import")
  | r => r

/-- `insertImportedVersion`: the next version of an existing credential. -/
def insertImportedVersion (s : Store) (now : ℕ) (input : ConfirmImportInput)
    (credentialId : ℕ) (item : PendingImportItem) : Except VaultError Store :=
  match findCredentialInProject s ⟨credentialId, input.projectId⟩ with
  | none => .error (.error "Credential not found for new_version import")
  | some _ => do
      assertImportTargetNotMultiField s credentialId
      importConflictOnUnique (insertImportedVersionRow s now input.orgId credentialId
        (s.maxVersionNumber credentialId + 1) input.userId item)

/-- An entry of `ConfirmImportResult.results`. -/
structure ImportItemResult where
  name : String
  action : ImportAction
  credentialId : Option ℕ
  deriving DecidableEq

/-- The name of an imported credential: a clash with an existing name is
suffixed by the confirmation time and the item index. -/
def importedCredentialName (item : PendingImportItem) (now : ℕ) (itemIndex : ℕ) : String :=
  if item.conflictsWith = none then item.name
  else item.name ++ "_imported_" ++ toString now ++ "_" ++ toString itemIndex

/-- One item of `confirmCredentialImport`. -/
def confirmImportItem (s : Store) (now : ℕ) (input : ConfirmImportInput)
    (item : PendingImportItem) (itemIndex : ℕ) : Except VaultError (ImportItemResult × Store) :=
  match resolveImportAction item input.defaultAction input.overrides with
  | .skip => .ok (⟨item.name, .skip, none⟩, s)
  | .newVersion =>
    match item.conflictsWith with
    | none => .error (.error "new_version action requires conflictsWith")
    | some credentialId => do
        let s' ← insertImportedVersion s now input credentialId item
        return (⟨item.name, .newVersion, some credentialId⟩, s')
  | .createNew => do
      let (credentialId, s') ← insertImportedCredential s now input
        (importedCredentialName item now itemIndex) item
      return (⟨item.name, .createNew, some credentialId⟩, s')

/-- The items of `confirmCredentialImport`, in order. -/
def confirmImportItems (now : ℕ) (input : ConfirmImportInput) :
    Store → ℕ → List PendingImportItem → Except VaultError (List ImportItemResult × Store)
  | s, _, [] => .ok ([], s)
  | s, itemIndex, item :: items => do
      let (result, s') ← confirmImportItem s now input item itemIndex
      let (results, s'') ← confirmImportItems now input s' (itemIndex + 1) items
      return (result :: results, s'')

/-- The answers of `confirmCredentialImport`. -/
inductive ConfirmImportResult where
  | notFound
  | expired (expiredAt : ℕ)
  | ok (results : List ImportItemResult)

/-- The pending import a confirmation names. -/
def findPendingImport (s : Store) (input : ConfirmImportInput) : Option PendingImport :=
  s.pendingImports.find? fun p => p.id = input.importId ∧ p.projectId = input.projectId

/-- `confirmCredentialImport`. -/
def confirmCredentialImport (s : Store) (now : ℕ) (input : ConfirmImportInput) :
    Except VaultError (ConfirmImportResult × Store) :=
  match findPendingImport s input with
  | none => .ok (.notFound, s)
  | some record =>
    if record.expiresAt < now then .ok (.expired record.expiresAt, s)
    else do
      let (results, s') ← confirmImportItems now input s 0 record.items
      return (.ok results,
        { s' with pendingImports := s'.pendingImports.filter fun p => p.id ≠ input.importId })

end ProjectVault
