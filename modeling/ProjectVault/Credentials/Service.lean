import ProjectVault.Credentials.Schema

/-!
Writing and reading credentials (`credentials/service.ts`,
`credentials/db-helpers.ts`).

A writer returns the result with the new store, or the error it throws; every
thrown error rolls the transaction back.
-/

namespace ProjectVault

open Js

/-- The credential a request names, inside a project. -/
structure CredentialRef where
  credentialId : ℕ
  projectId : ℕ

/-- `findCredentialInProject`; also `lockCredentialInProject`, which returns the
same row under a row lock. -/
def findCredentialInProject (s : Store) (ref : CredentialRef) : Option Credential :=
  s.credentials.find? fun c => c.id = ref.credentialId ∧ c.projectId = ref.projectId

/-- `currentKeyVersion`. -/
def currentKeyVersion (s : Store) : ℕ := s.keyVersion.getD 1

/-! ### The current version -/

/-- Neither purged nor abandoned. -/
def CredentialVersion.isLive (v : CredentialVersion) : Bool :=
  v.purgedAt.isNone && v.abandonedAt.isNone

/-- The readers' predicate: `purged_at IS NULL AND abandoned_at IS NULL AND
promoted_at IS NOT NULL`. -/
def CredentialVersion.isServable (v : CredentialVersion) : Bool :=
  v.purgedAt.isNone && v.abandonedAt.isNone && v.promotedAt.isSome

/-- The versions of a credential. -/
def Store.versionsOf (s : Store) (credentialId : ℕ) : List CredentialVersion :=
  s.versions.filter fun v => v.credentialId = credentialId

/-- `ORDER BY promoted_at DESC, version_number DESC`. -/
def CredentialVersion.currentKey (v : CredentialVersion) : ℕ ×ₗ ℕ :=
  toLex (v.promotedAt.getD 0, v.versionNumber)

/-- `selectCurrentVersionMeta`. -/
def selectCurrentVersionMeta (s : Store) (credentialId : ℕ) : Option CredentialVersion :=
  ((s.versionsOf credentialId).filter CredentialVersion.isServable).argmax
    CredentialVersion.currentKey

/-- `currentFieldKeys`. -/
def currentFieldKeys (s : Store) (credentialId : ℕ) : List String :=
  let row := selectCurrentVersionMeta s credentialId
  (fieldMetaForResponse ((row.map CredentialVersion.schemaVersion).getD 1)
    (row.bind CredentialVersion.fieldMeta)).map FieldMeta.key

/-- `currentFieldsForDiff`: `none` when the current fields cannot be read. -/
def currentFieldsForDiff (s : Store) (credentialId : ℕ) : Option (List Field) :=
  match selectCurrentVersionMeta s credentialId with
  | none => none
  | some row =>
    match row.encryptedValue with
    | none => none
    | some e => (parseFieldsFromPlaintext row.schemaVersion (withSecret e)).toOption

/-! ### Writers -/

/-- `insertVersionAndSetCurrent`. -/
def insertVersionAndSetCurrent (s : Store) (now : ℕ) (values : VersionValues) :
    Except VaultError (CredentialVersion × Store) := do
  let (version, s) ← s.insertVersion now values
  return (version,
    { s with credentials := Db.updateWhere (fun c => c.id = values.credentialId)
               (fun c => { c with currentVersionId := some version.id }) s.credentials })

/-- `CreateCredentialBody`, with the project and the acting user. -/
structure CreateCredentialInput where
  orgId : ℕ
  projectId : ℕ
  userId : ℕ
  name : String
  description : Option String
  tags : Option (List String)
  expiresAt : Option ℕ
  rotationSchedule : Option String
  cacheable : Option Bool
  body : FieldSetBody

/-- `serializeCredentialDetail`. -/
structure CredentialDetail where
  credential : Credential
  currentVersionNumber : ℕ
  schemaVersion : ℕ
  fields : List FieldMeta
  visibleFieldValues : List (String × String)

/-- The credential row `createCredentialWithFirstVersion` inserts. -/
def CreateCredentialInput.row (input : CreateCredentialInput) (id : ℕ) (now : ℕ) :
    Credential :=
  { id, orgId := input.orgId, projectId := input.projectId, name := input.name,
    description := input.description, tags := input.tags.getD [], expiresAt := input.expiresAt,
    rotationSchedule := input.rotationSchedule, cacheable := input.cacheable.getD true,
    retentionCount := 3, currentVersionId := none, createdBy := some input.userId,
    createdAt := now, archivedAt := none }

/-- `createCredentialWithFirstVersion`. -/
def createCredentialWithFirstVersion (rt : Runtime) (s : Store) (now : ℕ)
    (input : CreateCredentialInput) : Except VaultError (CredentialDetail × Store) := do
  let resolved ← resolveFieldSet rt input.body none
  let credential := input.row s.nextId now
  let inserted : Store :=
    { s with credentials := s.credentials ++ [credential], nextId := s.nextId + 1 }
  let (_, s') ← insertVersionAndSetCurrent inserted now
    { orgId := input.orgId, credentialId := credential.id,
      encryptedValue := encryptValue (serializeFieldEnvelope resolved.fields),
      keyVersion := currentKeyVersion s, versionNumber := 1, createdBy := input.userId,
      schemaVersion := 2, fieldMeta := some (buildFieldMeta resolved), promotedAt := some now }
  return ({ credential, currentVersionNumber := 1, schemaVersion := 2,
            fields := buildFieldMeta resolved,
            visibleFieldValues := (resolved.fields.filter fun f => !f.sensitive).map
              fun f => (f.key, f.value) }, s')

/-- `computeFieldDelta`. -/
structure FieldDelta where
  addedFields : List String
  removedFields : List String
  renamedFields : List (String × String)

/-- `computeFieldDelta`: one key gone and one key new is a rename. -/
def computeFieldDelta (rt : Runtime) (oldKeys newKeys : List String) : FieldDelta :=
  let oldSet := oldKeys.map (normalizeFieldKey rt)
  let newSet := newKeys.map (normalizeFieldKey rt)
  let added := newKeys.filter fun k => normalizeFieldKey rt k ∉ oldSet
  let removed := oldKeys.filter fun k => normalizeFieldKey rt k ∉ newSet
  match added, removed with
  | [a], [r] => { addedFields := [], removedFields := [], renamedFields := [(r, a)] }
  | _, _ => { addedFields := added, removedFields := removed, renamedFields := [] }

/-- `computeChangedFields`: retained keys whose value differs; a later duplicate
of a normalised key replaces an earlier one in the map of old values. -/
def computeChangedFields (rt : Runtime) (oldFields newFields : List Field) : List String :=
  (newFields.filter fun f =>
    match oldFields.reverse.find? fun o =>
        normalizeFieldKey rt o.key == normalizeFieldKey rt f.key with
    | some before => before.value ≠ f.value
    | none => false).map Field.key

/-- `AddCredentialVersionResult`. -/
structure AddCredentialVersionResult where
  version : CredentialVersion
  template : Option CredentialTemplate
  delta : FieldDelta
  changedFields : Option (List String)

/-- The arguments of `addCredentialVersion`. -/
structure AddVersionInput where
  orgId : ℕ
  credentialId : ℕ
  projectId : ℕ
  userId : ℕ
  body : FieldSetBody

/-- A unique violation of a version insert surfaces as `VersionConflictError`. -/
def versionConflictOnUnique {α : Type} : Except VaultError α → Except VaultError α
  | .error .uniqueViolation => .error .versionConflict
  | r => r

/-- `addCredentialVersion`; `none` when the project has no such credential. -/
def addCredentialVersion (rt : Runtime) (s : Store) (now : ℕ) (input : AddVersionInput) :
    Except VaultError (Option AddCredentialVersionResult × Store) :=
  match findCredentialInProject s ⟨input.credentialId, input.projectId⟩ with
  | none => .ok (none, s)
  | some _ => do
      let oldKeys := currentFieldKeys s input.credentialId
      let oldFields := currentFieldsForDiff s input.credentialId
      assertLegacyShapeSafe (!input.body.isFieldSet) oldKeys
      let resolved ← resolveFieldSet rt input.body oldFields
      let (version, s') ← versionConflictOnUnique (insertVersionAndSetCurrent s now
        { orgId := input.orgId, credentialId := input.credentialId,
          encryptedValue := encryptValue (serializeFieldEnvelope resolved.fields),
          keyVersion := currentKeyVersion s,
          versionNumber := s.maxVersionNumber input.credentialId + 1,
          createdBy := input.userId, schemaVersion := 2,
          fieldMeta := some (buildFieldMeta resolved), promotedAt := some now })
      return (some
        { version, template := resolved.template,
          delta := computeFieldDelta rt oldKeys ((buildFieldMeta resolved).map FieldMeta.key),
          changedFields := oldFields.map fun old => computeChangedFields rt old resolved.fields },
        s')

/-! ### Readers -/

/-- `RevealCurrentValueResult`. -/
inductive RevealResult where
  | value (value : String) (versionNumber : ℕ) (abandonedVersionExcluded : Bool)
      (revealedFields : Option (List String))
  | fields (fields : List Field) (schemaVersion versionNumber : ℕ)
      (abandonedVersionExcluded : Bool) (revealedFields : List String)
  | notFound
  | allVersionsPurged
  | unknownField (key : String)
  deriving DecidableEq

/-- `invalidRequestedField`. -/
def invalidRequestedField (field : Option String) (schemaVersion : ℕ)
    (fieldMeta : Option (List FieldMeta)) : Option String :=
  match field with
  | none => none
  | some key =>
    if schemaVersion < 2 then some key
    else if key ∈ ((fieldMetaForResponse schemaVersion fieldMeta).filter
        fun m => m.kind ≠ some .totp).map FieldMeta.key then none
    else some key

/-- `readableFields`: the fields a read may hand out, and whether the secret is
handled as a field set. -/
def readableFields (schemaVersion : ℕ) (plaintext : String) :
    Except VaultError (List Field × Bool) := do
  let allFields ← parseFieldsFromPlaintext schemaVersion plaintext
  let fields := withoutTotpFields allFields
  return (fields, 2 ≤ schemaVersion ∧
    (allFields.length > 1 ∨ fields.length ≠ allFields.length))

/-- A non-purged abandoned version above the served one. -/
def higherAbandonedVersion (s : Store) (credentialId : ℕ) (versionNumber : ℕ) : Bool :=
  (s.versionsOf credentialId).any fun v =>
    v.purgedAt.isNone && v.abandonedAt.isSome && decide (versionNumber < v.versionNumber)

/-- The answer of `revealCurrentValue` once a version has been selected. -/
def revealVersion (s : Store) (version : CredentialVersion) (e : EncryptedValue)
    (field : Option String) : Except VaultError RevealResult :=
  let excluded := higherAbandonedVersion s version.credentialId version.versionNumber
  match invalidRequestedField field version.schemaVersion version.fieldMeta with
  | some key => .ok (.unknownField key)
  | none => do
      let (fields, isGenuineMultiField) ←
        readableFields version.schemaVersion (withSecret e)
      if isGenuineMultiField = false then
        let value ← unwrapRevealValue version.schemaVersion (withSecret e)
        return .value value version.versionNumber excluded (field.map fun key => [key])
      else
        match field with
        | some key =>
          match fields.find? fun f => f.key = key with
          | none => return .unknownField key
          | some f =>
            return .fields [f] version.schemaVersion version.versionNumber excluded [f.key]
        | none =>
          return .fields fields version.schemaVersion version.versionNumber excluded
            ((fields.filter Field.sensitive).map Field.key)

/-- `revealCurrentValue`. -/
def revealCurrentValue (s : Store) (ref : CredentialRef) (field : Option String) :
    Except VaultError RevealResult :=
  match findCredentialInProject s ref with
  | none => .ok .notFound
  | some _ =>
    match ((s.versionsOf ref.credentialId).filter CredentialVersion.isServable).argmax
        CredentialVersion.currentKey with
    | none => .ok .allVersionsPurged
    | some version =>
      match version.encryptedValue with
      | none => .ok .allVersionsPurged
      | some e => revealVersion s version e field

/-- `eagerNonSensitiveFieldValues`: an unreadable envelope yields no values. -/
def eagerNonSensitiveFieldValues (schemaVersion : ℕ) (fieldMeta : List FieldMeta)
    (encryptedValue : Option EncryptedValue) : List (String × String) :=
  let nonSensitiveKeys := (fieldMeta.filter fun m => !m.sensitive).map FieldMeta.key
  match encryptedValue with
  | none => []
  | some e =>
    match parseFieldsFromPlaintext schemaVersion (withSecret e) with
    | .error _ => []
    | .ok fields =>
      ((withoutTotpFields fields).filter fun f => f.key ∈ nonSensitiveKeys).map
        fun f => (f.key, f.value)

/-- `getCredentialDetail`. -/
def getCredentialDetail (s : Store) (ref : CredentialRef) : Option CredentialDetail :=
  (findCredentialInProject s ref).map fun credential =>
    let versionRow := selectCurrentVersionMeta s ref.credentialId
    let schemaVersion := (versionRow.map CredentialVersion.schemaVersion).getD 1
    let fieldMeta := fieldMetaForResponse schemaVersion
      (versionRow.bind CredentialVersion.fieldMeta)
    { credential
      currentVersionNumber := (versionRow.map CredentialVersion.versionNumber).getD 1
      schemaVersion
      fields := fieldMeta
      visibleFieldValues := eagerNonSensitiveFieldValues schemaVersion fieldMeta
        (versionRow.bind CredentialVersion.encryptedValue) }

/-- An entry of `listVersionHistory`. -/
structure VersionHistoryEntry where
  versionNumber : ℕ
  createdBy : Option ℕ
  createdAt : ℕ
  isCurrent : Bool
  purgedAt : Option ℕ
  abandonedAt : Option ℕ
  schemaVersion : ℕ

/-- The current version number `listVersionHistory` computes in memory. -/
def historyCurrentVersionNumber (rows : List CredentialVersion) : Option ℕ :=
  ((Db.sortDesc CredentialVersion.currentKey
    (rows.filter CredentialVersion.isServable)).head?).map CredentialVersion.versionNumber

/-- `listVersionHistory`. -/
def listVersionHistory (s : Store) (ref : CredentialRef) : Option (List VersionHistoryEntry) :=
  (findCredentialInProject s ref).map fun _ =>
    let rows := Db.sortDesc CredentialVersion.versionNumber (s.versionsOf ref.credentialId)
    rows.map fun row =>
      { versionNumber := row.versionNumber, createdBy := row.createdBy,
        createdAt := row.createdAt,
        isCurrent := some row.versionNumber = historyCurrentVersionNumber rows,
        purgedAt := row.purgedAt, abandonedAt := row.abandonedAt,
        schemaVersion := row.schemaVersion }

/-- `MAX(version_number)` over the servable versions, `none` when the group is
empty. -/
def listedVersionNumber (s : Store) (credentialId : ℕ) : Option ℕ :=
  (((s.versionsOf credentialId).filter CredentialVersion.isServable).map
    CredentialVersion.versionNumber).max?

/-- An item of `listCredentials`. -/
structure CredentialListItem where
  credential : Credential
  currentVersionNumber : ℕ
  hasDependencies : Bool

/-- `listCredentials`, for the filter `credentialListWhere` builds. -/
def listCredentials (s : Store) (orgId : ℕ) (keep : Credential → Bool) (limit offset : ℕ) :
    ℕ × List CredentialListItem :=
  let matching := s.credentials.filter keep
  let rows := ((Db.sortDesc (fun c => toLex (c.createdAt, c.id)) matching).drop offset).take limit
  (matching.length, rows.map fun c =>
    { credential := c
      currentVersionNumber := (listedVersionNumber s c.id).getD 1
      hasDependencies := s.dependencies.any fun d =>
        d.orgId = orgId ∧ d.credentialId = c.id ∧ d.archivedAt = none })

end ProjectVault
