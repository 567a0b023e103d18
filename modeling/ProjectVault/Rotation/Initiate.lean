import ProjectVault.Credentials.Service

/-!
Starting a rotation (`initiateRotation` of `rotation/service.ts`).

The results of the non-blocking lock attempts are inputs of the operations.
-/

namespace ProjectVault

open Js

/-- `findInProgressRotationId`. -/
def findInProgressRotationId (s : Store) (credentialId : ℕ) : Option ℕ :=
  (s.rotations.find? fun r => r.credentialId = credentialId ∧ r.isActive = true).map Rotation.id

/-- `constantTimeEqual`: equality of SHA-256 digests, read as equality. -/
def constantTimeEqual (a b : String) : Bool := a = b

/-- `InitiateRotationBody`; `fieldValues` is an object, so its keys are distinct
texts in property order. -/
structure InitiateRotationBody where
  newValue : String
  notes : Option String
  targetFields : Option (List String)
  fieldValues : Option (List (String × String))
  confirmSameValue : Option Bool

/-! ### Target fields and per-field values -/

/-- `validateTargetFields`: the normalised targets, or the offending key. -/
def validateTargetFields (rt : Runtime) (targetFields : Option (List String)) (schemaVersion : ℕ)
    (fieldMeta : Option (List FieldMeta)) : Except String (Option (List String)) :=
  let declared := fieldMetaForResponse schemaVersion fieldMeta
  match targetFields with
  | none =>
    match declared.find? fun m => m.kind = some .totp with
    | some totp => .error (normalizeFieldKey rt totp.key)
    | none => .ok none
  | some targets =>
    let normalized := targets.map (normalizeFieldKey rt)
    let declaredKeys := (declared.filter fun m => m.kind ≠ some .totp).map
      fun m => normalizeFieldKey rt m.key
    match normalized.find? fun key => key ∉ declaredKeys with
    | some missing => .error missing
    | none => .ok (some normalized)

/-- `Map.prototype.set` on a map kept in insertion order. -/
def mapSet (key value : String) : List (String × String) → List (String × String)
  | [] => [(key, value)]
  | (k, v) :: rest => if k = key then (k, value) :: rest else (k, v) :: mapSet key value rest

/-- `normalizeFieldValues`. -/
def normalizeFieldValues (rt : Runtime) (fieldValues : List (String × String)) :
    List (String × String) :=
  fieldValues.foldl (fun m kv => mapSet (normalizeFieldKey rt kv.1) kv.2 m) []

/-- `findDuplicateNormalizedFieldValueKey`, with the raw keys seen so far. -/
def findDuplicateFrom (rt : Runtime) : List String → List (String × String) → Option String
  | _, [] => none
  | seen, (key, _) :: rest =>
    if seen.any fun k => normalizeFieldKey rt k == normalizeFieldKey rt key && k != key then
      some (normalizeFieldKey rt key)
    else findDuplicateFrom rt (key :: seen) rest

/-- `findDuplicateNormalizedFieldValueKey`. -/
def findDuplicateNormalizedFieldValueKey (rt : Runtime) (fieldValues : List (String × String)) :
    Option String :=
  findDuplicateFrom rt [] fieldValues

/-- `validateFieldValues`: the missing and the extra keys, both empty when the
values match the targets. -/
def validateFieldValues (fieldValues : Option (List (String × String)))
    (targets : Option (List String)) : List String × List String :=
  match fieldValues with
  | none => ([], [])
  | some values =>
    let targetSet := (targets.getD []).eraseDups
    let valueKeys := values.map Prod.fst
    (targetSet.filter fun key => key ∉ valueKeys, valueKeys.filter fun key => key ∉ targetSet)

/-- `valueForField`. -/
def valueForField (key newValue : String) (fieldValues : Option (List (String × String))) :
    String :=
  ((fieldValues.bind fun values => values.find? fun kv => kv.1 = key).map Prod.snd).getD newValue

/-! ### Field snapshots -/

/-- What `buildFieldScopedSnapshot` returns. -/
structure FieldSnapshot where
  fields : List Field
  sameValueField : Option String

/-- A field of the new version: replaced when targeted, carried over otherwise. -/
def snapshotField (rt : Runtime) (targets : List String) (newValue : String)
    (fieldValues : Option (List (String × String))) (f : Field) : Field :=
  if normalizeFieldKey rt f.key ∈ targets then
    { f with value := valueForField (normalizeFieldKey rt f.key) newValue fieldValues }
  else f

/-- `buildFieldScopedSnapshot`. -/
def buildFieldScopedSnapshot (rt : Runtime) (previousSchemaVersion : ℕ)
    (previousPlaintext : String) (targets : List String) (newValue : String)
    (fieldValues : Option (List (String × String))) : Except VaultError FieldSnapshot := do
  let previousFields ← parseFieldsFromPlaintext previousSchemaVersion previousPlaintext
  return { fields := previousFields.map (snapshotField rt targets newValue fieldValues)
           sameValueField := targets.find? fun key =>
             match previousFields.find? fun f => normalizeFieldKey rt f.key = key with
             | some f => constantTimeEqual f.value (valueForField key newValue fieldValues)
             | none => false }

/-- What `computeSameValueAsPrevious` returns. -/
structure SameValueCheck where
  sameValueAsPrevious : Bool
  sameValueField : Option String
  previousPlaintext : Option String

/-- `computeSameValueAsPrevious`. -/
def computeSameValueAsPrevious (rt : Runtime) (previousVersion : CredentialVersion)
    (targets : Option (List String)) (newValue : String)
    (fieldValues : Option (List (String × String))) : Except VaultError SameValueCheck :=
  match previousVersion.encryptedValue with
  | none => .ok ⟨false, none, none⟩
  | some e =>
    let previousPlaintext := withSecret e
    match targets with
    | some targets => do
        let snapshot ← buildFieldScopedSnapshot rt previousVersion.schemaVersion
          previousPlaintext targets newValue fieldValues
        return ⟨snapshot.sameValueField.isSome, snapshot.sameValueField,
          some previousPlaintext⟩
    | none => do
        let previousValue ← unwrapRevealValue previousVersion.schemaVersion previousPlaintext
        return ⟨constantTimeEqual previousValue newValue, none, some previousPlaintext⟩

/-- What `buildNewVersionInsertFields` returns; the two overrides are absent for
a whole-secret rotation. -/
structure NewVersionFields where
  encryptedValue : EncryptedValue
  schemaVersion : Option ℕ
  fieldMeta : Option (List FieldMeta)

/-- `buildNewVersionInsertFields`. -/
def buildNewVersionInsertFields (rt : Runtime) (previousVersion : CredentialVersion)
    (previousPlaintext : Option String) (targets : Option (List String)) (newValue : String)
    (fieldValues : Option (List (String × String))) : Except VaultError NewVersionFields :=
  match targets with
  | none => .ok ⟨encryptValue newValue, none, none⟩
  | some targets => do
      let snapshot ← buildFieldScopedSnapshot rt previousVersion.schemaVersion
        (previousPlaintext.getD "") targets newValue fieldValues
      return ⟨encryptValue (serializeFieldEnvelope snapshot.fields), some 2,
        some (fieldMetaForResponse previousVersion.schemaVersion previousVersion.fieldMeta)⟩

/-! ### The operation -/

/-- `InitiateRotationResult`. -/
inductive InitiateRotationResult where
  | credentialNotFound
  | projectArchived
  | credentialArchived
  | unknownFieldKey (field : String)
  | sameValueConfirmationRequired (field : Option String)
  | fieldValuesTargetMismatch (missing extra : List String)
  | initiatorInactive
  | initiated (rotation : Rotation) (checklistItems : List ChecklistItem)
      (sameValueAsPrevious sameValueConfirmed : Bool)
  deriving DecidableEq

/-- The arguments of `initiateRotation`. -/
structure InitiateRotationInput where
  orgId : ℕ
  projectId : ℕ
  credentialId : ℕ
  userId : ℕ
  body : InitiateRotationBody

/-- `nextCredentialVersionNumber`. -/
def nextCredentialVersionNumber (s : Store) (credentialId : ℕ) : ℕ :=
  s.maxVersionNumber credentialId + 1

/-- The row `lockCurrentNonPurgedVersion` selects: the highest version number
among the versions neither purged nor abandoned. -/
def currentNonPurgedVersion (s : Store) (credentialId : ℕ) : Option CredentialVersion :=
  ((s.versionsOf credentialId).filter CredentialVersion.isLive).argmax
    CredentialVersion.versionNumber

/-- `lockCurrentNonPurgedVersion`. -/
def lockCurrentNonPurgedVersion (s : Store) (credentialId : ℕ) (notFoundMessage : String) :
    Except VaultError CredentialVersion :=
  match currentNonPurgedVersion s credentialId with
  | none => .error (.error notFoundMessage)
  | some row => .ok row

/-- `loadRotationTargetForUpdate`: an answer that ends the operation, or the
version to supersede. -/
def loadRotationTargetForUpdate (s : Store) (input : InitiateRotationInput) :
    Except VaultError (InitiateRotationResult ⊕ CredentialVersion) :=
  match s.projects.find? fun p => p.id = input.projectId with
  | none => .ok (.inl .credentialNotFound)
  | some project =>
    if project.archivedAt ≠ none then .ok (.inl .projectArchived)
    else match findCredentialInProject s ⟨input.credentialId, input.projectId⟩ with
      | none => .ok (.inl .credentialNotFound)
      | some credential =>
        if credential.archivedAt ≠ none then .ok (.inl .credentialArchived)
        else do
          let row ← lockCurrentNonPurgedVersion s input.credentialId
            ("initiateRotation: credential " ++ toString input.credentialId ++
              " has no non-purged version to supersede")
          return .inr row

/-- A passed preflight. -/
structure Preflight where
  targets : Option (List String)
  fieldValues : Option (List (String × String))
  previousPlaintext : Option String
  sameValueAsPrevious : Bool
  sameValueConfirmed : Bool
  deriving DecidableEq

/-- `resolveInitiateRotationPreflight`. -/
def resolveInitiateRotationPreflight (rt : Runtime) (previousVersion : CredentialVersion)
    (body : InitiateRotationBody) : Except VaultError (InitiateRotationResult ⊕ Preflight) :=
  match validateTargetFields rt body.targetFields previousVersion.schemaVersion
      previousVersion.fieldMeta with
  | .error field => .ok (.inl (.unknownFieldKey field))
  | .ok targets =>
    match body.fieldValues.bind (findDuplicateNormalizedFieldValueKey rt) with
    | some duplicateKey => .ok (.inl (.fieldValuesTargetMismatch [] [duplicateKey]))
    | none =>
      let fieldValues := body.fieldValues.map (normalizeFieldValues rt)
      let (missing, extra) := validateFieldValues fieldValues targets
      if missing ≠ [] ∨ extra ≠ [] then
        .ok (.inl (.fieldValuesTargetMismatch missing extra))
      else do
        let check ← computeSameValueAsPrevious rt previousVersion targets body.newValue
          fieldValues
        if check.sameValueAsPrevious = true ∧ body.confirmSameValue ≠ some true then
          return .inl (.sameValueConfirmationRequired check.sameValueField)
        else
          return .inr
            { targets, fieldValues, previousPlaintext := check.previousPlaintext,
              sameValueAsPrevious := check.sameValueAsPrevious,
              sameValueConfirmed := check.sameValueAsPrevious &&
                decide (body.confirmSameValue = some true) }

/-- `lockActiveInitiatorMembership`. -/
def lockActiveInitiatorMembership (s : Store) (orgId userId : ℕ) : Bool :=
  match s.memberships.find? fun m => m.orgId = orgId ∧ m.userId = userId with
  | some membership => membership.status = "active"
  | none => false

/-- The field part of `dependencyChecklistFilter`: a field-scoped rotation keeps
whole-credential dependencies and those on a targeted field. -/
def dependencyInScope (targets : Option (List String)) (d : CredentialDependency) : Bool :=
  match targets, d.fieldKey with
  | none, _ => true
  | some _, none => true
  | some targets, some key => key ∈ targets

/-- The dependencies `dependencyChecklistFilter` selects. -/
def dependencyChecklist (s : Store) (orgId credentialId : ℕ) (targets : Option (List String)) :
    List CredentialDependency :=
  s.dependencies.filter fun d =>
    d.orgId = orgId ∧ d.credentialId = credentialId ∧ d.archivedAt = none ∧
      dependencyInScope targets d = true

/-- The checklist items a batch insert creates for the dependencies. -/
def checklistRows (orgId rotationId : ℕ) : ℕ → List CredentialDependency → List ChecklistItem
  | _, [] => []
  | id, d :: ds =>
    { id, orgId, rotationId, dependencyId := d.id, systemName := d.systemName,
      status := .unconfirmed, confirmedBy := none, confirmedAt := none, retryCount := 0,
      retryScheduledAt := none, lastFailureReason := none, lastActedBy := none,
      lastActedAt := none, notes := none } :: checklistRows orgId rotationId (id + 1) ds

/-- `INSERT INTO rotation_checklist_items`. -/
def Store.insertChecklistItems (s : Store) (orgId rotationId : ℕ)
    (dependencies : List CredentialDependency) : List ChecklistItem × Store :=
  let items := checklistRows orgId rotationId s.nextId dependencies
  (items, { s with checklistItems := s.checklistItems ++ items,
                   nextId := s.nextId + items.length })

/-- The writes of `initiateRotation`: the unpromoted new version, the retention
lock on the superseded one, the rotation and its checklist. -/
def stageRotation (rt : Runtime) (s : Store) (now : ℕ) (input : InitiateRotationInput)
    (previousVersion : CredentialVersion) (preflight : Preflight) :
    Except VaultError (InitiateRotationResult × Store) := do
  let newVersionFields ← buildNewVersionInsertFields rt previousVersion
    preflight.previousPlaintext preflight.targets input.body.newValue preflight.fieldValues
  let (newVersion, s₁) ← s.insertVersion now
    { orgId := input.orgId, credentialId := input.credentialId,
      encryptedValue := newVersionFields.encryptedValue, keyVersion := currentKeyVersion s,
      versionNumber := nextCredentialVersionNumber s input.credentialId,
      createdBy := input.userId, schemaVersion := newVersionFields.schemaVersion.getD 1,
      fieldMeta := newVersionFields.fieldMeta }
  let s₂ := s₁.updateVersion previousVersion.id fun v => { v with rotationLockedAt := some now }
  let (rotation, s₃) ← s₂.insertRotation now
    { orgId := input.orgId, projectId := input.projectId, credentialId := input.credentialId,
      newVersionId := newVersion.id, previousVersionId := previousVersion.id,
      initiatedBy := input.userId, notes := input.body.notes, targetFields := preflight.targets }
  let (checklistItems, s₄) := s₃.insertChecklistItems input.orgId rotation.id
    (dependencyChecklist s₂ input.orgId input.credentialId preflight.targets)
  return (.initiated rotation checklistItems preflight.sameValueAsPrevious
    preflight.sameValueConfirmed, s₄)

/-- The savepoint of `initiateRotation`. -/
def initiateInSavepoint (rt : Runtime) (s : Store) (now : ℕ) (input : InitiateRotationInput) :
    Except VaultError (InitiateRotationResult × Store) := do
  match ← loadRotationTargetForUpdate s input with
  | .inl result => return (result, s)
  | .inr previousVersion =>
    match ← resolveInitiateRotationPreflight rt previousVersion input.body with
    | .inl result => return (result, s)
    | .inr preflight => stageRotation rt s now input previousVersion preflight

/-- A unique violation inside the savepoint surfaces as a rotation conflict. -/
def rotationConflictOnUnique {α : Type} (s : Store) (credentialId : ℕ) :
    Except VaultError α → Except VaultError α
  | .error .uniqueViolation => .error (.rotationConflict (findInProgressRotationId s credentialId))
  | r => r

/-- `initiateRotation`; `locked` is the outcome of `tryAcquireCredentialScopedLock`. -/
def initiateRotation (rt : Runtime) (s : Store) (now : ℕ) (locked : Bool)
    (input : InitiateRotationInput) : Except VaultError (InitiateRotationResult × Store) :=
  if locked = false then
    .error (.rotationConflict (findInProgressRotationId s input.credentialId))
  else if lockActiveInitiatorMembership s input.orgId input.userId = false then
    .ok (.initiatorInactive, s)
  else rotationConflictOnUnique s input.credentialId (initiateInSavepoint rt s now input)

end ProjectVault
