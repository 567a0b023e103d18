import ProjectVault.Rotation.Initiate

/-!
The life of a rotation after its start (`rotation/service.ts`): the checklist,
the transitions `promote`, `retire`, `complete`, `resume` and `abandon`, and the
emergency path `breakGlassRotation`.

The outcomes of the non-blocking locks are inputs; notifications are left out.
-/

namespace ProjectVault

open Js

/-! ### Loading and moving a rotation -/

/-- The rotation a request names. -/
structure RotationParams where
  orgId : ℕ
  projectId : ℕ
  credentialId : ℕ
  rotationId : ℕ
  deriving DecidableEq

/-- `findRotationInScope`. -/
def findRotationInScope (s : Store) (params : RotationParams) : Option Rotation :=
  s.rotations.find? fun r => r.id = params.rotationId ∧ r.credentialId = params.credentialId ∧
    r.projectId = params.projectId

/-- `RotationScopedLockResult`. -/
inductive RotationScopedLockResult where
  | lockedConflict (currentVersion : Option ℕ)
  | notFound
  | found (rotation : Rotation)

/-- `acquireRotationScopedLockAndFind`; `locked` is the outcome of
`tryAcquireRotationScopedLock`. -/
def acquireRotationScopedLockAndFind (s : Store) (locked : Bool) (params : RotationParams) :
    RotationScopedLockResult :=
  if locked = false then .lockedConflict ((findRotationInScope s params).map Rotation.version)
  else match findRotationInScope s params with
    | none => .notFound
    | some rotation => .found rotation

/-- The rows the compare-and-swap of `casTransitionRotation` matches. -/
def casMatches (rotationId : ℕ) (observedVersion : ℕ) (fromStatus : Option RotationStatus)
    (r : Rotation) : Bool :=
  r.id = rotationId ∧ r.version = observedVersion ∧
    (fromStatus = none ∨ fromStatus = some r.status)

/-- `casTransitionRotation`: the moved rotation, or the version that is there
instead. -/
def casTransitionRotation (s : Store) (now : ℕ) (params : RotationParams)
    (observedVersion : ℕ) (setFields : Rotation → Rotation) (fromStatus : Option RotationStatus) :
    (Rotation ⊕ Option ℕ) × Store :=
  let set := fun r => { setFields r with version := observedVersion + 1, updatedAt := now }
  match s.rotations.find? (casMatches params.rotationId observedVersion fromStatus) with
  | none => (.inr ((findRotationInScope s params).map Rotation.version), s)
  | some r =>
    let moved := Db.updateWhere (casMatches params.rotationId observedVersion fromStatus) set
      s.rotations
    (.inl (set r), { s with rotations := moved })

/-- `loadChecklistItems`: the items of a rotation, in the order of their ids. -/
def loadChecklistItems (s : Store) (rotationId : ℕ) : List ChecklistItem :=
  s.checklistItems.filter fun i => i.rotationId = rotationId

/-! ### The checklist -/

/-- `RotationLockOutcome`. -/
inductive RotationLockOutcome where
  | lockedConflict (currentVersion : Option ℕ)
  | notFound
  | notActive (rotation : Rotation)
  | ok (rotation : Rotation)

/-- `acquireAndLoadRotation`. -/
def acquireAndLoadRotation (s : Store) (locked : Bool) (params : RotationParams)
    (allowedStatuses : List RotationStatus) : RotationLockOutcome :=
  match acquireRotationScopedLockAndFind s locked params with
  | .lockedConflict v => .lockedConflict v
  | .notFound => .notFound
  | .found rotation =>
    if rotation.status ∈ allowedStatuses then .ok rotation else .notActive rotation

/-- `CHECKLIST_ACTION_ALLOWED_STATUSES`. -/
def checklistActionAllowedStatuses : List RotationStatus := [.inProgress, .staged, .promoted]

/-- `ChecklistLockFailure`. -/
inductive ChecklistLockFailure where
  | lockedConflict (currentVersion : Option ℕ)
  | rotationNotFound
  | rotationNotActive (status : RotationStatus)
  | itemNotFound
  | concurrentModification (currentVersion : Option ℕ)

/-- `findChecklistItemInScope`. -/
def findChecklistItemInScope (s : Store) (rotationId itemId : ℕ) : Option ChecklistItem :=
  s.checklistItems.find? fun i => i.id = itemId ∧ i.rotationId = rotationId

/-- `acquireLockAndItem`. -/
def acquireLockAndItem (s : Store) (locked : Bool) (params : RotationParams) (itemId : ℕ) :
    ChecklistLockFailure ⊕ Rotation × ChecklistItem :=
  match acquireAndLoadRotation s locked params checklistActionAllowedStatuses with
  | .lockedConflict v => .inl (.lockedConflict v)
  | .notFound => .inl .rotationNotFound
  | .notActive rotation => .inl (.rotationNotActive rotation.status)
  | .ok rotation =>
    match findChecklistItemInScope s params.rotationId itemId with
    | none => .inl .itemNotFound
    | some item => .inr (rotation, item)

/-- The rows the item update of `reserveVersionAndUpdateItem` matches. -/
def itemScopeWhere (rotationId itemId : ℕ) (status : Option ChecklistStatus)
    (i : ChecklistItem) : Bool :=
  i.id = itemId ∧ i.rotationId = rotationId ∧ (status = none ∨ status = some i.status)

/-- `reserveVersionAndUpdateItem`: the version is bumped before the item is
written, so a lost race writes nothing. -/
def reserveVersionAndUpdateItem (s : Store) (now : ℕ) (params : RotationParams) (itemId : ℕ)
    (rotationVersion : ℕ) (fromStatus : Option ChecklistStatus)
    (setFields : ChecklistItem → ChecklistItem) (label : String) :
    Except VaultError ((Option ℕ ⊕ ChecklistItem × ℕ) × Store) :=
  match casTransitionRotation s now params rotationVersion id none with
  | (.inr currentVersion, s) => .ok (.inl currentVersion, s)
  | (.inl rotation, s) =>
    match s.checklistItems.find? (itemScopeWhere params.rotationId itemId fromStatus) with
    | none => .error (.error
        (label ++ ": expected UPDATE ... RETURNING to return exactly one row"))
    | some item =>
      let updated := Db.updateWhere (itemScopeWhere params.rotationId itemId fromStatus)
        setFields s.checklistItems
      .ok (.inr (setFields item, rotation.version), { s with checklistItems := updated })

/-- The answers of `confirmChecklistItem`, `failChecklistItem` and
`retryChecklistItem`. -/
inductive ChecklistResult where
  | failure (failure : ChecklistLockFailure)
  | alreadyConfirmed (item : ChecklistItem)
  | confirmed (item : ChecklistItem) (rotationVersion : ℕ)
  | invalidItemStatus (item : ChecklistItem)
  | failed (item : ChecklistItem) (rotationVersion : ℕ)
  | retried (item : ChecklistItem) (rotationVersion : ℕ)
  | maxRetriesExceeded (item : ChecklistItem) (retryCount maxRetries : ℕ)

/-- `confirmChecklistItem`. -/
def confirmChecklistItem (s : Store) (now : ℕ) (locked : Bool) (params : RotationParams)
    (itemId userId : ℕ) (notes : Option String) : Except VaultError (ChecklistResult × Store) :=
  match acquireLockAndItem s locked params itemId with
  | .inl failure => .ok (.failure failure, s)
  | .inr (rotation, item) =>
    if item.status = .confirmed then .ok (.alreadyConfirmed item, s)
    else do
      let (result, s) ← reserveVersionAndUpdateItem s now params itemId rotation.version none
        (fun i => { i with
          status := .confirmed, confirmedBy := some userId, confirmedAt := some now,
          lastActedBy := some userId, lastActedAt := some now,
          notes := if notes = none ∨ notes = some "" then i.notes else notes })
        "confirmChecklistItem"
      match result with
      | .inl v => return (.failure (.concurrentModification v), s)
      | .inr (item, v) => return (.confirmed item v, s)

/-- `failChecklistItem`. -/
def failChecklistItem (s : Store) (now : ℕ) (locked : Bool) (params : RotationParams)
    (itemId userId : ℕ) (reason : String) (retryScheduledAt : Option ℕ) :
    Except VaultError (ChecklistResult × Store) :=
  match acquireLockAndItem s locked params itemId with
  | .inl failure => .ok (.failure failure, s)
  | .inr (rotation, item) =>
    if item.status ≠ .unconfirmed then .ok (.invalidItemStatus item, s)
    else do
      let (result, s) ← reserveVersionAndUpdateItem s now params itemId rotation.version
        (some .unconfirmed)
        (fun i => { i with
          status := .failed, lastFailureReason := some reason, retryScheduledAt,
          lastActedBy := some userId, lastActedAt := some now })
        "failChecklistItem"
      match result with
      | .inl v => return (.failure (.concurrentModification v), s)
      | .inr (item, v) => return (.failed item v, s)

/-- `retryChecklistItem`, with `ROTATION_MAX_RETRIES` and both of its
transitions. -/
def retryChecklistItem (s : Store) (now : ℕ) (locked : Bool) (params : RotationParams)
    (itemId userId : ℕ) (maxRetries : ℕ) : Except VaultError (ChecklistResult × Store) :=
  match acquireLockAndItem s locked params itemId with
  | .inl failure => .ok (.failure failure, s)
  | .inr (rotation, item) =>
    if item.status ≠ .failed then .ok (.invalidItemStatus item, s)
    else if item.retryCount ≥ maxRetries then do
      let (result, s) ← reserveVersionAndUpdateItem s now params itemId rotation.version
        (some .failed)
        (fun i => { i with
          status := .maxRetriesExceeded, lastActedBy := some userId, lastActedAt := some now })
        "applyMaxRetriesExceeded"
      match result with
      | .inl v => return (.failure (.concurrentModification v), s)
      | .inr (item, _) => return (.maxRetriesExceeded item item.retryCount maxRetries, s)
    else do
      let (result, s) ← reserveVersionAndUpdateItem s now params itemId rotation.version
        (some .failed)
        (fun i => { i with
          status := .unconfirmed, retryCount := i.retryCount + 1, lastActedBy := some userId,
          lastActedAt := some now })
        "applyRetry"
      match result with
      | .inl v => return (.failure (.concurrentModification v), s)
      | .inr (item, v) => return (.retried item v, s)

/-! ### Transitions of a rotation -/

/-- A checklist entry that still waits for its confirmation. -/
def ChecklistItem.isPending (i : ChecklistItem) : Bool := i.status ≠ .confirmed

/-- The answers of the transitions. -/
inductive TransitionResult where
  | lockedConflict (currentVersion : Option ℕ)
  | rotationNotFound
  | rotationNotActive (status : RotationStatus)
  | wrongStateForLegacyComplete (currentStatus : RotationStatus)
  | notPromotable (currentStatus : RotationStatus)
  | notRetirable (currentStatus : RotationStatus)
  | notStale (status : RotationStatus)
  | notAbandonableAfterPromotion
  | checklistIncomplete (pendingItems : List ChecklistItem) (totalItemCount : ℕ)
  | acknowledgementRequired (pendingItems : List ChecklistItem) (totalItemCount : ℕ)
  | concurrentModification (currentVersion : Option ℕ)
  | completed (rotation : Rotation) (checklistItems : List ChecklistItem)
      (singleActorAttested : Bool)
  | promoted (rotation : Rotation) (checklistItems : List ChecklistItem)
      (checklistAcknowledged : Bool) (pendingItemCountAtAction : ℕ)
  | retired (rotation : Rotation) (checklistItems : List ChecklistItem)
      (checklistAcknowledged : Bool) (pendingItemCountAtAction : ℕ)
  | resumed (rotation : Rotation) (checklistItems : List ChecklistItem)
  | abandoned (rotation : Rotation) (checklistItems : List ChecklistItem)

/-- `computeSingleActorAttested`. -/
def computeSingleActorAttested (items : List ChecklistItem) (initiatedBy : Option ℕ) : Bool :=
  match (items.map ChecklistItem.confirmedBy).eraseDups with
  | [some user] => initiatedBy = some user
  | _ => false

/-- `LEGACY_COMPLETE_BLOCKED_STATUSES`. -/
def legacyCompleteBlockedStatuses : List RotationStatus := [.staged, .promoted, .retired]

/-- `completeRotation`, the legacy transition out of `in_progress`. -/
def completeRotation (s : Store) (now : ℕ) (locked : Bool) (params : RotationParams)
    (acknowledgedNoDependencies : Bool) : TransitionResult × Store :=
  match acquireAndLoadRotation s locked params [.inProgress] with
  | .lockedConflict v => (.lockedConflict v, s)
  | .notFound => (.rotationNotFound, s)
  | .notActive rotation =>
    if rotation.status ∈ legacyCompleteBlockedStatuses then
      (.wrongStateForLegacyComplete rotation.status, s)
    else (.rotationNotActive rotation.status, s)
  | .ok rotation =>
    let items := loadChecklistItems s params.rotationId
    let pending := items.filter ChecklistItem.isPending
    if pending ≠ [] then (.checklistIncomplete pending items.length, s)
    else if items = [] ∧ acknowledgedNoDependencies = false then
      (.acknowledgementRequired [] 0, s)
    else
      match casTransitionRotation s now params rotation.version
          (fun r => { r with status := .completed, completedAt := some now }) none with
      | (.inr v, s) => (.concurrentModification v, s)
      | (.inl updated, s) =>
        (.completed updated items (computeSingleActorAttested items rotation.initiatedBy),
          s.updateVersion rotation.previousVersionId fun v =>
            { v with rotationLockedAt := none })

/-- The two acknowledgement flags of `PromoteRotationBody` and
`RetireRotationBody`. -/
structure Acknowledgement where
  noDependencies : Bool
  incompleteChecklist : Bool

/-- `evaluateChecklistAcknowledgement`: the refusal, or whether an incomplete
checklist was acknowledged and how many items were pending. -/
def evaluateChecklistAcknowledgement (items : List ChecklistItem) (ack : Acknowledgement) :
    TransitionResult ⊕ Bool × ℕ :=
  let pending := items.filter ChecklistItem.isPending
  if items = [] then
    if ack.noDependencies = false then .inl (.acknowledgementRequired [] 0) else .inr (false, 0)
  else if pending ≠ [] then
    if ack.incompleteChecklist = false then .inl (.acknowledgementRequired pending items.length)
    else .inr (true, pending.length)
  else .inr (false, 0)

/-- `acquireLoadAndAcknowledgeRotation`: the rotation must be in exactly the
expected status. -/
def acquireLoadAndAcknowledgeRotation (s : Store) (locked : Bool) (params : RotationParams)
    (ack : Acknowledgement) (expectedStatus : RotationStatus)
    (wrongStatus : RotationStatus → TransitionResult) :
    TransitionResult ⊕ Rotation × List ChecklistItem × Bool × ℕ :=
  match acquireRotationScopedLockAndFind s locked params with
  | .lockedConflict v => .inl (.lockedConflict v)
  | .notFound => .inl .rotationNotFound
  | .found rotation =>
    if rotation.status ≠ expectedStatus then .inl (wrongStatus rotation.status)
    else
      let items := loadChecklistItems s params.rotationId
      match evaluateChecklistAcknowledgement items ack with
      | .inl refusal => .inl refusal
      | .inr (acknowledged, pendingCount) => .inr (rotation, items, acknowledged, pendingCount)

/-- `promoteRotation`: `staged` to `promoted`, the new version becomes readable. -/
def promoteRotation (s : Store) (now : ℕ) (locked : Bool) (params : RotationParams)
    (ack : Acknowledgement) : TransitionResult × Store :=
  match acquireLoadAndAcknowledgeRotation s locked params ack .staged .notPromotable with
  | .inl result => (result, s)
  | .inr (rotation, items, acknowledged, pendingCount) =>
    match casTransitionRotation s now params rotation.version
        (fun r => { r with status := .promoted, promotedAt := some now }) none with
    | (.inr v, s) => (.concurrentModification v, s)
    | (.inl updated, s) =>
      (.promoted updated items acknowledged pendingCount,
        s.updateVersion updated.newVersionId fun v => { v with promotedAt := some now })

/-- The purge of a superseded version; a purged row is left alone. -/
def purgeUnlessPurged (now : ℕ) (v : CredentialVersion) : CredentialVersion :=
  if v.purgedAt = none then
    { v with encryptedValue := none, keyVersion := none, purgedAt := some now,
             rotationLockedAt := none }
  else v

/-- `retireRotation`: `promoted` to `retired`, the superseded version is purged. -/
def retireRotation (s : Store) (now : ℕ) (locked : Bool) (params : RotationParams)
    (ack : Acknowledgement) : TransitionResult × Store :=
  match acquireLoadAndAcknowledgeRotation s locked params ack .promoted .notRetirable with
  | .inl result => (result, s)
  | .inr (rotation, items, acknowledged, pendingCount) =>
    match casTransitionRotation s now params rotation.version
        (fun r => { r with status := .retired, retiredAt := some now }) none with
    | (.inr v, s) => (.concurrentModification v, s)
    | (.inl updated, s) =>
      (.retired updated items acknowledged pendingCount,
        s.updateVersion updated.previousVersionId (purgeUnlessPurged now))

/-- `resumeRotation`: `stale_recovery` back to `in_progress`. -/
def resumeRotation (s : Store) (now : ℕ) (locked : Bool) (params : RotationParams) :
    TransitionResult × Store :=
  match acquireRotationScopedLockAndFind s locked params with
  | .lockedConflict v => (.lockedConflict v, s)
  | .notFound => (.rotationNotFound, s)
  | .found rotation =>
    if rotation.status ≠ .staleRecovery then (.notStale rotation.status, s)
    else
      match casTransitionRotation s now params rotation.version
          (fun r => { r with status := .inProgress }) (some .staleRecovery) with
      | (.inr v, s) => (.concurrentModification v, s)
      | (.inl updated, s) => (.resumed updated (loadChecklistItems s params.rotationId), s)

/-- The version writes of an abandonment: the new version is given up and the
superseded one is released. -/
def abandonVersions (s : Store) (now : ℕ) (newVersionId previousVersionId : ℕ) : Store :=
  (s.updateVersion newVersionId fun v => { v with abandonedAt := some now }).updateVersion
    previousVersionId fun v => { v with rotationLockedAt := none }

/-- `abandonRotation`: `staged` or `stale_recovery` to `abandoned`. -/
def abandonRotation (s : Store) (now : ℕ) (locked : Bool) (params : RotationParams) :
    TransitionResult × Store :=
  match acquireRotationScopedLockAndFind s locked params with
  | .lockedConflict v => (.lockedConflict v, s)
  | .notFound => (.rotationNotFound, s)
  | .found rotation =>
    if rotation.status = .promoted then (.notAbandonableAfterPromotion, s)
    else if rotation.status ≠ .staleRecovery ∧ rotation.status ≠ .staged then
      (.notStale rotation.status, s)
    else
      match casTransitionRotation s now params rotation.version
          (fun r => { r with status := .abandoned }) (some rotation.status) with
      | (.inr v, s) => (.concurrentModification v, s)
      | (.inl updated, s) =>
        (.abandoned updated (loadChecklistItems s params.rotationId),
          abandonVersions s now updated.newVersionId updated.previousVersionId)

/-! ### Break-glass -/

/-- The arguments of `breakGlassRotation`. -/
structure BreakGlassInput where
  orgId : ℕ
  projectId : ℕ
  credentialId : ℕ
  userId : ℕ
  newValue : String
  reason : String
  overlapMinutes : ℕ
  idempotencyWindowSeconds : ℕ

/-- `BreakGlassResult`. -/
inductive BreakGlassResult where
  | lockContention
  | credentialNotFound
  | totpFieldUnsupported
  | promotedRotationConflict (rotationId : ℕ)
  | ok (rotation : Rotation) (supersededRotationId : Option ℕ)
      (previousVersionNumber : ℕ) (breakGlassOverlapExpiresAt : ℕ)
      (dependentSystems : List CredentialDependency) (deduped : Bool)

/-- `activeDependentSystems`. -/
def activeDependentSystems (s : Store) (orgId credentialId : ℕ) : List CredentialDependency :=
  dependencyChecklist s orgId credentialId none

/-- `currentVersionHasTotpField`. -/
def currentVersionHasTotpField (s : Store) (credentialId : ℕ) : Bool :=
  let version := selectCurrentVersionMeta s credentialId
  (fieldMetaForResponse ((version.map CredentialVersion.schemaVersion).getD 1)
    (version.bind CredentialVersion.fieldMeta)).any fun m => m.kind = some .totp

/-- `findRecentDuplicateBreakGlass`: the window is compared in integers, so a
window longer than the clock's reading is no restriction. -/
def findRecentDuplicateBreakGlass (s : Store) (now : ℕ) (credentialId : ℕ) (windowMs : ℕ) :
    Option Rotation :=
  (s.rotations.filter fun r => r.credentialId = credentialId ∧
    r.status = .breakGlassComplete ∧ now < r.initiatedAt + windowMs).argmax Rotation.initiatedAt

/-- `buildDedupedBreakGlassResult`. -/
def buildDedupedBreakGlassResult (s : Store) (now : ℕ) (orgId credentialId : ℕ)
    (duplicate : Rotation) : BreakGlassResult :=
  let previousVersion := s.versions.find? fun v => v.id = duplicate.previousVersionId
  .ok duplicate none ((previousVersion.map CredentialVersion.versionNumber).getD 0)
    ((previousVersion.bind CredentialVersion.breakGlassOverlapExpiresAt).getD now)
    (activeDependentSystems s orgId credentialId) true

/-- How `supersedeActiveRotation` ends. -/
inductive SupersedeResult where
  | lockNotAvailable
  | promotedConflict (rotationId : ℕ)
  | ok (supersededRotationId : Option ℕ) (store : Store)

/-- `supersedeActiveRotation`: an unpromoted active rotation is abandoned, a
promoted one is the conflict. -/
def supersedeActiveRotation (s : Store) (now : ℕ) (rowLock : Bool) (credentialId : ℕ) :
    SupersedeResult :=
  match s.rotations.find? fun r => r.credentialId = credentialId ∧ r.isActive = true with
  | none => .ok none s
  | some active =>
    if rowLock = false then .lockNotAvailable
    else if active.status = .promoted then .promotedConflict active.id
    else
      .ok (some active.id)
        (abandonVersions (s.updateRotation active.id fun r =>
          { r with status := .abandoned, version := active.version + 1, updatedAt := now })
          now active.newVersionId active.previousVersionId)

/-- `createBreakGlassVersion`: the superseded version and the new, readable
one. -/
def createBreakGlassVersion (s : Store) (now : ℕ) (input : BreakGlassInput) :
    Except VaultError (CredentialVersion × CredentialVersion × Store) := do
  let previousVersion ← lockCurrentNonPurgedVersion s input.credentialId
    ("breakGlassRotation: credential " ++ toString input.credentialId ++
      " has no non-purged/non-abandoned version to supersede")
  let (newVersion, s') ← s.insertVersion now
    { orgId := input.orgId, credentialId := input.credentialId,
      encryptedValue := encryptValue input.newValue, keyVersion := currentKeyVersion s,
      versionNumber := nextCredentialVersionNumber s input.credentialId,
      createdBy := input.userId, promotedAt := some now }
  return (previousVersion, newVersion, s')

/-- The writes of `breakGlassRotation` once nothing active is in the way. -/
def installBreakGlass (s : Store) (now : ℕ) (input : BreakGlassInput)
    (supersededRotationId : Option ℕ) : Except VaultError (BreakGlassResult × Store) := do
  let (previousVersion, newVersion, s₁) ← createBreakGlassVersion s now input
  let expiresAt := now + input.overlapMinutes * 60000
  let s₂ := s₁.updateVersion previousVersion.id fun v =>
    { v with rotationLockedAt := some now, breakGlassOverlapExpiresAt := some expiresAt }
  let (rotation, s₃) ← s₂.insertRotation now
    { orgId := input.orgId, projectId := input.projectId, credentialId := input.credentialId,
      newVersionId := newVersion.id, previousVersionId := previousVersion.id,
      status := .breakGlassComplete, initiatedBy := input.userId, notes := some input.reason }
  return (.ok rotation supersededRotationId previousVersion.versionNumber expiresAt
    (activeDependentSystems s₂ input.orgId input.credentialId) false, s₃)

/-- `breakGlassRotation`; `locked` and `rowLock` are the outcomes of the advisory
lock and of `FOR UPDATE NOWAIT`. -/
def breakGlassRotation (s : Store) (now : ℕ) (locked rowLock : Bool)
    (input : BreakGlassInput) : Except VaultError (BreakGlassResult × Store) :=
  if locked = false then .ok (.lockContention, s)
  else match findCredentialInProject s ⟨input.credentialId, input.projectId⟩ with
    | none => .ok (.credentialNotFound, s)
    | some _ =>
      if currentVersionHasTotpField s input.credentialId then .ok (.totpFieldUnsupported, s)
      else match findRecentDuplicateBreakGlass s now input.credentialId
          (input.idempotencyWindowSeconds * 1000) with
        | some duplicate =>
          .ok (buildDedupedBreakGlassResult s now input.orgId input.credentialId duplicate, s)
        | none =>
          match supersedeActiveRotation s now rowLock input.credentialId with
          | .lockNotAvailable => .ok (.lockContention, s)
          | .promotedConflict rotationId => .ok (.promotedRotationConflict rotationId, s)
          | .ok supersededRotationId s' => installBreakGlass s' now input supersededRotationId

/-! ### The staged value -/

/-- `GetStagedValueResult`. -/
inductive StagedValueResult where
  | rotationNotFound
  | notStaged (currentStatus : RotationStatus)
  | found (value : String) (versionNumber : ℕ)

/-- `getStagedValue`. -/
def getStagedValue (s : Store) (params : RotationParams) : Except VaultError StagedValueResult :=
  match findRotationInScope s params with
  | none => .ok .rotationNotFound
  | some rotation =>
    if rotation.status ≠ .staged then .ok (.notStaged rotation.status)
    else match s.versions.find? fun v => v.id = rotation.newVersionId ∧ v.abandonedAt = none with
      | none => .ok .rotationNotFound
      | some version =>
        match version.encryptedValue with
        | none => .ok .rotationNotFound
        | some e => do
            let plaintext ← plaintextWithoutTotpSeeds version.schemaVersion (withSecret e)
            let value ← unwrapRevealValue version.schemaVersion plaintext
            return .found value version.versionNumber

end ProjectVault
