import ProjectVault.Run.System
import ProjectVault.Credentials.Import
import ProjectVault.Rotation.Jobs

/-!
The credential service as a transition system.
-/

namespace ProjectVault

open Js

/-- The transactions that write the modelled tables. -/
inductive Op where
  | createCredential (input : CreateCredentialInput)
  | addVersion (input : AddVersionInput)
  | stageImport (input : StageImportInput)
  | confirmImport (input : ConfirmImportInput)
  | initiate (locked : Bool) (input : InitiateRotationInput)
  | confirmItem (locked : Bool) (params : RotationParams) (itemId userId : ℕ)
      (notes : Option String)
  | failItem (locked : Bool) (params : RotationParams) (itemId userId : ℕ) (reason : String)
      (retryScheduledAt : Option ℕ)
  | retryItem (locked : Bool) (params : RotationParams) (itemId userId : ℕ) (maxRetries : ℕ)
  | complete (locked : Bool) (params : RotationParams) (acknowledgedNoDependencies : Bool)
  | promote (locked : Bool) (params : RotationParams) (ack : Acknowledgement)
  | retire (locked : Bool) (params : RotationParams) (ack : Acknowledgement)
  | resume (locked : Bool) (params : RotationParams)
  | abandon (locked : Bool) (params : RotationParams)
  | breakGlass (locked rowLock : Bool) (input : BreakGlassInput)
  | expireOverlap (locked : Bool) (versionId : ℕ)
  | recover (locked : Bool) (rotationId : ℕ)
  | prune (credentialId : ℕ) (retentionCount : ℕ) (dryRun : Bool)
  | archiveCredential (credentialId : ℕ) (archivedAt : Option ℕ)
  | environment (projects : List Project) (memberships : List OrgMembership)
      (dependencies : List CredentialDependency)

/-- The store a transaction leaves: a thrown error rolls everything back. -/
def committed {α : Type} (s : Store) : Except VaultError (α × Store) → Store
  | .ok (_, s') => s'
  | .error _ => s

/-- The store after a transaction. -/
def Op.apply (rt : Runtime) (s : Store) (now : ℕ) : Op → Store
  | .createCredential input => committed s (createCredentialWithFirstVersion rt s now input)
  | .addVersion input => committed s (addCredentialVersion rt s now input)
  | .stageImport input => (stageCredentialImport s now input).2
  | .confirmImport input => committed s (confirmCredentialImport s now input)
  | .initiate locked input => committed s (initiateRotation rt s now locked input)
  | .confirmItem locked params itemId userId notes =>
    committed s (confirmChecklistItem s now locked params itemId userId notes)
  | .failItem locked params itemId userId reason retryScheduledAt =>
    committed s (failChecklistItem s now locked params itemId userId reason retryScheduledAt)
  | .retryItem locked params itemId userId maxRetries =>
    committed s (retryChecklistItem s now locked params itemId userId maxRetries)
  | .complete locked params ack => (completeRotation s now locked params ack).2
  | .promote locked params ack => (promoteRotation s now locked params ack).2
  | .retire locked params ack => (retireRotation s now locked params ack).2
  | .resume locked params => (resumeRotation s now locked params).2
  | .abandon locked params => (abandonRotation s now locked params).2
  | .breakGlass locked rowLock input =>
    committed s (breakGlassRotation s now locked rowLock input)
  | .expireOverlap locked versionId => expireOneVersion s now locked versionId
  | .recover locked rotationId => recoverOneRotation s now locked rotationId
  | .prune credentialId retentionCount dryRun =>
    pruneCredentialVersions s now credentialId retentionCount dryRun
  | .archiveCredential credentialId archivedAt =>
    { s with credentials := Db.updateWhere (fun c => c.id = credentialId)
               (fun c => { c with archivedAt }) s.credentials }
  | .environment projects memberships dependencies =>
    { s with projects, memberships, dependencies }

/-- The store with the time of its last transaction. -/
structure VaultState where
  store : Store
  clock : ℕ

/-- A transaction with the time it runs at. -/
structure Timed where
  now : ℕ
  op : Op

/-- The credential service: transactions one after another, at times that never
decrease. -/
def vault (rt : Runtime) : Run.System VaultState Timed where
  init := ⟨Store.empty, 0⟩
  step v t := if v.clock ≤ t.now then some ⟨t.op.apply rt v.store t.now, t.now⟩ else none

end ProjectVault
