import ProjectVault.Rotation.Service

/-!
The background jobs that write credential versions and rotations: the retention
pruner (`prune-credential-versions.ts`), the break-glass overlap expiry
(`rotation-break-glass-expire.ts`) and the stale-rotation recovery
(`rotation-recover.ts`).

Each job works in one short transaction per credential, version or rotation, and
that transaction is the unit modelled here. A transaction the audit gate aborts
leaves the store as it was.
-/

namespace ProjectVault

/-! ### Retention -/

/-- The versions retention ranks: not purged and not locked, highest number
first. -/
def retentionRanking (s : Store) (credentialId : ℕ) : List CredentialVersion :=
  Db.sortDesc CredentialVersion.versionNumber
    ((s.versionsOf credentialId).filter fun v =>
      v.purgedAt.isNone && v.rotationLockedAt.isNone)

/-- The version `purgeCandidatesForCredential` takes to be current. -/
def retentionCurrent (s : Store) (credentialId : ℕ) : Option ℕ :=
  ((retentionRanking s credentialId).find? fun v => v.abandonedAt.isNone).map
    CredentialVersion.id

/-- `purgeCandidatesForCredential`. -/
def purgeCandidatesForCredential (s : Store) (credentialId : ℕ) (retentionCount : ℕ) :
    List CredentialVersion :=
  let keepCount := max retentionCount 1
  ((retentionRanking s credentialId).drop keepCount).filter fun v =>
    some v.id ≠ retentionCurrent s credentialId

/-- The columns a purge clears. -/
def CredentialVersion.purge (now : ℕ) (v : CredentialVersion) : CredentialVersion :=
  { v with encryptedValue := none, keyVersion := none, purgedAt := some now }

/-- `purgeVersion`: the candidate is looked at again before it is purged. -/
def purgeVersion (s : Store) (now : ℕ) (candidateId : ℕ) : Store :=
  if s.versions.any fun v =>
      v.id = candidateId ∧ v.rotationLockedAt = none ∧ v.purgedAt = none then
    s.updateVersion candidateId (CredentialVersion.purge now)
  else s

/-- One credential's transaction of `pruneOrgCredentialVersions`. -/
def pruneCredentialVersions (s : Store) (now : ℕ) (credentialId : ℕ) (retentionCount : ℕ)
    (dryRun : Bool) : Store :=
  if dryRun then s
  else (purgeCandidatesForCredential s credentialId retentionCount).foldl
    (fun s candidate => purgeVersion s now candidate.id) s

/-! ### Break-glass overlap -/

/-- The rows the expiry update matches. -/
def overlapExpired (now : ℕ) (v : CredentialVersion) : Bool :=
  match v.breakGlassOverlapExpiresAt with
  | some expiresAt => expiresAt ≤ now
  | none => false

/-- `expireOneVersion`. -/
def expireOneVersion (s : Store) (now : ℕ) (locked : Bool) (candidateId : ℕ) : Store :=
  if locked = false then s
  else { s with versions := Db.updateWhere
                  (fun v => decide (v.id = candidateId) && overlapExpired now v)
                  (fun v => { v with rotationLockedAt := none, breakGlassOverlapExpiresAt := none })
                  s.versions }

/-! ### Stale rotations -/

/-- `RESETTABLE_STATUSES`. -/
def resettableStatuses : List ChecklistStatus := [.unconfirmed, .failed, .maxRetriesExceeded]

/-- The columns the recovery sets. -/
def Rotation.markStale (now : ℕ) (r : Rotation) : Rotation :=
  { r with status := .staleRecovery, version := r.version + 1, updatedAt := now }

/-- `recoverOneRotation`. -/
def recoverOneRotation (s : Store) (now : ℕ) (locked : Bool) (rotationId : ℕ) : Store :=
  if locked = false then s
  else if s.rotations.any fun r => r.id = rotationId ∧ r.status = .inProgress then
    { s with
      rotations := Db.updateWhere (fun r => r.id = rotationId ∧ r.status = .inProgress)
        (Rotation.markStale now) s.rotations
      checklistItems := Db.updateWhere
        (fun i => i.rotationId = rotationId ∧ i.status ∈ resettableStatuses)
        (fun i => { i with status := .unconfirmed }) s.checklistItems }
  else s

end ProjectVault
