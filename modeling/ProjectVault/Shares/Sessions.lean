import ProjectVault.Db.Rows
import ProjectVault.Shares.Scope

/-!
The transactions on credential shares, statement by statement
(`credential-shares/service.ts`, `external-service.ts`,
`external-verification-service.ts`, `workers/credential-share-expire.ts`).

A statement that throws rolls its transaction back: the session is closed there.
Tokens, codes and proofs are numbers drawn from the sequence, and a hash is the number
it was made from.
-/

namespace ProjectVault.Shares

open Js Db

/-! ### State -/

/-- `AttemptCapLockReason`. -/
inductive AttemptCapLockReason where
  | revealAttemptsExhausted | verificationAttemptsExhausted
  deriving DecidableEq

/-- The audit events the share code writes itself. -/
inductive ShareEvent where
  | expired | viewed | locked (reason : AttemptCapLockReason)
  deriving DecidableEq

/-- An audit row about a share. -/
structure ShareAudit where
  shareId : ℕ
  event : ShareEvent
  createdAt : ℕ

/-- The tables. -/
structure ShareDb where
  vault : Store
  shares : List CredentialShare
  audit : List ShareAudit

/-- The locks: the rows of the table, and the advisory locks of the pending cap. -/
inductive ShareLock where
  | row (id : ℕ)
  | cap (credentialId : ℕ) (lockSuffix : String)
  deriving DecidableEq

/-- The refusals of a creation. -/
inductive CreateRefusal where
  | credentialNotFound | credentialArchived | selfShare | recipientNotFound | recipientInactive
  | scope (e : ScopeError) | ambiguousShareScope | expiresAtPast | expiresAtTooFarInFuture
  | capExceeded
  deriving DecidableEq

/-- `RevealShareResult` and `RevealExternalShareResult`; an answered share names the
proof it was opened with and the moment that proof was checked. -/
inductive RevealResult where
  | notFound | sessionMismatch | recipientIneligible | expired | alreadyViewed | revoked
  | ok (share : CredentialShare) (bounded : SerializeBoundedResult) (gate : Option (ℕ × ℕ))
  deriving DecidableEq

/-- What a transaction answers. -/
inductive ShareAnswer where
  | refused (r : CreateRefusal)
  | created (id : ℕ)
  | metadata (status : Option ShareStatus)
  | reveal (result : RevealResult)
  | losingAttempt
  | revoke (result : Option (CredentialShare × Bool))
  | autoRevoked (ids : List ℕ)
  | swept (expired : Bool)
  | superseded (ids : List ℕ)
  | sent (id code : ℕ)
  | notSent
  | confirmed (id code proof : ℕ)
  | wrongCode (id : ℕ)
  | unverifiable
  | credentials
  | failed
  deriving DecidableEq

/-- Code over the tables. -/
abbrev ShareProg (α : Type) := Prog ShareDb ShareLock ShareAnswer α

/-- `credential_shares`. -/
def shareTable : Db.Table ShareDb ShareLock CredentialShare where
  rows := ShareDb.shares
  modify f d := { d with shares := f d.shares }
  rows_modify _ _ := rfl
  id := CredentialShare.id
  lock := .row
  lock_injective _ _ h := by simpa using h

namespace ShareDb

/-- The row of a share. -/
def row (d : ShareDb) (id : ℕ) : Option CredentialShare := shareTable.find d id

/-- The share a token opens, joined with its credential. -/
def byToken (d : ShareDb) (orgId : Option ℕ) (tokenHash : ℕ) : Option CredentialShare :=
  (d.shares.find? fun s => s.tokenHash = tokenHash && orgId.all fun o => s.orgId = o).filter
    fun s => d.vault.credentials.any fun c => c.id = s.credentialId

/-- `adminLookupByTokenHash`. -/
def adminLookup (d : ShareDb) (tokenHash : ℕ) : Option CredentialShare :=
  d.shares.find? fun s => s.tokenHash = tokenHash

end ShareDb

/-! ### Statements -/

/-- `UPDATE credential_shares SET … WHERE id = … AND … RETURNING *`. -/
def updateShare (id : ℕ) (cond : Ctx ShareDb → CredentialShare → Bool)
    (set : Ctx ShareDb → CredentialShare → CredentialShare) :
    ShareProg (Option CredentialShare) :=
  shareTable.updateRow id cond set

/-- `UPDATE credential_shares SET … WHERE … RETURNING *`. -/
def updateShares (cond : Ctx ShareDb → CredentialShare → Bool)
    (set : Ctx ShareDb → CredentialShare → CredentialShare) : ShareProg (List CredentialShare) :=
  shareTable.updateRows cond set

/-- `INSERT INTO credential_shares … RETURNING *`. -/
def insertShare (values : Ctx ShareDb → CredentialShare) : ShareProg CredentialShare :=
  shareTable.insertRow values

/-- `writeSystemAuditEntryOrFailClosed`. -/
def writeAudit (shareId : ℕ) (event : ShareEvent) : ShareProg Unit :=
  .update (fun _ => [])
    (fun c d => { d with audit := ⟨shareId, event, c.start⟩ :: d.audit }) fun _ => ()

/-- `Date.now()`. -/
def dateNow : ShareProg ℕ := .query fun c => c.clock

/-- The store of the credentials as a statement sees it. -/
def readVault : ShareProg Store := .query fun c => c.view.vault

/-- `serializeBounded` inside a transaction, its statements one after another. -/
def serializeBoundedTx (rt : Runtime) (share : CredentialShare) :
    ShareProg (Except VaultError SerializeBoundedResult) := do
  let project ← readVault
  let credential ← readVault
  let version ← readVault
  let abandoned ← readVault
  let metadata ← readVault
  return serializeBounded rt ⟨project, credential, version, abandoned, metadata⟩
    share.credentialId (effectiveAttributeKeysForShare share.scope)

/-- The end of a transaction: a throw rolls it back. -/
def endTransaction (answer : ShareAnswer) : ShareProg Unit :=
  match answer with
  | .failed => .rollbackTx .failed
  | answer => .commitTx answer

/-- A transaction around a body. -/
def transaction (body : ShareProg ShareAnswer) : ShareProg Unit := do
  .beginTx
  let answer ← body
  endTransaction answer

/-! ### Creation -/

/-- What both kinds of creation request carry. -/
structure ShareRequest where
  orgId : ℕ
  projectId : ℕ
  credentialId : ℕ
  sharedByUserId : ℕ
  fieldKey : Option String
  attributeKeys : Option (List String)
  expiresAt : ℕ

/-- `SHARE_MAX_TTL_MS`. -/
def shareMaxTtlMs : ℕ := 7 * 24 * 60 * 60 * 1000

/-- `EXTERNAL_SHARE_MAX_TTL_MS`. -/
def externalShareMaxTtlMs : ℕ := 72 * 60 * 60 * 1000

/-- `MAX_PENDING_EXTERNAL_SHARES_PER_FIELD`. -/
def maxPendingExternalSharesPerField : ℕ := 5

/-- `preflightCredentialForShareCreation`; whether the project is deleted is left
open. -/
def preflightCredentialForShareCreation (request : ShareRequest) :
    ShareProg (Option CreateRefusal) := do
  let exists? ← readVault
  if (findCredentialInProject exists? ⟨request.credentialId, request.projectId⟩).isNone then
    return some .credentialNotFound
  if ← .either then return some .credentialNotFound
  let archived ← readVault
  if archived.credentials.any fun c => c.id = request.credentialId && c.archivedAt.isSome then
    return some .credentialArchived
  return none

/-- `validateShareFieldAndExpiry`: the normalised field key and attribute keys. -/
def validateShareFieldAndExpiry (rt : Runtime) (collation : Collation) (request : ShareRequest)
    (maxTtlMs : ℕ) : ShareProg (Except CreateRefusal (Option String × Option (List String))) := do
  let s ← readVault
  match validateFieldKey rt s request.credentialId request.fieldKey with
  | .error e => return .error (.scope e)
  | .ok field =>
    let s' ← readVault
    match validateAttributeKeys rt collation s' request.credentialId request.attributeKeys with
    | .error e => return .error (.scope e)
    | .ok keys =>
      if (field.any fun key => key ≠ "") && keys.isSome then return .error .ambiguousShareScope
      let now ← dateNow
      if request.expiresAt ≤ now then return .error .expiresAtPast
      if now + maxTtlMs < request.expiresAt then return .error .expiresAtTooFarInFuture
      return .ok (field, keys)

/-- The scope of a row, if the checks of the table admit it. -/
def ShareScope.of? (fieldKey : Option String) (attributeKeys : Option (List String)) :
    Option ShareScope :=
  if h : ¬ (fieldKey.isSome = true ∧ attributeKeys.isSome = true) ∧ attributeKeys ≠ some [] then
    some ⟨fieldKey, attributeKeys, h.1, h.2⟩
  else none

/-- `baseShareInsertValues` with the defaults of the table; the id and the token are
drawn from the sequence. -/
def baseShareInsertValues (request : ShareRequest) (scope : ShareScope) (c : Ctx ShareDb) :
    CredentialShare where
  id := c.seq
  orgId := request.orgId
  credentialId := request.credentialId
  scope := scope
  sharedBy := request.sharedByUserId
  actingUserId := none
  recipientType := .user
  recipientUserId := none
  tokenHash := c.seq
  singleUse := true
  createdAt := c.start
  expiresAt := request.expiresAt
  revokedAt := none
  supersededAt := none
  firstViewedAt := none
  viewCount := 0
  status := .active
  revealAttemptCount := 0
  verificationRequired := false
  verificationCodeHash := none
  verificationCodeExpiresAt := none
  verificationAttemptCount := 0
  verificationSendCount := 0
  verificationSentAt := none
  verificationProofHash := none
  verifiedAt := none
  lockedAt := none

/-- `findActiveOrgMembership`. -/
def findActiveOrgMembership (s : Store) (orgId userId : ℕ) : Option String :=
  (s.memberships.find? fun m => m.orgId = orgId && m.userId = userId).map OrgMembership.status

/-- `createCredentialShare`. -/
def createCredentialShare (rt : Runtime) (collation : Collation) (request : ShareRequest)
    (recipientUserId : ℕ) (singleUse : Bool) : ShareProg ShareAnswer := do
  match ← preflightCredentialForShareCreation request with
  | some refusal => return .refused refusal
  | none =>
    if recipientUserId = request.sharedByUserId then return .refused .selfShare
    let s ← readVault
    match findActiveOrgMembership s request.orgId recipientUserId with
    | none => return .refused .recipientNotFound
    | some status =>
      if status ≠ "active" then return .refused .recipientInactive
      match ← validateShareFieldAndExpiry rt collation request shareMaxTtlMs with
      | .error refusal => return .refused refusal
      | .ok (field, keys) =>
        match ShareScope.of? field keys with
        | none => return .failed
        | some scope =>
          let share ← insertShare fun c =>
            { baseShareInsertValues request scope c with
              recipientUserId := some recipientUserId, singleUse }
          return .created share.id

/-- `JSON.stringify` of a list of keys. -/
def keysText (keys : List String) : String := stringify (.arr (keys.map .str))

/-- The keys of the bucket of `pendingCapBucket`. -/
def bucketKeys (normalizedField : Option String) (normalizedAttributeKeys : Option (List String)) :
    Option (List String) :=
  match normalizedField with
  | some key => if key = "" then normalizedAttributeKeys else some [key]
  | none => normalizedAttributeKeys

/-- `lockSuffix` of `pendingCapBucket`. -/
def lockSuffix (effectiveKeys : Option (List String)) : String :=
  match effectiveKeys with
  | some (key :: keys) => keysText (key :: keys)
  | _ => ""

/-- `fieldCondition` of `pendingCapBucket`. -/
def fieldCondition (effectiveKeys : Option (List String)) (s : CredentialShare) : Bool :=
  match effectiveKeys with
  | some (key :: keys) =>
    if keys = [] ∧ key ≠ "" then
      s.fieldKey = some key || s.attributeKeys = some (key :: keys)
    else s.attributeKeys = some (key :: keys)
  | _ => s.fieldKey = none && s.attributeKeys = none

/-- The rows the pending cap counts. -/
def isPending (credentialId : ℕ) (effectiveKeys : Option (List String)) (now : ℕ)
    (s : CredentialShare) : Bool :=
  s.credentialId = credentialId && s.recipientType = .external && fieldCondition effectiveKeys s &&
    s.status = .active && now < s.expiresAt

/-- `createExternalCredentialShare`. -/
def createExternalCredentialShare (rt : Runtime) (collation : Collation) (request : ShareRequest)
    (hostCreated : Bool) (actingUserId : Option ℕ) : ShareProg ShareAnswer := do
  match ← preflightCredentialForShareCreation request with
  | some refusal => return .refused refusal
  | none =>
    match ← validateShareFieldAndExpiry rt collation request externalShareMaxTtlMs with
    | .error refusal => return .refused refusal
    | .ok (field, keys) =>
      let effectiveKeys := bucketKeys field keys
      .lock (.cap request.credentialId (lockSuffix effectiveKeys))
      let pendingCount ← .query fun c =>
        c.view.shares.countP (isPending request.credentialId effectiveKeys c.start)
      if maxPendingExternalSharesPerField ≤ pendingCount then return .refused .capExceeded
      match ShareScope.of? field keys with
      | none => return .failed
      | some scope =>
        let share ← insertShare fun c =>
          { baseShareInsertValues request scope c with
            recipientType := .external
            verificationRequired := !hostCreated
            actingUserId := if hostCreated then actingUserId else none }
        return .created share.id

/-! ### Closing a share -/

/-- `findShareInScope`. -/
def findShareInScope (d : ShareDb) (orgId credentialId shareId : ℕ) : Option CredentialShare :=
  d.shares.find? fun s => s.orgId = orgId && s.credentialId = credentialId && s.id = shareId

/-- `revokeShare`. -/
def revokeShare (orgId credentialId shareId : ℕ) : ShareProg ShareAnswer := do
  match ← .query fun c => findShareInScope c.view orgId credentialId shareId with
  | none => return .revoke none
  | some existing =>
    if existing.status ≠ .active then return .revoke (some (existing, true))
    let now ← dateNow
    match ← updateShare existing.id (fun _ s => s.status = .active)
        (fun _ s => { s with status := .revoked, revokedAt := some now }) with
    | some updated => return .revoke (some (updated, false))
    | none =>
      match ← .query fun c => findShareInScope c.view orgId credentialId shareId with
      | none => return .revoke none
      | some current => return .revoke (some (current, true))

/-- `autoRevokeSharesForDeactivatedUser`. -/
def autoRevokeSharesForDeactivatedUser (orgId userId : ℕ) : ShareProg ShareAnswer := do
  let now ← dateNow
  let rows ← updateShares
    (fun _ s => s.orgId = orgId && s.effectiveSharer = userId && s.status = .active)
    (fun _ s => { s with status := .revoked, revokedAt := some now })
  return .autoRevoked (rows.map CredentialShare.id)

/-- `supersedeOutstandingSharesForRotation`, as a statement. -/
def supersedeShares (params : SupersedeParams) : ShareProg ShareAnswer := do
  let now ← dateNow
  let rows ← updateShares (fun _ s => supersedeWhere params s) (fun _ s => s.superseded now)
  return .superseded (rows.map CredentialShare.id)

/-- `lazilyExpireShareIfDue`. -/
def lazilyExpireShareIfDue (share : CredentialShare) : ShareProg CredentialShare := do
  let now ← dateNow
  if share.status ≠ .active ∨ now < share.expiresAt then return share
  match ← updateShare share.id (fun _ s => s.status = .active)
      (fun _ s => { s with status := .expired }) with
  | none => return share
  | some updated => do
      writeAudit updated.id .expired
      return updated

/-- `expireOneShare`. -/
def expireOneShare (shareId : ℕ) : ShareProg ShareAnswer := do
  match ← .query fun c => c.view.row shareId with
  | none => return .swept false
  | some row =>
    if row.status ≠ .active then return .swept false
    let updated ← lazilyExpireShareIfDue row
    return .swept (updated.status = .expired)

/-- `EXTERNAL_SHARE_MAX_REVEAL_ATTEMPTS`. -/
def externalShareMaxRevealAttempts : ℕ := 5

/-- The row `lockShareAfterAttemptCap` leaves. -/
def CredentialShare.locked (now : ℕ) (s : CredentialShare) : CredentialShare :=
  { s with status := .revoked, revokedAt := some now, lockedAt := some now,
           verificationCodeHash := none, verificationCodeExpiresAt := none }

/-- `lockShareAfterAttemptCap`. -/
def lockShareAfterAttemptCap (shareId : ℕ) (reason : AttemptCapLockReason) :
    ShareProg (Option CredentialShare) := do
  let now ← dateNow
  match ← updateShare shareId (fun _ s => s.status ≠ .revoked) (fun _ s => s.locked now) with
  | none => return none
  | some locked => do
      writeAudit locked.id (.locked reason)
      return some locked

/-- `recordLosingAttempt`. -/
def recordLosingAttempt (share : CredentialShare) : ShareProg Unit := do
  let updated ← updateShare share.id (fun _ _ => true)
    (fun _ s => { s with revealAttemptCount := s.revealAttemptCount + 1 })
  let current := updated.getD share
  if current.status ≠ .revoked ∧ externalShareMaxRevealAttempts ≤ current.revealAttemptCount then
    let _ ← lockShareAfterAttemptCap current.id .revealAttemptsExhausted

/-- `applyDeferredLosingAttempt`. -/
def applyDeferredLosingAttempt (shareId : ℕ) (expireIfDue : Bool) : ShareProg ShareAnswer := do
  match ← .query fun c => c.view.row shareId with
  | none => return .losingAttempt
  | some fresh =>
    let share ← if expireIfDue then lazilyExpireShareIfDue fresh else pure fresh
    recordLosingAttempt share
    return .losingAttempt

/-! ### Reveals -/

/-- `claimSingleUseView`. -/
def claimSingleUseView (shareId : ℕ) : ShareProg (Option CredentialShare) := do
  let now ← dateNow
  updateShare shareId (fun _ s => s.status = .active)
    (fun _ s => { s with status := .viewed, viewCount := 1, firstViewedAt := some now })

/-- `recordMultiView`. -/
def recordMultiView (shareId : ℕ) : ShareProg (Option CredentialShare) :=
  updateShare shareId (fun _ s => s.status = .active)
    (fun c s => { s with viewCount := s.viewCount + 1,
                         firstViewedAt := some (s.firstViewedAt.getD c.start) })

/-- `findShareByToken`: the share as read and expired if due, or the refusal. -/
def findShareByToken (orgId tokenHash sessionUserId : ℕ) :
    ShareProg (Except RevealResult CredentialShare) := do
  match ← .query fun c => c.view.byToken (some orgId) tokenHash with
  | none => return .error .notFound
  | some row =>
    if row.recipientUserId ≠ some sessionUserId then return .error .sessionMismatch
    let share ← lazilyExpireShareIfDue row
    return .ok share

/-- `precheckShareClaimable`. -/
def precheckShareClaimable (orgId sessionUserId : ℕ) (share : CredentialShare) :
    ShareProg (Option RevealResult) := do
  let s ← readVault
  if findActiveOrgMembership s orgId sessionUserId ≠ some "active" then
    return some .recipientIneligible
  if share.status = .revoked then return some .revoked
  if share.status = .expired ∨ share.status = .superseded then return some .expired
  let now ← dateNow
  if share.expiresAt ≤ now then do
    let _ ← lazilyExpireShareIfDue share
    return some .expired
  return none

/-- `resolveLostClaim`. -/
def resolveLostClaim (orgId credentialId shareId : ℕ) : ShareProg RevealResult := do
  match ← .query fun c => findShareInScope c.view orgId credentialId shareId with
  | none => return .alreadyViewed
  | some current =>
    if current.status = .revoked then return .revoked
    if current.status = .expired then return .expired
    return .alreadyViewed

/-- `revealShare`. -/
def revealShare (rt : Runtime) (orgId tokenHash sessionUserId : ℕ) : ShareProg ShareAnswer := do
  match ← findShareByToken orgId tokenHash sessionUserId with
  | .error refusal => return .reveal refusal
  | .ok share =>
    match ← precheckShareClaimable orgId sessionUserId share with
    | some blocked => return .reveal blocked
    | none =>
      match ← serializeBoundedTx rt share with
      | .error _ => return .failed
      | .ok .notFound => return .reveal .expired
      | .ok bounded =>
        match ← if share.singleUse then claimSingleUseView share.id
            else recordMultiView share.id with
        | none => return .reveal (← resolveLostClaim orgId share.credentialId share.id)
        | some claimed => return .reveal (.ok claimed bounded none)

/-- The metadata request of a member: `findShareByToken` in a transaction of its own. -/
def memberMetadata (orgId tokenHash sessionUserId : ℕ) : ShareProg ShareAnswer := do
  match ← findShareByToken orgId tokenHash sessionUserId with
  | .error _ => return .metadata none
  | .ok share => return .metadata (some share.status)

/-- `EXTERNAL_SHARE_VERIFICATION_PROOF_TTL_MS`. -/
def verificationProofTtlMs : ℕ := 15 * 60 * 1000

/-- `hasValidVerificationProof` at a moment. -/
def hasValidVerificationProof (share : CredentialShare) (proof : Option ℕ) (now : ℕ) : Bool :=
  match share.verifiedAt with
  | none => false
  | some verifiedAt =>
    if verifiedAt + verificationProofTtlMs ≤ now then false
    else proof.isSome && proof = share.verificationProofHash

/-- `terminalRevealStatusFor`. -/
def terminalRevealStatusFor : ShareStatus → Option RevealResult
  | .revoked => some .revoked
  | .expired => some .expired
  | .superseded => some .expired
  | _ => none

/-- What a reveal leaves to be done after the answer. -/
structure DeferredLosingAttempt where
  shareId : ℕ
  expireIfDue : Bool

/-- `RevealOutcome`. -/
abbrev RevealOutcome := ShareAnswer × Option DeferredLosingAttempt

/-- `precheckExternalShareClaimable` at a moment: the outcome, unless the share can be
claimed. -/
def precheckExternalShareClaimable (share : CredentialShare) (now : ℕ) : Option RevealOutcome :=
  match terminalRevealStatusFor share.status with
  | some terminal => some (.reveal terminal, some ⟨share.id, false⟩)
  | none =>
    if share.status = .viewed then some (.reveal .alreadyViewed, some ⟨share.id, false⟩)
    else if share.expiresAt ≤ now then some (.reveal .expired, some ⟨share.id, true⟩)
    else none

/-- `resolveLostExternalClaim`. -/
def resolveLostExternalClaim (share : CredentialShare) : ShareProg RevealOutcome := do
  let reread ← .query fun c => c.view.row share.id
  let lost := reread.getD share
  return (.reveal ((terminalRevealStatusFor lost.status).getD .alreadyViewed),
    some ⟨lost.id, false⟩)

/-- The transaction of `revealExternalShare`. -/
def revealExternalBody (rt : Runtime) (shareId : ℕ) (proof : Option ℕ) :
    ShareProg RevealOutcome := do
  match ← .query fun c => c.view.row shareId with
  | none => return (.reveal .notFound, none)
  | some current =>
    let now ← dateNow
    if current.verificationRequired && !hasValidVerificationProof current proof now then
      return (.reveal .notFound, some ⟨current.id, true⟩)
    let now' ← dateNow
    match precheckExternalShareClaimable current now' with
    | some outcome => return outcome
    | none =>
      match ← serializeBoundedTx rt current with
      | .error _ => return (.failed, none)
      | .ok .notFound => return (.reveal .expired, none)
      | .ok bounded =>
        match ← claimSingleUseView current.id with
        | none => resolveLostExternalClaim current
        | some claimed => do
            writeAudit claimed.id .viewed
            return (.reveal (.ok claimed bounded
              (if current.verificationRequired then proof.map fun p => (p, now) else none)),
              none)

/-- `revealExternalShare`: the lookup, the transaction, and after the answer the
deferred losing attempt in a transaction of its own. -/
def revealExternalShare (rt : Runtime) (tokenHash : ℕ) (proof : Option ℕ) : ShareProg Unit := do
  match ← .query fun c => c.view.adminLookup tokenHash with
  | none => .commitTx (.reveal .notFound)
  | some row =>
    if row.recipientType ≠ .external then .commitTx (.reveal .notFound)
    else do
      .beginTx
      let (answer, deferred) ← revealExternalBody rt row.id proof
      endTransaction answer
      match deferred with
      | none => pure ()
      | some d => transaction (applyDeferredLosingAttempt d.shareId d.expireIfDue)

/-- The body of `findExternalShareByTokenHash`. -/
def externalMetadata (shareId : ℕ) : ShareProg ShareAnswer := do
  match ← .query fun c => c.view.row shareId with
  | none => return .metadata none
  | some joined =>
    let share ← lazilyExpireShareIfDue joined
    return .metadata (some share.status)

/-- `findExternalShareByTokenHash`. -/
def findExternalShareByTokenHash (tokenHash : ℕ) : ShareProg Unit := do
  match ← .query fun c => c.view.adminLookup tokenHash with
  | none => .commitTx (.metadata none)
  | some row =>
    if row.recipientType ≠ .external then .commitTx (.metadata none)
    else transaction (externalMetadata row.id)

/-! ### Verification -/

/-- `EXTERNAL_SHARE_VERIFICATION_CODE_TTL_MS`. -/
def verificationCodeTtlMs : ℕ := 10 * 60 * 1000

/-- `EXTERNAL_SHARE_VERIFICATION_MAX_ATTEMPTS`. -/
def verificationMaxAttempts : ℕ := 5

/-- `EXTERNAL_SHARE_VERIFICATION_MAX_SENDS`. -/
def verificationMaxSends : ℕ := 5

/-- `EXTERNAL_SHARE_VERIFICATION_RESEND_COOLDOWN_SECONDS`, in milliseconds. -/
def verificationResendCooldownMs : ℕ := 60 * 1000

/-- `verifiableShareCondition`, without the id. -/
def verifiableShareCondition (now : ℕ) (s : CredentialShare) : Bool :=
  s.verificationRequired && s.status = .active && now < s.expiresAt && s.lockedAt.isNone &&
    s.verificationAttemptCount < verificationMaxAttempts

/-- The conditions on the sends of a share. -/
def sendAllowed (now : ℕ) (s : CredentialShare) : Bool :=
  s.verificationSendCount < verificationMaxSends &&
    s.verificationSentAt.all fun sentAt => sentAt + verificationResendCooldownMs ≤ now

/-- The row after a send. -/
def CredentialShare.sent (code now : ℕ) (s : CredentialShare) : CredentialShare :=
  { s with verificationCodeHash := some code,
           verificationCodeExpiresAt := some (now + verificationCodeTtlMs),
           verificationSendCount := s.verificationSendCount + 1, verificationSentAt := some now }

/-- `sendVerificationCode`: the code is drawn first. -/
def sendVerificationCode (shareId : ℕ) : ShareProg Unit := do
  let code ← .query fun c => c.seq
  transaction do
    match ← updateShare shareId
        (fun c s => verifiableShareCondition c.start s && sendAllowed c.start s)
        (fun c s => s.sent code c.start) with
    | none => return .notSent
    | some updated => return .sent updated.id code

/-- `requestExternalShareVerification`. -/
def requestExternalShareVerification (tokenHash : ℕ) : ShareProg Unit := do
  match ← .query fun c => c.view.adminLookup tokenHash with
  | none => .commitTx .notSent
  | some row =>
    if row.recipientType = .external ∧ row.verificationRequired = true then
      sendVerificationCode row.id
    else .commitTx .notSent

/-- A code that can still be guessed. -/
def codeIsLive (now : ℕ) (s : CredentialShare) : Bool :=
  s.verificationCodeHash.isSome && s.verificationCodeExpiresAt.any fun t => now < t

/-- The row after a successful confirm. -/
def CredentialShare.verified (proof now : ℕ) (s : CredentialShare) : CredentialShare :=
  { s with verificationAttemptCount := s.verificationAttemptCount - 1,
           verificationCodeHash := none, verificationCodeExpiresAt := none,
           verificationProofHash := some proof, verifiedAt := some now }

/-- The transaction of `confirmExternalShareVerification`. -/
def confirmBody (shareId code : ℕ) : ShareProg ShareAnswer := do
  match ← updateShare shareId (fun c s => verifiableShareCondition c.start s && codeIsLive c.start s)
      (fun _ s => { s with verificationAttemptCount := s.verificationAttemptCount + 1 }) with
  | none => return .unverifiable
  | some reserved =>
    if reserved.verificationCodeHash = some code then do
      let proof ← .query fun c => c.seq
      let _ ← updateShare reserved.id (fun _ _ => true) (fun c s => s.verified proof c.start)
      return .confirmed reserved.id code proof
    else do
      if verificationMaxAttempts ≤ reserved.verificationAttemptCount then
        let _ ← lockShareAfterAttemptCap reserved.id .verificationAttemptsExhausted
      return .wrongCode reserved.id

/-- `confirmExternalShareVerification`. -/
def confirmExternalShareVerification (tokenHash code : ℕ) : ShareProg Unit := do
  match ← .query fun c => c.view.adminLookup tokenHash with
  | none => .commitTx .unverifiable
  | some row =>
    if row.recipientType ≠ .external ∨ row.verificationRequired = false then
      .commitTx .unverifiable
    else transaction (confirmBody row.id code)

/-! ### Calls -/

/-- The calls; `credentials` stands for every transaction on the store of the
credentials. -/
inductive ShareCall where
  | create (request : ShareRequest) (recipientUserId : ℕ) (singleUse : Bool)
  | createExternal (request : ShareRequest) (hostCreated : Bool) (actingUserId : Option ℕ)
  | metadata (orgId tokenHash sessionUserId : ℕ)
  | externalMetadata (tokenHash : ℕ)
  | reveal (orgId tokenHash sessionUserId : ℕ)
  | revealExternal (tokenHash : ℕ) (proof : Option ℕ)
  | revoke (orgId credentialId shareId : ℕ)
  | autoRevoke (orgId userId : ℕ)
  | sweep (shareId : ℕ)
  | supersede (params : SupersedeParams)
  | requestVerification (tokenHash : ℕ)
  | confirmVerification (tokenHash code : ℕ)
  | credentials (vault : Store)

/-- The code of a call. -/
def shareCall (rt : Runtime) (collation : Collation) : ShareCall → ShareProg Unit
  | .create request recipientUserId singleUse =>
    transaction (createCredentialShare rt collation request recipientUserId singleUse)
  | .createExternal request hostCreated actingUserId =>
    transaction (createExternalCredentialShare rt collation request hostCreated actingUserId)
  | .metadata orgId tokenHash sessionUserId =>
    transaction (memberMetadata orgId tokenHash sessionUserId)
  | .externalMetadata tokenHash => findExternalShareByTokenHash tokenHash
  | .reveal orgId tokenHash sessionUserId => transaction (revealShare rt orgId tokenHash sessionUserId)
  | .revealExternal tokenHash proof => revealExternalShare rt tokenHash proof
  | .revoke orgId credentialId shareId => transaction (revokeShare orgId credentialId shareId)
  | .autoRevoke orgId userId => transaction (autoRevokeSharesForDeactivatedUser orgId userId)
  | .sweep shareId => transaction (expireOneShare shareId)
  | .supersede params => transaction (supersedeShares params)
  | .requestVerification tokenHash => requestExternalShareVerification tokenHash
  | .confirmVerification tokenHash code => confirmExternalShareVerification tokenHash code
  | .credentials vault => transaction do
      .update (fun _ => []) (fun _ d => { d with vault }) fun _ => ()
      return .credentials

/-- The committed tables with what has been answered. -/
abbrev ShareWorld := World ShareDb ShareLock ShareAnswer

/-- A postcondition. -/
abbrev SharePost (α : Type) := Post ShareDb ShareLock ShareAnswer α

/-- The end of a transaction. -/
abbrev ShareEnd := Event ShareDb ShareLock ShareAnswer

/-- A database without shares. -/
def noShares (vault : Store) (seq clock : ℕ) : ShareWorld := ⟨⟨vault, [], []⟩, seq, clock, []⟩

/-- The database with the sessions of the share code, started without shares. -/
def shareSessions (rt : Runtime) (collation : Collation) (vault : Store) (seq clock : ℕ) :
    Run.System (State ShareDb ShareLock ShareAnswer) (Label ShareCall) :=
  sessions (shareCall rt collation) (noShares vault seq clock)

end ProjectVault.Shares
