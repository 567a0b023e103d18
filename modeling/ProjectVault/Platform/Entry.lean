import ProjectVault.Audit.Digest
import ProjectVault.Audit.Verify

/-!
The entries of `platform_audit_events` (`platform-audit/write-entry.ts`).
-/

namespace ProjectVault.Platform

open Js Db Audit

/-! ### Redaction -/

/-- What the writers and the verifier take from the platform; the HMAC is the one under
the platform audit key, the key version `platform_audit_key_version`. -/
structure PlatformEnv extends AuditEnv where
  toLowerCase : String → String
  isProduction : Bool

/-- `FORBIDDEN_AUDIT_KEYS`. -/
def forbiddenAuditKeys : List String :=
  ["password", "passphrase", "masterKeyPath", "envelopeKeyPath", "secret", "value",
   "authorization", "cookie", "accessToken", "refreshToken", "totp", "recoveryCode", "apiKey"]

/-- `isForbiddenAuditKey`. -/
def isForbiddenAuditKey (env : PlatformEnv) (key : String) : Bool :=
  forbiddenAuditKeys.any fun forbidden =>
    (env.toLowerCase forbidden).toList <:+: (env.toLowerCase key).toList

mutual

/-- `containsForbiddenKey`. -/
def containsForbiddenKey (env : PlatformEnv) : Json → Bool
  | .arr xs => forbiddenElems env xs
  | .obj ms => forbiddenMembers env ms
  | _ => false

/-- `value.some((entry) => containsForbiddenKey(entry))`. -/
def forbiddenElems (env : PlatformEnv) : List Json → Bool
  | [] => false
  | x :: xs => containsForbiddenKey env x || forbiddenElems env xs

/-- The entries of an object, one of which is forbidden or contains a forbidden key. -/
def forbiddenMembers (env : PlatformEnv) : List (String × Json) → Bool
  | [] => false
  | (k, v) :: ms =>
    isForbiddenAuditKey env k || containsForbiddenKey env v || forbiddenMembers env ms

end

mutual

/-- `sanitizeAuditValue`. -/
def sanitizeAuditValue (env : PlatformEnv) : Json → Json
  | .arr xs => .arr (sanitizeElems env xs)
  | .obj ms => .obj (sanitizeAuditPayload env ms)
  | j => j

/-- The sanitized elements of an array. -/
def sanitizeElems (env : PlatformEnv) : List Json → List Json
  | [] => []
  | x :: xs => sanitizeAuditValue env x :: sanitizeElems env xs

/-- `sanitizeAuditPayload`: the members that are not forbidden keep their order. -/
def sanitizeAuditPayload (env : PlatformEnv) : List (String × Json) → List (String × Json)
  | [] => []
  | (k, v) :: ms =>
    if isForbiddenAuditKey env k then sanitizeAuditPayload env ms
    else (k, sanitizeAuditValue env v) :: sanitizeAuditPayload env ms

end

/-- `redactPlatformAuditPayload`: `none` is the error of a forbidden key outside
production. -/
def redactPlatformAuditPayload (env : PlatformEnv) (payload : List (String × Json)) :
    Option (List (String × Json)) :=
  if containsForbiddenKey env (.obj payload) ∧ env.isProduction = false then none
  else some (sanitizeAuditPayload env payload)

/-! ### Digests -/

/-- `PlatformAuditHmacFields`; a missing target is `undefined`. -/
structure PlatformHmacFields where
  operatorId : String
  actionType : String
  targetOrgId : Option String
  targetUserId : Option String
  payload : List (String × Json)
  keyVersion : NumLit
  previousEntryHmac : String

/-- The members of the digest object that are not `undefined`. -/
def PlatformHmacFields.members (f : PlatformHmacFields) : List (String × Json) :=
  [("operatorId", .str f.operatorId), ("actionType", .str f.actionType)] ++
  optionalMember "targetOrgId" f.targetOrgId ++ optionalMember "targetUserId" f.targetUserId ++
  [("payload", .obj f.payload), ("keyVersion", .num f.keyVersion),
   ("previousEntryHmac", .str f.previousEntryHmac)]

/-- The canonical text of a digest. -/
def platformCanonical (env : PlatformEnv) (f : PlatformHmacFields) : String :=
  stringify (sortKeys env.toAuditEnv (.obj f.members))

/-- `computePlatformAuditHmac`. -/
def computePlatformAuditHmac (env : PlatformEnv) (f : PlatformHmacFields) : String :=
  (env.hmacSha256 (platformCanonical env f)).hex

/-! ### Rows -/

/-- `PlatformAuditFields`, without the columns outside the digest that nothing here
reads. -/
structure PlatformAuditFields where
  operatorId : UuidText
  actionType : String
  targetOrgId : Option UuidText
  targetUserId : Option UuidText
  payload : List (String × Json)

/-- A row of `platform_audit_events`; `drainedFrom` is the sequence number of the pending
entry the row was moved from, which the table does not keep. -/
structure PlatformAuditEvent where
  operatorId : String
  actionType : String
  targetOrgId : Option String
  targetUserId : Option String
  payload : List (String × Json)
  keyVersion : NumLit
  hmac : String
  previousEntryHmac : Option String
  createdAt : ℕ
  chainSeq : ℕ
  drainedFrom : Option ℕ

/-- The digest that `writePlatformAuditEntry` hashes. -/
def PlatformAuditFields.digest (fields : PlatformAuditFields) (payload : List (String × Json))
    (keyVersion : NumLit) (previousHmac : Option String) : PlatformHmacFields where
  operatorId := fields.operatorId.text
  actionType := fields.actionType
  targetOrgId := fields.targetOrgId.map UuidText.text
  targetUserId := fields.targetUserId.map UuidText.text
  payload := payload
  keyVersion := keyVersion
  previousEntryHmac := previousHmac.getD genesisSentinel

/-- The row that `writePlatformAuditEntry` inserts. -/
def PlatformAuditFields.row (env : PlatformEnv) (fields : PlatformAuditFields)
    (payload : List (String × Json)) (previousHmac : Option String) (createdAt chainSeq : ℕ)
    (drainedFrom : Option ℕ) : PlatformAuditEvent where
  operatorId := fields.operatorId.stored
  actionType := fields.actionType
  targetOrgId := fields.targetOrgId.map UuidText.stored
  targetUserId := fields.targetUserId.map UuidText.stored
  payload := storedPayload payload
  keyVersion := env.keyVersion
  hmac := computePlatformAuditHmac env (fields.digest payload env.keyVersion previousHmac)
  previousEntryHmac := previousHmac
  createdAt := createdAt
  chainSeq := chainSeq
  drainedFrom := drainedFrom

/-- The digest of `evaluatePlatformAuditRow`. -/
def PlatformAuditEvent.rebuilt (row : PlatformAuditEvent) : PlatformHmacFields where
  operatorId := row.operatorId
  actionType := row.actionType
  targetOrgId := row.targetOrgId
  targetUserId := row.targetUserId
  payload := row.payload
  keyVersion := row.keyVersion
  previousEntryHmac := row.previousEntryHmac.getD genesisSentinel

/-! ### Covered inputs -/

/-- A text that a `uuid` column gives back as it was given. -/
def Plain (u : UuidText) : Prop := u.stored = u.text

/-- A payload whose canonical text survives a `jsonb` column. -/
def SurvivesJsonb (env : PlatformEnv) (payload : List (String × Json)) : Prop :=
  sortKeys env.toAuditEnv (storedJson (.obj payload)) = sortKeys env.toAuditEnv (.obj payload)

/-- The payload a drain writes for a queued payload. -/
def retroactivePayload (payload : List (String × Json)) : List (String × Json) :=
  setMember (storedPayload payload) "recordedRetroactively" (.bool true)

/-- The fields of a call whose row has the digest that was hashed, whether it is written at
once or queued and drained. -/
structure PlatformAuditFields.Covered (env : PlatformEnv) (fields : PlatformAuditFields) :
    Prop where
  operatorId : Plain fields.operatorId
  targetOrgId : ∀ u ∈ fields.targetOrgId, Plain u
  targetUserId : ∀ u ∈ fields.targetUserId, Plain u
  direct : ∀ p ∈ redactPlatformAuditPayload env fields.payload, SurvivesJsonb env p
  drained : ∀ p ∈ redactPlatformAuditPayload env fields.payload,
    ∀ q ∈ redactPlatformAuditPayload env (retroactivePayload p), SurvivesJsonb env q

lemma map_stored_eq {o : Option UuidText} (h : ∀ u ∈ o, Plain u) :
    o.map UuidText.stored = o.map UuidText.text := by
  cases o with
  | none => rfl
  | some u => exact congrArg some (h u rfl)

/-- A row with plain identifiers and a payload that survives has the digest that was
hashed. -/
lemma PlatformAuditFields.canonical_rebuilt {env : PlatformEnv} {fields : PlatformAuditFields}
    (hop : Plain fields.operatorId) (horg : ∀ u ∈ fields.targetOrgId, Plain u)
    (huser : ∀ u ∈ fields.targetUserId, Plain u) {payload : List (String × Json)}
    (hpayload : SurvivesJsonb env payload) (prev : Option String) (createdAt chainSeq : ℕ)
    (drainedFrom : Option ℕ) :
    platformCanonical env (fields.row env payload prev createdAt chainSeq drainedFrom).rebuilt =
      platformCanonical env (fields.digest payload env.keyVersion prev) := by
  have hpay : sortKeys env.toAuditEnv (.obj (storedPayload payload)) =
      sortKeys env.toAuditEnv (.obj payload) := hpayload
  have hmembers : sortMembers env.toAuditEnv
      (fields.row env payload prev createdAt chainSeq drainedFrom).rebuilt.members =
        sortMembers env.toAuditEnv (fields.digest payload env.keyVersion prev).members := by
    simp only [sortMembers_eq_map, PlatformHmacFields.members, PlatformAuditEvent.rebuilt,
      PlatformAuditFields.row, PlatformAuditFields.digest, map_stored_eq horg, map_stored_eq huser,
      hop.symm, List.map_append, List.map_cons, List.map_nil, hpay]
  rw [platformCanonical, platformCanonical, sortKeys, sortKeys, hmembers]

/-- Digests with one canonical text continue the same entry. -/
lemma previousEntryHmac_eq_of_platformCanonical_eq {env : PlatformEnv} {f f' : PlatformHmacFields}
    (h : platformCanonical env f = platformCanonical env f') :
    f.previousEntryHmac = f'.previousEntryHmac := by
  have hfilter : ∀ g : PlatformHmacFields,
      ((sortMembers env.toAuditEnv g.members).filter fun m => m.1 = "previousEntryHmac") =
        [("previousEntryHmac", .str g.previousEntryHmac)] := by
    intro g
    rw [sortMembers_eq_map]
    cases horg : g.targetOrgId <;> cases huser : g.targetUserId <;>
      simp [PlatformHmacFields.members, optionalMember, horg, huser, sortKeys]
  have hperm := perm_filter_of_stringify_eq h "previousEntryHmac"
  rw [hfilter, hfilter] at hperm
  simpa using hperm

end ProjectVault.Platform
