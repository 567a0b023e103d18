import ProjectVault.Js.Order
import ProjectVault.Db.Table
import ProjectVault.Db.Logic

/-!
The writers of `audit_log_entries` (`audit/write-entry.ts`, `human-entry.ts`,
`machine-entry.ts`, `system-audit-row.ts`, and the insert of
`prune-credential-versions.ts`).
-/

namespace ProjectVault.Audit

open Js Db

/-! ### Canonical text -/

/-- An HMAC-SHA256 value. -/
structure Mac where
  bytes : List (Fin 256)
  size : bytes.length = 32

/-- The two digits of a byte. -/
def hexByte (b : Fin 256) : List Char := [hexDigit (b.val / 16), hexDigit (b.val % 16)]

/-- `digest('hex')`. -/
def Mac.hex (m : Mac) : String := String.ofList (m.bytes.flatMap hexByte)

/-- What the writers and the verifier take from the platform: the HMAC under the audit
key, the collation of `localeCompare` (a total preorder), the text `->>` gives for a
`jsonb` value that is neither a string nor null, and the audit key version of
`vault_state`, which is written once. -/
structure AuditEnv where
  hmacSha256 : String → Mac
  jsonbText : Json → String
  localeCompare : String → String → Ordering
  collation : Std.TransCmp localeCompare
  keyVersion : NumLit

/-- The comparison of `sortKeys`: `left.localeCompare(right)` is not positive. -/
def AuditEnv.keyLe (env : AuditEnv) (a b : String × Json) : Prop :=
  env.localeCompare a.1 b.1 ≠ .gt

instance (env : AuditEnv) : DecidableRel env.keyLe := fun _ _ => inferInstanceAs (Decidable (_ ≠ _))

mutual

/-- `sortKeys`; the entries of an object are sorted by key, so it does not matter that
their values are sorted first. -/
def sortKeys (env : AuditEnv) : Json → Json
  | .arr xs => .arr (sortElems env xs)
  | .obj ms => .obj (ownPropertyOrder ((sortMembers env ms).insertionSort env.keyLe))
  | j => j

/-- `value.map((item) => sortKeys(item))`. -/
def sortElems (env : AuditEnv) : List Json → List Json
  | [] => []
  | x :: xs => sortKeys env x :: sortElems env xs

/-- The entries of an object with their values sorted. -/
def sortMembers (env : AuditEnv) : List (String × Json) → List (String × Json)
  | [] => []
  | (k, v) :: ms => (k, sortKeys env v) :: sortMembers env ms

end

/-- `AuditLogEntryHmacFields`; a missing resource is `undefined`, a missing actor is
`null`. -/
structure HmacFields where
  orgId : String
  actorTokenId : Option String
  actorType : String
  eventType : String
  resourceId : Option String
  resourceType : Option String
  payload : List (String × Json)
  keyVersion : NumLit
  previousEntryHmac : String

/-- A member that is dropped when it is `undefined`. -/
def optionalMember (key : String) : Option String → List (String × Json)
  | none => []
  | some s => [(key, .str s)]

/-- The members of the digest object that are not `undefined`. -/
def HmacFields.members (f : HmacFields) : List (String × Json) :=
  [("orgId", .str f.orgId),
   ("actorTokenId", match f.actorTokenId with | none => .null | some t => .str t),
   ("actorType", .str f.actorType), ("eventType", .str f.eventType)] ++
  optionalMember "resourceId" f.resourceId ++ optionalMember "resourceType" f.resourceType ++
  [("payload", .obj f.payload), ("keyVersion", .num f.keyVersion),
   ("previousEntryHmac", .str f.previousEntryHmac)]

/-- The canonical text of a digest. -/
def canonical (env : AuditEnv) (f : HmacFields) : String :=
  stringify (sortKeys env (.obj f.members))

/-- `computeAuditHmac`. -/
def computeAuditHmac (env : AuditEnv) (f : HmacFields) : String :=
  (env.hmacSha256 (canonical env f)).hex

/-- `GENESIS_SENTINEL`. -/
def genesisSentinel : String := "GENESIS"

/-! ### Stored rows -/

/-- A digit of a UUID in lower case, if it is one. -/
def uuidDigit (c : Char) : Option Char :=
  if c.isDigit ∨ ('a' ≤ c ∧ c ≤ 'f') then some c
  else if 'A' ≤ c ∧ c ≤ 'F' then some c.toLower
  else none

/-- The digits of a UUID: a hyphen may follow every fourth of them, but not the last
(`n` counts the digits already read). -/
def uuidDigits : ℕ → List Char → Option (List Char)
  | n, [] => if n = 32 then some [] else none
  | n, c :: cs =>
    if c = '-' then
      if n % 4 = 0 ∧ 0 < n ∧ n < 32 ∧ cs.head? ≠ some '-' then uuidDigits n cs else none
    else match uuidDigit c with
      | none => none
      | some d => if n < 32 then (uuidDigits (n + 1) cs).map (d :: ·) else none

/-- The text without a pair of braces around it. -/
def stripBraces (cs : List Char) : List Char :=
  if cs.head? = some '\x7b' ∧ cs.getLast? = some '\x7d' then cs.tail.dropLast else cs

/-- The text a `uuid` column gives back for the text it was given, `none` when it
refuses the text. -/
def storedUuid (s : String) : Option String :=
  (uuidDigits 0 (stripBraces s.toList)).map fun ds =>
    String.ofList (ds.take 8 ++ ['-'] ++ (ds.drop 8).take 4 ++ ['-'] ++ (ds.drop 12).take 4 ++
      ['-'] ++ (ds.drop 16).take 4 ++ ['-'] ++ ds.drop 20)

/-- A text that a `uuid` column accepts. -/
structure UuidText where
  text : String
  accepted : (storedUuid text).isSome = true

/-- What the column gives back. -/
def UuidText.stored (u : UuidText) : String := (storedUuid u.text).get u.accepted

/-- The order of object keys in a `jsonb` value: by length, then by bytes. -/
def jsonbLe (a b : String × Json) : Prop :=
  toLex (a.1.utf8ByteSize, a.1.toList.map Char.toNat) ≤
    toLex (b.1.utf8ByteSize, b.1.toList.map Char.toNat)

instance : DecidableRel jsonbLe := fun _ _ => inferInstanceAs (Decidable (_ ≤ _))

mutual

/-- What a `jsonb` column gives back: the keys of every object in the order of the
column, then read into an ordinary object. -/
def storedJson : Json → Json
  | .arr xs => .arr (storedElems xs)
  | .obj ms => .obj (ownPropertyOrder ((storedMembers ms).insertionSort jsonbLe))
  | j => j

/-- The stored elements of an array. -/
def storedElems : List Json → List Json
  | [] => []
  | x :: xs => storedJson x :: storedElems xs

/-- The members of an object with their values stored. -/
def storedMembers : List (String × Json) → List (String × Json)
  | [] => []
  | (k, v) :: ms => (k, storedJson v) :: storedMembers ms

end

/-- The members of a stored payload. -/
def storedPayload (payload : List (String × Json)) : List (String × Json) :=
  ownPropertyOrder ((storedMembers payload).insertionSort jsonbLe)

/-- A row of `audit_log_entries`, without the columns outside the digest that nothing
here reads. -/
structure AuditLogEntry where
  orgId : String
  actorTokenId : Option String
  actorType : String
  eventType : String
  resourceId : Option String
  resourceType : Option String
  payload : List (String × Json)
  keyVersion : NumLit
  hmac : String
  previousEntryHmac : Option String
  createdAt : ℕ
  chainSeq : ℕ

/-- The values of an insert; `createdAt` and `chainSeq` are defaults of the table. -/
structure EntryValues where
  orgId : String
  actorTokenId : Option String
  actorType : String
  eventType : String
  resourceId : Option UuidText
  resourceType : Option String
  payload : List (String × Json)
  keyVersion : NumLit
  hmac : String
  previousEntryHmac : Option String

/-- The row an insert stores: `created_at` is the start of the transaction, `chain_seq`
is drawn from the identity sequence of the table. -/
def EntryValues.row {D : Type} (v : EntryValues) (c : Ctx D) : AuditLogEntry where
  orgId := v.orgId
  actorTokenId := v.actorTokenId
  actorType := v.actorType
  eventType := v.eventType
  resourceId := v.resourceId.map UuidText.stored
  resourceType := v.resourceType
  payload := storedPayload v.payload
  keyVersion := v.keyVersion
  hmac := v.hmac
  previousEntryHmac := v.previousEntryHmac
  createdAt := c.start
  chainSeq := c.seq

/-! ### Statements -/

/-- The rows the writers and the verifier touch. -/
structure AuditDb where
  entries : List AuditLogEntry

/-- Adds a row. -/
def AuditDb.insert (db : AuditDb) (e : AuditLogEntry) : AuditDb := ⟨db.entries ++ [e]⟩

/-- The rows of an organization. -/
def AuditDb.ofOrg (db : AuditDb) (orgId : String) : List AuditLogEntry :=
  db.entries.filter fun e => e.orgId = orgId

/-- The locks: the advisory lock of every organization's chain, and the rows. -/
inductive AuditLock where
  | chain (orgId : String)
  | row (chainSeq : ℕ)
  deriving DecidableEq

/-- Code of an audit transaction. -/
abbrev AuditProg (R α : Type) := Prog AuditDb AuditLock R α

variable {R : Type}

/-- `getPreviousEntryHmac` for the chain of an organization: first the lock, then, in a
statement of its own, the tail. -/
def getPreviousEntryHmac (orgId : String) : AuditProg R (Option String) := do
  Prog.lock (.chain orgId)
  Prog.query fun c => (sortDesc AuditLogEntry.chainSeq (c.view.ofOrg orgId)).head?.map (·.hmac)

/-- `readAuditChainHead`. -/
def readAuditChainHead (env : AuditEnv) (orgId : String) :
    AuditProg R (NumLit × Option String) := do
  let keyVersion ← Prog.query fun _ => env.keyVersion
  let previousEntryHmac ← getPreviousEntryHmac orgId
  return (keyVersion, previousEntryHmac)

/-- `tx.insert(auditLogEntries).values(…)`; the row stays locked until the end of the
transaction. -/
def insertEntry (v : EntryValues) : AuditProg R Unit :=
  Prog.update (fun c => [.row c.seq]) (fun c db => db.insert (v.row c)) fun _ => ()

/-! ### Writers -/

/-- What a writer does once it knows the head of the chain: the digest it hashes and,
given the HMAC, the values it inserts. -/
structure ChainedWrite where
  orgId : String
  digest : NumLit → Option String → HmacFields
  values : NumLit → Option String → String → EntryValues

/-- The statements of a writer. -/
def ChainedWrite.run (env : AuditEnv) (write : ChainedWrite) : AuditProg R Unit := do
  let (keyVersion, previousHmac) ← readAuditChainHead env write.orgId
  let hmac := computeAuditHmac env (write.digest keyVersion previousHmac)
  insertEntry (write.values keyVersion previousHmac hmac)

/-- A `Record<string, unknown>` with JSON values. -/
structure Payload where
  members : List (String × Json)
  distinct : (Json.obj members).Distinct

/-- `HumanAuditFields`. -/
structure HumanAuditFields where
  orgId : String
  actorTokenId : Option String
  eventType : String
  resourceId : Option UuidText
  resourceType : Option String
  payload : Payload

/-- `writeHumanAuditEntry`. -/
def writeHumanAuditEntry (fields : HumanAuditFields) : ChainedWrite where
  orgId := fields.orgId
  digest keyVersion previousHmac :=
    { orgId := fields.orgId, actorTokenId := fields.actorTokenId, actorType := "human",
      eventType := fields.eventType, resourceId := fields.resourceId.map UuidText.text,
      resourceType := fields.resourceType, payload := fields.payload.members, keyVersion := keyVersion,
      previousEntryHmac := previousHmac.getD genesisSentinel }
  values keyVersion previousHmac hmac :=
    { orgId := fields.orgId, actorTokenId := fields.actorTokenId, actorType := "human",
      eventType := fields.eventType, resourceId := fields.resourceId,
      resourceType := fields.resourceType, payload := fields.payload.members, keyVersion := keyVersion,
      hmac := hmac, previousEntryHmac := previousHmac }

/-- `{ ...payload, [key]: value }`: an existing key keeps its place. -/
def setMember (payload : List (String × Json)) (key : String) (value : Json) :
    List (String × Json) :=
  if payload.any (fun m => m.1 = key) then
    payload.map fun m => if m.1 = key then (key, value) else m
  else ownPropertyOrder (payload ++ [(key, value)])

/-- `MachineAuditFields`. -/
structure MachineAuditFields where
  orgId : String
  eventType : String
  resourceId : Option UuidText
  resourceType : Option String
  payload : Payload
  machineUserId : String
  keyId : Option String

/-- The payload of a machine entry, with the identity of the actor. -/
def MachineAuditFields.fullPayload (fields : MachineAuditFields) : List (String × Json) :=
  setMember (setMember fields.payload.members "machineUserId" (.str fields.machineUserId)) "keyId"
    (match fields.keyId with | none => .null | some keyId => .str keyId)

/-- `writeMachineAuditEntry`. -/
def writeMachineAuditEntry (fields : MachineAuditFields) : ChainedWrite where
  orgId := fields.orgId
  digest keyVersion previousHmac :=
    { orgId := fields.orgId, actorTokenId := none, actorType := "machine_user",
      eventType := fields.eventType, resourceId := fields.resourceId.map UuidText.text,
      resourceType := fields.resourceType, payload := fields.fullPayload, keyVersion := keyVersion,
      previousEntryHmac := previousHmac.getD genesisSentinel }
  values keyVersion previousHmac hmac :=
    { orgId := fields.orgId, actorTokenId := none, actorType := "machine_user",
      eventType := fields.eventType, resourceId := fields.resourceId,
      resourceType := fields.resourceType, payload := fields.fullPayload, keyVersion := keyVersion,
      hmac := hmac, previousEntryHmac := previousHmac }

/-- `SystemAuditFields`. -/
structure SystemAuditFields where
  orgId : String
  eventType : String
  resourceId : Option UuidText
  resourceType : Option String
  payload : Payload

/-- `writeSystemAuditEntry`. -/
def writeSystemAuditEntry (fields : SystemAuditFields) : ChainedWrite where
  orgId := fields.orgId
  digest keyVersion previousHmac :=
    { orgId := fields.orgId, actorTokenId := none, actorType := "system",
      eventType := fields.eventType, resourceId := fields.resourceId.map UuidText.text,
      resourceType := fields.resourceType, payload := fields.payload.members, keyVersion := keyVersion,
      previousEntryHmac := previousHmac.getD genesisSentinel }
  values keyVersion previousHmac hmac :=
    { orgId := fields.orgId, actorTokenId := none, actorType := "system",
      eventType := fields.eventType, resourceId := fields.resourceId,
      resourceType := fields.resourceType, payload := fields.payload.members, keyVersion := keyVersion,
      hmac := hmac, previousEntryHmac := previousHmac }

/-- The argument of `writeSystemAuditRow`. -/
structure SystemRowFields where
  orgId : String
  eventType : String
  resourceId : Option UuidText
  payload : Payload

/-- `writeSystemAuditRow`: the resource goes into the row but not into the digest. -/
def writeSystemAuditRow (input : SystemRowFields) : ChainedWrite where
  orgId := input.orgId
  digest keyVersion previousHmac :=
    { orgId := input.orgId, actorTokenId := none, actorType := "system",
      eventType := input.eventType, resourceId := none, resourceType := none,
      payload := input.payload.members, keyVersion := keyVersion,
      previousEntryHmac := previousHmac.getD genesisSentinel }
  values keyVersion previousHmac hmac :=
    { orgId := input.orgId, actorTokenId := none, actorType := "system",
      eventType := input.eventType, resourceId := input.resourceId, resourceType := none,
      payload := input.payload.members, keyVersion := keyVersion, hmac := hmac,
      previousEntryHmac := previousHmac }

/-- The arguments of the insert in `purgeVersion`. -/
structure VersionPurgedFields where
  orgId : String
  credentialId : UuidText
  versionNumber : NumLit

/-- The payload of `credential.version_purged`. -/
def VersionPurgedFields.payload (candidate : VersionPurgedFields) : List (String × Json) :=
  [("credentialId", .str candidate.credentialId.text), ("versionNumber", .num candidate.versionNumber)]

/-- The audit insert of `purgeVersion`. -/
def writeVersionPurged (candidate : VersionPurgedFields) : ChainedWrite where
  orgId := candidate.orgId
  digest keyVersion previousHmac :=
    { orgId := candidate.orgId, actorTokenId := none, actorType := "system",
      eventType := "credential.version_purged", resourceId := some candidate.credentialId.text,
      resourceType := some "credential", payload := candidate.payload, keyVersion := keyVersion,
      previousEntryHmac := previousHmac.getD genesisSentinel }
  values keyVersion previousHmac hmac :=
    { orgId := candidate.orgId, actorTokenId := none, actorType := "system",
      eventType := "credential.version_purged", resourceId := some candidate.credentialId,
      resourceType := some "credential", payload := candidate.payload, keyVersion := keyVersion,
      hmac := hmac, previousEntryHmac := previousHmac }

/-- A call of one of the writers. -/
inductive AuditCall where
  | human (fields : HumanAuditFields)
  | machine (fields : MachineAuditFields)
  | system (fields : SystemAuditFields)
  | systemRow (input : SystemRowFields)
  | versionPurged (candidate : VersionPurgedFields)

/-- The writer a call runs. -/
def AuditCall.toWrite : AuditCall → ChainedWrite
  | .human fields => writeHumanAuditEntry fields
  | .machine fields => writeMachineAuditEntry fields
  | .system fields => writeSystemAuditEntry fields
  | .systemRow input => writeSystemAuditRow input
  | .versionPurged candidate => writeVersionPurged candidate

/-- The row a call stores and the digest it hashes, for the head of the chain it found. -/
def AuditCall.storedRow (env : AuditEnv) (call : AuditCall) (prev : Option String)
    (c : Ctx AuditDb) : AuditLogEntry :=
  (call.toWrite.values env.keyVersion prev
    (computeAuditHmac env (call.toWrite.digest env.keyVersion prev))).row c

/-- A stand-in for the HMAC that tells texts of different sizes apart. -/
def sizeMac (text : String) : Mac where
  bytes := (List.range 32).map fun i =>
    ⟨text.utf8ByteSize / 256 ^ i % 256, Nat.mod_lt _ (by decide)⟩
  size := by simp

/-- An environment to run the writers in. -/
def plainEnv : AuditEnv where
  hmacSha256 := sizeMac
  jsonbText := stringify
  localeCompare := compare
  collation := inferInstance
  keyVersion := ⟨['1'], by decide⟩

end ProjectVault.Audit
