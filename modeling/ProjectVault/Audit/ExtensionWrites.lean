import ProjectVault.Js.Runtime
import ProjectVault.Audit.Entry
import ProjectVault.Audit.Fingerprint
import ProjectVault.Audit.GateRuns

/-!
Audit events that an extension writes under a key (`lib/audit-event-source.ts`,
`audit/extension-idempotency.ts`, `audit/extension-entry.ts`).
-/

namespace ProjectVault.Audit

open Js Db

/-! ### Checks -/

/-- The extension, the organization, and what the calls take from the platform: `sha256` as a
hexadecimal digest, and the hash of the database for lock names. -/
structure WriterEnv where
  audit : AuditEnv
  gates : GateEnv
  orgId : String
  extensionName : String
  capabilities : List String
  sha256 : String → String
  hashtextextended : String → ℤ

/-- `AuditEventSourceWriteInput` with an `idempotencyKey`. -/
structure AuditEventSourceWriteInput where
  eventType : String
  projectId : Option String
  resourceId : Option String
  resourceType : Option String
  payload : ValueRecord
  idempotencyKey : String

/-- What a call may fail with. -/
inductive WriteError where
  | capabilityNotDeclared
  | eventTypeNamespace
  | idempotencyKeyInvalid
  | attributionRejected
  | payloadTooLarge
  | conflict
  | race
  | refused (e : GateError)
  | failed
  deriving DecidableEq

/-- `MAX_EVENT_TYPE_LENGTH`. -/
def maxEventTypeLength : ℕ := 200

/-- `[a-z0-9_]`. -/
def isSuffixChar (c : Char) : Bool := c.isLower || c.isDigit || c == '_'

/-- `buildNamespacePattern(manifestName).test(eventType)`. -/
def inNamespace (manifestName eventType : String) : Bool :=
  let start := ("ext." ++ manifestName ++ ".").toList
  start.isPrefixOf eventType.toList &&
    ((eventType.toList.drop start.length).splitOn '.').all fun part =>
      !part.isEmpty && part.all isSuffixChar

/-- `[A-Za-z0-9._:-]`. -/
def isKeyChar (c : Char) : Bool := c.isAlphanum || c == '.' || c == '_' || c == ':' || c == '-'

/-- `IDEMPOTENCY_KEY_PATTERN.test(key)`. -/
def isIdempotencyKey (key : String) : Bool :=
  1 ≤ key.toList.length && key.toList.length ≤ 128 && key.toList.all isKeyChar

/-- `assertMayWriteExtensionAuditEvent`. -/
def assertMayWriteExtensionAuditEvent (env : WriterEnv) (input : AuditEventSourceWriteInput) :
    Except WriteError Unit :=
  if "audit-event-source" ∉ env.capabilities then .error .capabilityNotDeclared
  else if Js.length input.eventType > maxEventTypeLength ∨
      inNamespace env.extensionName input.eventType = false then .error .eventTypeNamespace
  else if isIdempotencyKey input.idempotencyKey = false then .error .idempotencyKeyInvalid
  else .ok ()

/-- `estimateAuditEntrySizeBytes`, with `FIXED_ROW_OVERHEAD_BYTES`. -/
def estimateAuditEntrySizeBytes (payload : List (String × Value))
    (resourceId resourceType : Option String) : ℕ :=
  256 + (stringify (Value.obj payload).json).utf8ByteSize +
    ((resourceId.map Js.length).getD 0 + (resourceType.map Js.length).getD 0)

/-- `MAX_IDEMPOTENT_AUDIT_ENTRY_BYTES`. -/
def maxIdempotentAuditEntryBytes : ℕ := 1048576

/-! ### The row of an event -/

/-- A text that may be `null`. -/
def nullableText : Option String → Value
  | none => .null
  | some s => .str s

/-- The source of a time, as it is recorded. -/
def OccurredAtSource.text : OccurredAtSource → String
  | .delegationSigned => "delegation_signed"
  | .extension => "extension"

/-- An attribution as a member of the payload. -/
def PvAttribution.value (a : PvAttribution) : Value :=
  .obj ([("v", .num (NumLit.ofNat 1))] ++
    (match a.occurred with
      | none => []
      | some (time, source) => [("occurredAt", .str time), ("occurredAtSource", .str source.text)]) ++
    match a.delegation with
      | none => []
      | some (actor, delegatedBy) =>
        [("actor", .obj [("provider", .str actor.provider), ("subject", .str actor.subject),
            ("userId", nullableText actor.userId), ("attestation", .str actor.attestation),
            ("reason", nullableText actor.reason)]),
         ("delegatedBy", .obj [("kid", .str delegatedBy.kid), ("issuer", .str delegatedBy.issuer),
            ("assertionId", .str delegatedBy.assertionId)])])

/-- `{ ...payload, [key]: value }`. -/
def setField (payload : List (String × Value)) (key : String) (value : Value) :
    List (String × Value) :=
  if payload.any (fun m => m.1 = key) then
    payload.map fun m => if m.1 = key then (key, value) else m
  else ownPropertyOrder (payload ++ [(key, value)])

/-- The payload with the attribution and the name of the extension folded in. -/
def extensionPayload (env : WriterEnv) (input : AuditEventSourceWriteInput)
    (attribution : Option PvAttribution) : List (String × Value) :=
  let attributed :=
    match attribution with
    | none => input.payload.members
    | some a => setField input.payload.members "pvAttribution" a.value
  setField attributed "extensionName" (.str env.extensionName)

/-- `writeExtensionAuditEntry`, past its gates; a text that is no UUID fails at the insert. -/
def writeExtensionAuditEntry (env : WriterEnv) (input : AuditEventSourceWriteInput)
    (attribution : Option PvAttribution) (resourceId : Option UuidText) : ChainedWrite where
  orgId := env.orgId
  digest keyVersion previousHmac :=
    { orgId := env.orgId, actorTokenId := none, actorType := "extension",
      eventType := input.eventType, resourceId := resourceId.map UuidText.text,
      resourceType := input.resourceType,
      payload := Value.jsonMembers (extensionPayload env input attribution),
      keyVersion := keyVersion, previousEntryHmac := previousHmac.getD genesisSentinel }
  values keyVersion previousHmac hmac :=
    { orgId := env.orgId, actorTokenId := none, actorType := "extension",
      eventType := input.eventType, resourceId := resourceId, resourceType := input.resourceType,
      payload := Value.jsonMembers (extensionPayload env input attribution),
      keyVersion := keyVersion, hmac := hmac, previousEntryHmac := previousHmac }

/-- A text for a `uuid` column, if the column takes it. -/
def uuidText? : Option String → Option (Option UuidText)
  | none => some none
  | some s => if h : (storedUuid s).isSome = true then some (some ⟨s, h⟩) else none

/-! ### Calls -/

/-- A row of `audit_log_entries` with its `id`; `writer` is the call that wrote it, if it is one of
these, for the statements below. -/
structure ExtensionRow where
  id : ℕ
  writer : Option ℕ
  entry : AuditLogEntry

/-- A row of `extension_audit_idempotency_keys`, for the extension and the organization. -/
structure IdempotencyKeyRow where
  idempotencyKey : String
  contentFingerprint : String
  auditEntryId : ℕ
  deriving DecidableEq

/-- The committed rows: the chain of the organization, the keys, and its usage. -/
structure ExtensionDb where
  log : List ExtensionRow
  keys : List IdempotencyKeyRow
  usage : Option UsageRow

/-- `IdempotentAuditReceipt`. -/
structure IdempotentAuditReceipt where
  id : ℕ
  createdAt : ℕ
  deduped : Bool
  deriving DecidableEq

/-- Where a call stands. Its transaction is open from `begun` to `found` or `keyed`, and the rows
it has written are its own until it commits. -/
inductive KeyedPhase where
  | ready
  | begun (start : ℕ)
  | locked (start : ℕ)
  | found (receipt : IdempotentAuditReceipt)
  | absent (start : ℕ)
  | gated (start : ℕ) (usage : Option UsageRow)
  | headed (start : ℕ) (usage : Option UsageRow) (previousHmac : Option String)
  | inserted (usage : Option UsageRow) (row : ExtensionRow)
  | keyed (usage : Option UsageRow) (row : ExtensionRow)
  | done (answer : Except WriteError IdempotentAuditReceipt)

/-- A call of `writeExtensionAuditEventForManifest`, with what `resolveAttribution` answered. -/
structure KeyedCall where
  input : AuditEventSourceWriteInput
  attribution : Option PvAttribution
  retried : Bool
  phase : KeyedPhase

/-- What the call fingerprints. -/
def KeyedCall.content (c : KeyedCall) : IdempotentAuditContent where
  eventType := c.input.eventType
  resourceType := c.input.resourceType
  resourceId := c.input.resourceId
  projectId := c.input.projectId
  payload := c.input.payload
  attribution := c.attribution

/-- The key of the call. -/
def KeyedCall.key (c : KeyedCall) : String := c.input.idempotencyKey

/-- Its fingerprint. -/
def KeyedCall.fingerprint (env : WriterEnv) (c : KeyedCall) : String :=
  computeContentFingerprint env.sha256 c.content

/-- The size bound of `writeIdempotentExtensionAuditEntry`. -/
def KeyedCall.tooLarge (c : KeyedCall) : Bool :=
  estimateAuditEntrySizeBytes c.input.payload.members c.input.resourceId c.input.resourceType >
    maxIdempotentAuditEntryBytes

/-- The name of its advisory lock. -/
def KeyedCall.lockHash (env : WriterEnv) (c : KeyedCall) : ℤ :=
  env.hashtextextended (stringify (.arr [.str env.orgId, .str env.extensionName, .str c.key]))

/-- What it asks of the gates. -/
def KeyedCall.gateCall (env : WriterEnv) (c : KeyedCall) : GateCall where
  eventType := c.input.eventType
  sizeBytes := estimateAuditEntrySizeBytes (extensionPayload env c.input c.attribution)
    c.input.resourceId c.input.resourceType

/-- A call before its first transaction; `none` is an attribution that was rejected. -/
def KeyedCall.start (env : WriterEnv) (input : AuditEventSourceWriteInput)
    (resolved : Option (Option PvAttribution)) : KeyedCall :=
  match assertMayWriteExtensionAuditEvent env input with
  | .error e => ⟨input, none, false, .done (.error e)⟩
  | .ok () =>
    match resolved with
    | none => ⟨input, none, false, .done (.error .attributionRejected)⟩
    | some attribution => ⟨input, attribution, false, .ready⟩

def KeyedPhase.holdsKeyLock : KeyedPhase → Bool
  | .ready | .begun _ | .done _ => false
  | _ => true

/-- The lookup has found no key. -/
def KeyedPhase.missed : KeyedPhase → Bool
  | .absent _ | .gated .. | .headed .. | .inserted .. | .keyed .. => true
  | _ => false

def KeyedPhase.holdsUsage : KeyedPhase → Bool
  | .gated .. | .headed .. | .inserted .. | .keyed .. => true
  | _ => false

def KeyedPhase.holdsChain : KeyedPhase → Bool
  | .headed .. | .inserted .. | .keyed .. => true
  | _ => false

def KeyedPhase.isKeyed : KeyedPhase → Bool
  | .keyed .. => true
  | _ => false

/-! ### Steps -/

/-- The committed rows, the next number of the sequences, and the calls. -/
structure KeyedWorld where
  db : ExtensionDb
  seq : ℕ
  calls : List KeyedCall

/-- What happens: other writers of the organization commit a row, or a call takes its next
statement. A lock may be bypassed; a call may fail whenever it is not done. -/
inductive KeyedAct where
  | others (entry : AuditLogEntry) (usage : Option UsageRow)
  | starts (input : AuditEventSourceWriteInput) (resolved : Option (Option PvAttribution))
  | begins (i now : ℕ)
  | locks (i : ℕ) (bypassed : Bool)
  | looks (i : ℕ)
  | gates (i : ℕ) (config : Option QuotaConfig)
  | heads (i : ℕ)
  | inserts (i : ℕ)
  | keys (i : ℕ)
  | commits (i : ℕ)
  | fails (i : ℕ)

/-- Another call is in the way. -/
def KeyedWorld.heldByOther (w : KeyedWorld) (i : ℕ) (p : KeyedCall → Bool) : Bool :=
  w.calls.zipIdx.any fun x => x.2 ≠ i ∧ p x.1 = true

/-- The call moves on to another phase. -/
def KeyedWorld.put (w : KeyedWorld) (i : ℕ) (c : KeyedCall) (phase : KeyedPhase) : KeyedWorld :=
  { w with calls := w.calls.set i { c with phase := phase } }

/-- The lookup of `writeIdempotentExtensionAuditEntry`. -/
def ExtensionDb.lookup (db : ExtensionDb) (env : WriterEnv) (c : KeyedCall) (start : ℕ) :
    KeyedPhase :=
  match db.keys.find? fun k => k.idempotencyKey = c.key with
  | none => .absent start
  | some existing =>
    if existing.contentFingerprint ≠ c.fingerprint env then .done (.error .conflict)
    else
      match db.log.find? fun row => row.id = existing.auditEntryId with
      | none => .done (.error .failed)
      | some row => .found ⟨row.id, row.entry.createdAt, true⟩

/-- The insert of the audit row. -/
def KeyedCall.insertRow (env : WriterEnv) (c : KeyedCall) (i seq start : ℕ)
    (previousHmac : Option String) : Option ExtensionRow :=
  (uuidText? c.input.resourceId).map fun resourceId =>
    let write := writeExtensionAuditEntry env c.input c.attribution resourceId
    let hmac := computeAuditHmac env.audit (write.digest env.audit.keyVersion previousHmac)
    { id := seq, writer := some i,
      entry := (write.values env.audit.keyVersion previousHmac hmac).row
        (⟨(), start, start, seq⟩ : Ctx Unit) }

/-- The gates lock the usage row if one of them is switched on. -/
def WriterEnv.enforced (env : WriterEnv) : Bool :=
  env.gates.writeRateEnforcementEnabled || env.gates.quotaEnforcementEnabled

/-- One step. -/
def KeyedWorld.step (env : WriterEnv) (w : KeyedWorld) : KeyedAct → Option KeyedWorld
  | .others entry usage =>
    if (env.enforced && w.calls.any fun d => d.phase.holdsUsage) ||
        w.calls.any fun d => d.phase.holdsChain then none
    else some
      { w with
        db := { w.db with log := w.db.log ++ [⟨w.seq, none, entry⟩], usage := usage },
        seq := w.seq + 1 }
  | .starts input resolved =>
    some { w with calls := w.calls ++ [KeyedCall.start env input resolved] }
  | .begins i now => do
      let c ← w.calls[i]?
      match c.phase with
      | .ready =>
        some (w.put i c (if c.tooLarge then .done (.error .payloadTooLarge) else .begun now))
      | _ => none
  | .locks i bypassed => do
      let c ← w.calls[i]?
      match c.phase with
      | .begun start =>
        if !bypassed && w.heldByOther i fun d =>
            d.phase.holdsKeyLock && d.lockHash env = c.lockHash env then none
        else some (w.put i c (.locked start))
      | _ => none
  | .looks i => do
      let c ← w.calls[i]?
      match c.phase with
      | .locked start => some (w.put i c (w.db.lookup env c start))
      | _ => none
  | .gates i config => do
      let c ← w.calls[i]?
      match c.phase with
      | .absent start =>
        if env.enforced && w.heldByOther i fun d => d.phase.holdsUsage then none
        else
          match assertOrgMayWriteAuditGates (env.gates.settings config) start w.db.usage
              (c.gateCall env) with
          | .error e => some (w.put i c (.done (.error (.refused e))))
          | .ok usage => some (w.put i c (.gated start usage))
      | _ => none
  | .heads i => do
      let c ← w.calls[i]?
      match c.phase with
      | .gated start usage =>
        if w.heldByOther i fun d => d.phase.holdsChain then none
        else some (w.put i c (.headed start usage
          ((sortDesc (fun row : ExtensionRow => row.entry.chainSeq) w.db.log).head?.map
            (·.entry.hmac))))
      | _ => none
  | .inserts i => do
      let c ← w.calls[i]?
      match c.phase with
      | .headed start usage previousHmac =>
        match c.insertRow env i w.seq start previousHmac with
        | none => some (w.put i c (.done (.error .failed)))
        | some row => some { w.put i c (.inserted usage row) with seq := w.seq + 1 }
      | _ => none
  | .keys i => do
      let c ← w.calls[i]?
      match c.phase with
      | .inserted usage row =>
        -- the insert waits for another one of the key, and does nothing if the key is there
        if w.heldByOther i fun d => d.phase.isKeyed && d.key = c.key then none
        else if w.db.keys.any fun k => k.idempotencyKey = c.key then
          if c.retried then some (w.put i c (.done (.error .race)))
          else some (w.put i { c with retried := true } .ready)
        else some (w.put i c (.keyed usage row))
      | _ => none
  | .commits i => do
      let c ← w.calls[i]?
      match c.phase with
      | .found receipt => some (w.put i c (.done (.ok receipt)))
      | .keyed usage row =>
        some { w.put i c (.done (.ok ⟨row.id, row.entry.createdAt, false⟩)) with
          db :=
            { log := w.db.log ++ [row],
              keys := w.db.keys ++ [⟨c.key, c.fingerprint env, row.id⟩],
              usage := if env.enforced then usage else w.db.usage } }
      | _ => none
  | .fails i => do
      let c ← w.calls[i]?
      match c.phase with
      | .done _ => none
      | _ => some (w.put i c (.done (.error .failed)))

/-- The calls of an extension for an organization, from committed usage on. -/
def keyedSystem (env : WriterEnv) (usage : Option UsageRow) : Run.System KeyedWorld KeyedAct where
  init := ⟨⟨[], [], usage⟩, 0, []⟩
  step := KeyedWorld.step env

/-! ### What a step can do -/

/-- The row a call has written and not committed yet. -/
def KeyedPhase.pending : KeyedPhase → Option ExtensionRow
  | .inserted _ row => some row
  | .keyed _ row => some row
  | _ => none

/-- The receipt a call has found or answered with. -/
def KeyedPhase.receipt : KeyedPhase → Option IdempotentAuditReceipt
  | .found receipt => some receipt
  | .done (.ok receipt) => some receipt
  | _ => none

/-- The call has failed with the conflict error. -/
def KeyedPhase.isConflict : KeyedPhase → Bool
  | .done (.error .conflict) => true
  | _ => false

/-- A phase without rows, receipts and conflicts. -/
structure KeyedPhase.Plain (phase : KeyedPhase) : Prop where
  pending : phase.pending = none
  receipt : phase.receipt = none
  isConflict : phase.isConflict = false

/-- No other call is in the way. -/
def KeyedWorld.Free (w : KeyedWorld) (i : ℕ) (p : KeyedCall → Bool) : Prop :=
  ∀ j d, w.calls[j]? = some d → j ≠ i → p d = false

lemma KeyedWorld.heldByOther_eq_false_iff {w : KeyedWorld} {i : ℕ} {p : KeyedCall → Bool} :
    w.heldByOther i p = false ↔ w.Free i p := by
  rw [KeyedWorld.heldByOther, List.any_eq_false]
  simp only [Prod.forall, List.mem_zipIdx_iff_getElem?, decide_eq_true_eq, not_and,
    Bool.not_eq_true]
  exact ⟨fun h j d hd hne => h d j hd hne, fun h d j hd hne => h j d hd hne⟩

/-- What a statement of a call does: to the call, to the committed rows, to the sequences. -/
inductive Moves (env : WriterEnv) (w : KeyedWorld) (i : ℕ) (c : KeyedCall) :
    KeyedAct → KeyedCall → ExtensionDb → ℕ → Prop
  | quiet {a : KeyedAct} {phase : KeyedPhase} (hplain : phase.Plain) :
      Moves env w i c a { c with phase := phase } w.db w.seq
  | conflicts (k : IdempotencyKeyRow) (hk : k ∈ w.db.keys) (hkey : k.idempotencyKey = c.key)
      (hdiffers : k.contentFingerprint ≠ c.fingerprint env) :
      Moves env w i c (.looks i) { c with phase := .done (.error .conflict) } w.db w.seq
  | finds (k : IdempotencyKeyRow) (row : ExtensionRow) (hk : k ∈ w.db.keys)
      (hkey : k.idempotencyKey = c.key) (hrow : row ∈ w.db.log) (hid : row.id = k.auditEntryId) :
      Moves env w i c (.looks i)
        { c with phase := .found ⟨row.id, row.entry.createdAt, true⟩ } w.db w.seq
  | answers (receipt : IdempotentAuditReceipt) (hphase : c.phase = .found receipt) :
      Moves env w i c (.commits i) { c with phase := .done (.ok receipt) } w.db w.seq
  | inserts (usage : Option UsageRow) (row : ExtensionRow) (hmissed : c.phase.missed = true)
      (hid : row.id = w.seq) (hwriter : row.writer = some i) :
      Moves env w i c (.inserts i) { c with phase := .inserted usage row } w.db (w.seq + 1)
  | keys (usage : Option UsageRow) (row : ExtensionRow) (hphase : c.phase = .inserted usage row)
      (hfree : w.Free i fun d => d.phase.isKeyed && d.key = c.key)
      (hnew : ∀ k ∈ w.db.keys, k.idempotencyKey ≠ c.key) :
      Moves env w i c (.keys i) { c with phase := .keyed usage row } w.db w.seq
  | races (usage : Option UsageRow) (row : ExtensionRow) (hphase : c.phase = .inserted usage row)
      (hfirst : c.retried = false) (k : IdempotencyKeyRow) (hk : k ∈ w.db.keys)
      (hkey : k.idempotencyKey = c.key) :
      Moves env w i c (.keys i) { c with retried := true, phase := .ready } w.db w.seq
  | commits (usage : Option UsageRow) (row : ExtensionRow) (hphase : c.phase = .keyed usage row) :
      Moves env w i c (.commits i)
        { c with phase := .done (.ok ⟨row.id, row.entry.createdAt, false⟩) }
        { log := w.db.log ++ [row],
          keys := w.db.keys ++ [⟨c.key, c.fingerprint env, row.id⟩],
          usage := if env.enforced then usage else w.db.usage } w.seq

/-- A failure other than a conflict. -/
lemma Moves.fails {env : WriterEnv} {w : KeyedWorld} {i : ℕ} {c : KeyedCall} {a : KeyedAct}
    {e : WriteError} (h : e ≠ .conflict) :
    Moves env w i c a { c with phase := .done (.error e) } w.db w.seq := by
  refine .quiet ⟨rfl, rfl, ?_⟩
  cases e <;> first | rfl | exact absurd rfl h

lemma moves_lookup {env : WriterEnv} {w : KeyedWorld} {i : ℕ} {c : KeyedCall} (start : ℕ) :
    Moves env w i c (.looks i) { c with phase := w.db.lookup env c start } w.db w.seq := by
  unfold ExtensionDb.lookup
  cases hfind : w.db.keys.find? fun k => k.idempotencyKey = c.key with
  | none => exact .quiet ⟨rfl, rfl, rfl⟩
  | some k =>
    have hk := List.mem_of_find?_eq_some hfind
    have hkey : k.idempotencyKey = c.key := by simpa using List.find?_some hfind
    dsimp only
    split_ifs with hdiffers
    · exact .conflicts k hk hkey hdiffers
    · cases hrow : w.db.log.find? fun row => row.id = k.auditEntryId with
      | none => exact .fails nofun
      | some row =>
        exact .finds k row hk hkey (List.mem_of_find?_eq_some hrow)
          (by simpa using List.find?_some hrow)

/-- **A step**: a call arrives, other writers commit, or a call moves. -/
lemma step_moves {env : WriterEnv} {w w' : KeyedWorld} {a : KeyedAct} (h : w.step env a = some w') :
    (∃ input resolved, a = .starts input resolved ∧
      w' = { w with calls := w.calls ++ [KeyedCall.start env input resolved] }) ∨
    (∃ entry usage, a = .others entry usage ∧
      w' =
        { w with
          db := { w.db with log := w.db.log ++ [⟨w.seq, none, entry⟩], usage := usage },
          seq := w.seq + 1 }) ∨
    ∃ i c c' db seq, w.calls[i]? = some c ∧ (∀ answer, c.phase ≠ .done answer) ∧
      Moves env w i c a c' db seq ∧ w' = ⟨db, seq, w.calls.set i c'⟩ := by
  have hmoves : ∀ {i c c' db seq}, w.calls[i]? = some c →
      some ⟨db, seq, w.calls.set i c'⟩ = some w' → (∀ answer, c.phase ≠ .done answer) →
      Moves env w i c a c' db seq → ∃ i c c' db seq, w.calls[i]? = some c ∧ (∀ answer, c.phase ≠ .done answer) ∧
        Moves env w i c a c' db seq ∧ w' = ⟨db, seq, w.calls.set i c'⟩ :=
    fun hc h hopen hmove => ⟨_, _, _, _, _, hc, hopen, hmove, (Option.some.inj h).symm⟩
  cases a with
  | starts input resolved =>
    exact .inl ⟨input, resolved, rfl, (Option.some.inj h).symm⟩
  | others entry usage =>
    simp only [KeyedWorld.step] at h
    split_ifs at h
    exact .inr (.inl ⟨entry, usage, rfl, (Option.some.inj h).symm⟩)
  | begins i now =>
    obtain ⟨c, hc, h⟩ := Option.bind_eq_some_iff.1 h
    split at h
    · next hphase =>
        refine .inr (.inr (hmoves hc h (by rw [hphase]; nofun) ?_))
        split_ifs
        · exact .fails nofun
        · exact .quiet ⟨rfl, rfl, rfl⟩
    · cases h
  | locks i bypassed =>
    obtain ⟨c, hc, h⟩ := Option.bind_eq_some_iff.1 h
    split at h
    · next start hphase =>
        split_ifs at h
        exact .inr (.inr (hmoves hc h (by rw [hphase]; nofun) (.quiet ⟨rfl, rfl, rfl⟩)))
    · cases h
  | looks i =>
    obtain ⟨c, hc, h⟩ := Option.bind_eq_some_iff.1 h
    split at h
    · next start hphase =>
        exact .inr (.inr (hmoves hc h (by rw [hphase]; nofun) (moves_lookup start)))
    · cases h
  | gates i config =>
    obtain ⟨c, hc, h⟩ := Option.bind_eq_some_iff.1 h
    split at h
    · next start hphase =>
        split_ifs at h
        split at h
        · exact .inr (.inr (hmoves hc h (by rw [hphase]; nofun) (.fails nofun)))
        · exact .inr (.inr (hmoves hc h (by rw [hphase]; nofun) (.quiet ⟨rfl, rfl, rfl⟩)))
    · cases h
  | heads i =>
    obtain ⟨c, hc, h⟩ := Option.bind_eq_some_iff.1 h
    split at h
    · next start usage hphase =>
        split_ifs at h
        exact .inr (.inr (hmoves hc h (by rw [hphase]; nofun) (.quiet ⟨rfl, rfl, rfl⟩)))
    · cases h
  | inserts i =>
    obtain ⟨c, hc, h⟩ := Option.bind_eq_some_iff.1 h
    split at h
    · next start usage previousHmac hphase =>
        split at h
        · exact .inr (.inr (hmoves hc h (by rw [hphase]; nofun) (.fails nofun)))
        · next row hrow =>
            obtain ⟨resourceId, -, rfl⟩ := Option.map_eq_some_iff.1 hrow
            exact .inr (.inr (hmoves hc h (by rw [hphase]; nofun)
              (.inserts usage _ (by rw [hphase]; rfl) rfl rfl)))
    · cases h
  | keys i =>
    obtain ⟨c, hc, h⟩ := Option.bind_eq_some_iff.1 h
    split at h
    · next usage row hphase =>
        have hopen : ∀ answer, c.phase ≠ .done answer := by rw [hphase]; nofun
        split_ifs at h with hheld hkey hretried
        · exact .inr (.inr (hmoves hc h hopen (.fails nofun)))
        · obtain ⟨k, hk, hkey⟩ := List.any_eq_true.1 hkey
          exact .inr (.inr (hmoves hc h hopen
            (.races usage row hphase (by simpa using hretried) k hk (by simpa using hkey))))
        · have hfree := KeyedWorld.heldByOther_eq_false_iff.1 (by simpa using hheld)
          exact .inr (.inr (hmoves hc h hopen
            (.keys usage row hphase hfree (by simpa using hkey))))
    · cases h
  | commits i =>
    obtain ⟨c, hc, h⟩ := Option.bind_eq_some_iff.1 h
    split at h
    · next receipt hphase =>
        exact .inr (.inr (hmoves hc h (by rw [hphase]; nofun) (.answers receipt hphase)))
    · next usage row hphase =>
        exact .inr (.inr (hmoves hc h (by rw [hphase]; nofun) (.commits usage row hphase)))
    · cases h
  | fails i =>
    obtain ⟨c, hc, h⟩ := Option.bind_eq_some_iff.1 h
    split at h
    · cases h
    · next hopen => exact .inr (.inr (hmoves hc h hopen (.fails nofun)))

end ProjectVault.Audit
