import ProjectVault.Audit.Chain
import ProjectVault.Audit.Digest

/-!
Verification of a chain (`audit/verify.ts`).
-/

namespace ProjectVault.Audit

open Js Db

/-! ### Shared parts -/

/-- `VerifyFailureReason`. -/
inductive VerifyFailureReason where
  | hmacMismatch | keyVersionMismatch | chainBreak
  deriving DecidableEq

/-- The errors of a verification: `InvalidRangeError` and `RangeTooLargeError` with its
two messages. -/
inductive VerifyError where
  | toBeforeFrom
  | rangeExceedsDays (maxRangeDays : ℕ)
  | rangeExceedsRows (maxRows : ℕ)

/-- `MS_PER_DAY`. -/
def msPerDay : ℕ := 24 * 60 * 60 * 1000

/-- `validateVerifyRange`, on instants. -/
def validateVerifyRange (fromDate toDate maxRangeDays : ℕ) : Except VerifyError Unit :=
  if toDate < fromDate then .error .toBeforeFrom
  else if toDate - fromDate > maxRangeDays * msPerDay then .error (.rangeExceedsDays maxRangeDays)
  else .ok ()

/-- `Buffer.from(text, 'hex')`: pairs of digits up to the first that is none. -/
def bufferFromHex : List Char → List ℕ
  | a :: b :: rest =>
    match hexVal a, hexVal b with
    | some x, some y => (16 * x + y) :: bufferFromHex rest
    | _, _ => []
  | _ => []

/-- `hmacMatches`. -/
def hmacMatches (stored recomputed : String) : Bool :=
  let storedBuffer := bufferFromHex stored.toList
  let recomputedBuffer := bufferFromHex recomputed.toList
  if storedBuffer.length ≠ recomputedBuffer.length then false
  else if storedBuffer.length = 0 then false
  else storedBuffer = recomputedBuffer

/-- `FAILED_ENTRIES_CAP`. -/
def failedEntriesCap : ℕ := 500

/-- The variables of the loop over the fetched rows. -/
structure Walk (ρ : Type) where
  expectedPreviousHmac : Option String
  passed : ℕ
  failedCount : ℕ
  failed : List (ρ × VerifyFailureReason)

section Rows

variable {ρ : Type} (evaluate : Option String → ρ → Option VerifyFailureReason) (hmac : ρ → String)

/-- One round of the loop. -/
def Walk.next (walk : Walk ρ) (row : ρ) : Walk ρ :=
  match evaluate walk.expectedPreviousHmac row with
  | none => { walk with passed := walk.passed + 1, expectedPreviousHmac := some (hmac row) }
  | some reason =>
    { walk with
      failedCount := walk.failedCount + 1,
      failed :=
        if walk.failed.length < failedEntriesCap then walk.failed ++ [(row, reason)]
        else walk.failed,
      expectedPreviousHmac := some (hmac row) }

/-- The loop. -/
def verifyRows (expectedPreviousHmac : Option String) (rows : List ρ) : Walk ρ :=
  rows.foldl (Walk.next evaluate hmac) ⟨expectedPreviousHmac, 0, 0, []⟩

end Rows

/-- `VerifyResult`, with the failing rows themselves for their identifiers. -/
structure VerifyResult (ρ : Type) where
  summary : String
  rowsChecked : ℕ
  passed : ℕ
  failed : List (ρ × VerifyFailureReason)
  failedCount : ℕ
  failedTruncated : Bool

/-- `buildVerifySummary`. -/
def buildVerifySummary (rowsChecked passed failedCount : ℕ) : String :=
  if rowsChecked = 0 then "No records found in this range"
  else if failedCount = 0 then
    "All " ++ toString rowsChecked ++ " records verified — no tampering detected"
  else toString passed ++ " of " ++ toString rowsChecked ++ " records verified — " ++
    toString failedCount ++ " record" ++ (if failedCount = 1 then "" else "s") ++
    " failed integrity check"

/-- `finalizeVerifyResult`. -/
def finalizeVerifyResult {ρ : Type} (rowsChecked : ℕ) (walk : Walk ρ) : VerifyResult ρ where
  summary := buildVerifySummary rowsChecked walk.passed walk.failedCount
  rowsChecked := rowsChecked
  passed := walk.passed
  failed := walk.failed
  failedCount := walk.failedCount
  failedTruncated := walk.failedCount > walk.failed.length

/-! ### The chain of an organization -/

/-- `AUDIT_VERIFY_MAX_RANGE_DAYS`. -/
def auditVerifyMaxRangeDays : ℕ := 90

/-- `AUDIT_VERIFY_MAX_ROWS`. -/
def auditVerifyMaxRows : ℕ := 50000

/-- `AuditEvent.RETENTION_PURGE_BOUNDARY`. -/
def retentionPurgeBoundary : String := "audit.retention_purge_boundary"

/-- `payload ->> key`. -/
def payloadText (env : AuditEnv) (payload : List (String × Json)) (key : String) :
    Option String :=
  match (Json.obj payload).get? key with
  | none => none
  | some .null => none
  | some (.str s) => some s
  | some j => some (env.jsonbText j)

/-- `hasAttestedGap`. -/
def hasAttestedGap (env : AuditEnv) (db : AuditDb) (orgId orphanedHash : String) : Bool :=
  (db.ofOrg orgId).any fun e =>
    e.eventType = retentionPurgeBoundary ∧
      payloadText env e.payload "attestedGapHash" = some orphanedHash

/-- `evaluateAuditRow`: the reason a row fails, if it does. -/
def evaluateAuditRow (env : AuditEnv) (db : AuditDb) (expectedPreviousHmac : Option String)
    (row : AuditLogEntry) : Option VerifyFailureReason :=
  let hmacOk := hmacMatches row.hmac (computeAuditHmac env row.rebuilt)
  let keyVersionOk := row.keyVersion = env.keyVersion
  let chainOk := row.previousEntryHmac = expectedPreviousHmac ∨
    ∃ orphaned ∈ row.previousEntryHmac, hasAttestedGap env db row.orgId orphaned = true
  if hmacOk = false then some .hmacMismatch
  else if ¬ keyVersionOk then some .keyVersionMismatch
  else if ¬ chainOk then some .chainBreak
  else none

/-- Rows with `created_at` in `[from, to)`. -/
def inWindow (fromDate toDate : ℕ) (e : AuditLogEntry) : Bool :=
  fromDate ≤ e.createdAt ∧ e.createdAt < toDate

/-- The rows of the range query, before its limit. -/
def AuditDb.windowRows (db : AuditDb) (orgId : String) (fromDate toDate : ℕ) :
    List AuditLogEntry :=
  sortAsc AuditLogEntry.chainSeq ((db.ofOrg orgId).filter (inWindow fromDate toDate))

/-- The HMAC of the row right before a row, wherever its `created_at` lies. -/
def AuditDb.predecessorHmac (db : AuditDb) (row : AuditLogEntry) : Option String :=
  (sortDesc AuditLogEntry.chainSeq
    ((db.ofOrg row.orgId).filter fun e => e.chainSeq < row.chainSeq)).head?.map (·.hmac)

/-- `verifyAuditRange` in the row context of an organization, with the vault unsealed. -/
def verifyAuditRange (env : AuditEnv) (db : AuditDb) (orgId : String) (fromDate toDate : ℕ) :
    Except VerifyError (VerifyResult AuditLogEntry) := do
  validateVerifyRange fromDate toDate auditVerifyMaxRangeDays
  let rows := (db.windowRows orgId fromDate toDate).take (auditVerifyMaxRows + 1)
  if rows.length > auditVerifyMaxRows then throw (.rangeExceedsRows auditVerifyMaxRows)
  let expectedPreviousHmac := rows.head?.bind db.predecessorHmac
  return finalizeVerifyResult rows.length
    (verifyRows (evaluateAuditRow env db) AuditLogEntry.hmac expectedPreviousHmac rows)

/-- Within the limits a verification walks every row of its window. -/
lemma verifyAuditRange_eq_ok (env : AuditEnv) (db : AuditDb) (orgId : String)
    {fromDate toDate : ℕ} (hfrom : fromDate ≤ toDate)
    (hspan : toDate - fromDate ≤ auditVerifyMaxRangeDays * msPerDay)
    (hrows : (db.windowRows orgId fromDate toDate).length ≤ auditVerifyMaxRows) :
    verifyAuditRange env db orgId fromDate toDate =
      .ok (finalizeVerifyResult (db.windowRows orgId fromDate toDate).length
        (verifyRows (evaluateAuditRow env db) AuditLogEntry.hmac
          ((db.windowRows orgId fromDate toDate).head?.bind db.predecessorHmac)
          (db.windowRows orgId fromDate toDate))) := by
  have htake : (db.windowRows orgId fromDate toDate).take (auditVerifyMaxRows + 1) =
      db.windowRows orgId fromDate toDate :=
    List.take_of_length_le (by omega)
  have hvalid : validateVerifyRange fromDate toDate auditVerifyMaxRangeDays = .ok () := by
    rw [validateVerifyRange, if_neg (by omega), if_neg (by omega)]
  rw [verifyAuditRange, hvalid, htake]
  simp only [bind, Except.bind, gt_iff_lt, not_lt.2 hrows, if_false]
  rfl

/-- A verification that answers was within the limits. -/
lemma limits_of_verifyAuditRange {env : AuditEnv} {db : AuditDb} {orgId : String}
    {fromDate toDate : ℕ} {r : VerifyResult AuditLogEntry}
    (h : verifyAuditRange env db orgId fromDate toDate = .ok r) :
    fromDate ≤ toDate ∧ toDate - fromDate ≤ auditVerifyMaxRangeDays * msPerDay ∧
      (db.windowRows orgId fromDate toDate).length ≤ auditVerifyMaxRows := by
  simp only [verifyAuditRange, validateVerifyRange, bind, Except.bind] at h
  split_ifs at h with horder hspan hrows
  refine ⟨not_lt.1 horder, not_lt.1 hspan, ?_⟩
  rw [List.length_take] at hrows
  omega

lemma predecessorHmac_eq {db : AuditDb} {orgId : String} (hsorted : InOrder (db.ofOrg orgId))
    {before after : List AuditLogEntry} {row : AuditLogEntry}
    (hsplit : db.ofOrg orgId = before ++ row :: after) :
    db.predecessorHmac row = tailHmac before := by
  have horg : row.orgId = orgId := by
    have hmem : row ∈ db.ofOrg orgId := by simp [hsplit]
    simpa using (List.mem_filter.1 hmem).2
  rw [InOrder, hsplit] at hsorted
  have hbefore : InOrder before := (List.pairwise_append.1 hsorted).1
  rw [AuditDb.predecessorHmac, horg, hsplit, filter_lt_eq_of_pairwise _ hsorted,
    hbefore.head?_sortDesc]

/-- A verification of rows in order walks the rows of its window from the row before
them. -/
lemma verifyAuditRange_eq_walk (env : AuditEnv) {db : AuditDb} {orgId : String}
    (hsorted : InOrder (db.ofOrg orgId)) {fromDate toDate : ℕ} (hfrom : fromDate ≤ toDate)
    (hspan : toDate - fromDate ≤ auditVerifyMaxRangeDays * msPerDay)
    (hrows : (db.windowRows orgId fromDate toDate).length ≤ auditVerifyMaxRows) :
    verifyAuditRange env db orgId fromDate toDate =
      .ok (finalizeVerifyResult ((db.ofOrg orgId).filter (inWindow fromDate toDate)).length
        (verifyRows (evaluateAuditRow env db) AuditLogEntry.hmac
          (tailHmac (Chain.beforeWindow (inWindow fromDate toDate) (db.ofOrg orgId)))
          ((db.ofOrg orgId).filter (inWindow fromDate toDate)))) := by
  have hwindow : db.windowRows orgId fromDate toDate =
      (db.ofOrg orgId).filter (inWindow fromDate toDate) :=
    sortAsc_eq_self _ (hsorted.filter _)
  rw [verifyAuditRange_eq_ok env db orgId hfrom hspan hrows, hwindow]
  cases hfilter : (db.ofOrg orgId).filter (inWindow fromDate toDate) with
  | nil => rfl
  | cons a rows =>
    obtain ⟨rest, hsplit⟩ := Chain.eq_beforeWindow_append hfilter
    rw [List.head?_cons, Option.bind_some, predecessorHmac_eq hsorted hsplit]

/-! ### HMAC texts -/

lemma bufferFromHex_flatMap (bytes : List (Fin 256)) :
    bufferFromHex (bytes.flatMap hexByte) = bytes.map Fin.val := by
  induction bytes with
  | nil => rfl
  | cons b bytes ih =>
    have hhigh : b.val / 16 < 16 := by omega
    have hlow : b.val % 16 < 16 := by omega
    have hbyte : 16 * (b.val / 16) + b.val % 16 = b.val := by omega
    rw [List.flatMap_cons]
    simp only [hexByte, List.cons_append, List.nil_append, bufferFromHex, hexVal_hexDigit _ hhigh,
      hexVal_hexDigit _ hlow, List.map_cons, ih, hbyte]

lemma Mac.bufferFromHex_hex (m : Mac) : bufferFromHex m.hex.toList = m.bytes.map Fin.val := by
  rw [Mac.hex, String.toList_ofList, bufferFromHex_flatMap]

/-- A text matches a computed HMAC if and only if it spells its bytes. -/
lemma hmacMatches_hex (stored : String) (m : Mac) :
    hmacMatches stored m.hex = true ↔ bufferFromHex stored.toList = m.bytes.map Fin.val := by
  have hsize : (m.bytes.map Fin.val).length ≠ 0 := by simp [m.size]
  simp only [hmacMatches, m.bufferFromHex_hex]
  constructor
  · intro h
    split_ifs at h
    simpa using h
  · intro h
    rw [h, if_neg (by simp), if_neg hsize]
    simp

lemma hmacMatches_self (m : Mac) : hmacMatches m.hex m.hex = true :=
  (hmacMatches_hex _ m).2 m.bufferFromHex_hex

lemma Mac.ext_bytes {m m' : Mac} (h : m.bytes.map Fin.val = m'.bytes.map Fin.val) : m = m' := by
  obtain ⟨bytes, _⟩ := m
  obtain ⟨bytes', _⟩ := m'
  obtain rfl : bytes = bytes' := List.map_injective_iff.2 Fin.val_injective h
  rfl

lemma Mac.hex_injective {m m' : Mac} (h : m.hex = m'.hex) : m = m' := by
  refine Mac.ext_bytes ?_
  rw [← m.bufferFromHex_hex, ← m'.bufferFromHex_hex, h]

lemma Mac.hex_length (m : Mac) : m.hex.toList.length = 64 := by
  have hbyte : ∀ b, (hexByte b).length = 2 := fun _ => rfl
  simp [Mac.hex, List.length_flatMap, hbyte, m.size]

lemma Mac.hex_ne_genesis (m : Mac) : m.hex ≠ genesisSentinel := by
  intro h
  have hlen := m.hex_length
  rw [h] at hlen
  exact absurd hlen (by decide)

/-! ### The walk -/

section Rows

variable {ρ : Type} (evaluate : Option String → ρ → Option VerifyFailureReason) (hmac : ρ → String)

/-- Every row passes where it stands. -/
def Passes : Option String → List ρ → Prop
  | _, [] => True
  | expected, row :: rows => evaluate expected row = none ∧ Passes (some (hmac row)) rows

variable {evaluate hmac}

lemma failedCount_foldl_eq_zero_iff (walk : Walk ρ) (rows : List ρ) :
    (rows.foldl (Walk.next evaluate hmac) walk).failedCount = 0 ↔
      walk.failedCount = 0 ∧ Passes evaluate hmac walk.expectedPreviousHmac rows := by
  induction rows generalizing walk with
  | nil => simp [Passes]
  | cons row rows ih =>
    rw [List.foldl_cons, ih]
    cases heval : evaluate walk.expectedPreviousHmac row with
    | none => simp [Walk.next, heval, Passes]
    | some reason => simp [Walk.next, heval, Passes]

/-- A verification reports no failure if and only if every row passes. -/
lemma failedCount_verifyRows_eq_zero_iff (expected : Option String) (rows : List ρ) :
    (verifyRows evaluate hmac expected rows).failedCount = 0 ↔
      Passes evaluate hmac expected rows := by
  rw [verifyRows, failedCount_foldl_eq_zero_iff]
  simp

lemma mem_failed_foldl {row : ρ} {reason : VerifyFailureReason} (rows : List ρ) (walk : Walk ρ)
    (h : (row, reason) ∈ (rows.foldl (Walk.next evaluate hmac) walk).failed) :
    (row, reason) ∈ walk.failed ∨ ∃ before after, rows = before ++ row :: after ∧
      evaluate (Chain.lastHash hmac walk.expectedPreviousHmac before) row = some reason := by
  induction rows generalizing walk with
  | nil => exact .inl h
  | cons r rows ih =>
    have hexpected : (Walk.next evaluate hmac walk r).expectedPreviousHmac = some (hmac r) := by
      rw [Walk.next]
      split <;> rfl
    cases ih _ h with
    | inl hfailed =>
      cases heval : evaluate walk.expectedPreviousHmac r with
      | none =>
        rw [Walk.next, heval] at hfailed
        exact .inl hfailed
      | some why =>
        simp only [Walk.next, heval] at hfailed
        split_ifs at hfailed
        · cases List.mem_append.1 hfailed with
          | inl hold => exact .inl hold
          | inr hnew =>
            obtain ⟨rfl, rfl⟩ := Prod.mk.inj (List.mem_singleton.1 hnew)
            exact .inr ⟨[], rows, rfl, heval⟩
        · exact .inl hfailed
    | inr hlater =>
      obtain ⟨before, after, hsplit, heval⟩ := hlater
      refine .inr ⟨r :: before, after, by rw [hsplit, List.cons_append], ?_⟩
      rw [Chain.lastHash_cons, ← hexpected]
      exact heval

/-- Every failure that is reported was found where its row stands. -/
lemma exists_of_mem_failed {expected : Option String} {rows : List ρ} {row : ρ}
    {reason : VerifyFailureReason}
    (h : (row, reason) ∈ (verifyRows evaluate hmac expected rows).failed) :
    ∃ before after, rows = before ++ row :: after ∧
      evaluate (Chain.lastHash hmac expected before) row = some reason := by
  cases mem_failed_foldl rows _ h with
  | inl hnone => simp at hnone
  | inr hsome => exact hsome

/-- Rows that can only fail at their link pass if and only if they are linked. -/
lemma passes_iff_linked {prev : ρ → Option String} {expected : Option String} {rows : List ρ}
    (h : ∀ row ∈ rows, ∀ expected, evaluate expected row = none ↔ prev row = expected) :
    Passes evaluate hmac expected rows ↔ Chain.Linked prev hmac expected rows := by
  induction rows generalizing expected with
  | nil => simp [Passes]
  | cons row rows ih =>
    rw [Passes, Chain.linked_cons, h row (by simp) expected,
      ih fun r hr => h r (by simp [hr])]

/-- No two rows of a chain have one HMAC, if rows with one HMAC continue the same entry: a
row continues nothing or an HMAC, and no HMAC is the sentinel. -/
lemma nodup_of_macs {prev : ρ → Option String} {rows : List ρ} (mac : ρ → Mac)
    (hlinked : Chain.Linked prev hmac none rows) (hhmac : ∀ e ∈ rows, hmac e = (mac e).hex)
    (hprev : ∀ a ∈ rows, ∀ b ∈ rows, mac a = mac b →
      (prev a).getD genesisSentinel = (prev b).getD genesisSentinel) : (rows.map hmac).Nodup := by
  have hcases : ∀ e ∈ rows, prev e = none ∨ ∃ m : Mac, prev e = some m.hex := by
    intro e he
    cases hlinked.prev_mem he with
    | inl hnone => exact .inl hnone
    | inr hsome =>
      obtain ⟨d, hd, heq⟩ := hsome
      exact .inr ⟨mac d, by rw [heq, hhmac d hd]⟩
  refine hlinked.nodup ?_
  intro a ha b hb heq
  rw [hhmac a ha, hhmac b hb] at heq
  have hdigest := hprev a ha b hb (Mac.hex_injective heq)
  cases hcases a ha with
  | inl hna =>
    cases hcases b hb with
    | inl hnb => rw [hna, hnb]
    | inr hsb =>
      obtain ⟨m, hm⟩ := hsb
      rw [hna, hm] at hdigest
      exact absurd hdigest.symm m.hex_ne_genesis
  | inr hsa =>
    obtain ⟨m, hm⟩ := hsa
    cases hcases b hb with
    | inl hnb =>
      rw [hm, hnb] at hdigest
      exact absurd hdigest m.hex_ne_genesis
    | inr hsb =>
      obtain ⟨m', hm'⟩ := hsb
      rw [hm, hm'] at hdigest
      rw [hm, hm', show m.hex = m'.hex from hdigest]

end Rows

/-! ### Windows of genuine chains -/

/-- A row as a covered call stores it. -/
structure Genuine (env : AuditEnv) (e : AuditLogEntry) : Prop where
  hmac : e.hmac = computeAuditHmac env e.rebuilt
  keyVersion : e.keyVersion = env.keyVersion
  eventType : e.eventType ≠ retentionPurgeBoundary

/-- The event type a call writes. -/
def AuditCall.eventType : AuditCall → String
  | .human fields => fields.eventType
  | .machine fields => fields.eventType
  | .system fields => fields.eventType
  | .systemRow input => input.eventType
  | .versionPurged _ => "credential.version_purged"

lemma AuditCall.genuine {env : AuditEnv} {call : AuditCall} (hcovered : call.Covered env)
    (hevent : call.eventType ≠ retentionPurgeBoundary) (prev : Option String)
    (c : Ctx AuditDb) : Genuine env (call.storedRow env prev c) where
  hmac := by
    rw [call.hmac_storedRow, computeAuditHmac, computeAuditHmac, hcovered.canonical_rebuilt prev c]
  keyVersion := by cases call <;> rfl
  eventType := by
    have : (call.storedRow env prev c).eventType = call.eventType := by cases call <;> rfl
    rw [this]
    exact hevent

/-- Runs in which every write hashes what it stores and nobody purges. -/
def HonestCalls (env : AuditEnv) (calls : List AuditCall) : Prop :=
  ∀ call ∈ calls, call.Covered env ∧ call.eventType ≠ retentionPurgeBoundary

/-- The labels of such runs. -/
def HonestRun (env : AuditEnv) (_ : State AuditDb AuditLock Bool) :
    Label (List AuditCall) → Prop
  | .opens _ calls => HonestCalls env calls
  | _ => True

/-- What every honest run leaves behind. -/
lemma auditInv_of_honestRun {env : AuditEnv} {s : State AuditDb AuditLock Bool}
    (h : (sessions (auditTransaction env) freshWorld).Reaches (HonestRun env) s) :
    AuditInv (appendOnly (Genuine env)) s.world := by
  have hkeeps : Keeps (chainProtocol (appendOnly (Genuine env))) (auditTransaction env) (HonestCalls env) := by
    refine keeps_auditTransaction env ?_
    intro calls hcalls call hcall prev c
    obtain ⟨hcovered, hevent⟩ := hcalls call hcall
    exact AuditCall.genuine hcovered hevent prev c
  exact (Sound.of_reaches hkeeps (fun _ _ _ hok => hok) (auditInv_freshWorld _) h
    fun _ _ => trivial).inv

/-- A genuine row fails at its link only, if no gap of its chain is attested. -/
lemma Genuine.evaluateAuditRow_eq_none_iff {env : AuditEnv} {db : AuditDb} {row : AuditLogEntry}
    (h : Genuine env row) (hrows : ∀ e ∈ db.ofOrg row.orgId, e.eventType ≠ retentionPurgeBoundary)
    (expected : Option String) :
    evaluateAuditRow env db expected row = none ↔ row.previousEntryHmac = expected := by
  have hmatch : hmacMatches row.hmac (computeAuditHmac env row.rebuilt) = true := by
    rw [h.hmac]
    exact hmacMatches_self _
  have hgap : ∀ orphaned, hasAttestedGap env db row.orgId orphaned = false := by
    intro orphaned
    rw [hasAttestedGap, List.any_eq_false]
    intro e he
    simp [hrows e he]
  simp [evaluateAuditRow, hmatch, h.keyVersion, hgap]

section Window

variable {env : AuditEnv} {w : AuditWorld Bool}

/-- A genuine row fails at its link only. -/
lemma evaluateAuditRow_eq_none_iff (hinv : AuditInv (appendOnly (Genuine env)) w) {row : AuditLogEntry}
    (hrow : row ∈ w.db.entries) (expected : Option String) :
    evaluateAuditRow env w.db expected row = none ↔ row.previousEntryHmac = expected :=
  (hinv.rows row hrow).2.evaluateAuditRow_eq_none_iff
    (fun e he => (hinv.rows e (List.mem_of_mem_filter he)).2.eventType) expected

/-- No row outside the window stands, in the chain, between two rows inside it. -/
def AuditDb.WindowConvex (db : AuditDb) (orgId : String) (fromDate toDate : ℕ) : Prop :=
  ∀ a ∈ db.ofOrg orgId, ∀ b ∈ db.ofOrg orgId, ∀ c ∈ db.ofOrg orgId,
    a.chainSeq < b.chainSeq → b.chainSeq < c.chainSeq →
      inWindow fromDate toDate a = true → inWindow fromDate toDate c = true →
        inWindow fromDate toDate b = true

/-- The HMAC has no collision among the digests of the rows. -/
def CollisionFree (env : AuditEnv) (rows : List AuditLogEntry) : Prop :=
  ∀ a ∈ rows, ∀ b ∈ rows,
    env.hmacSha256 (canonical env a.rebuilt) = env.hmacSha256 (canonical env b.rebuilt) →
      canonical env a.rebuilt = canonical env b.rebuilt

/-- Without collisions, no two rows of a chain have one HMAC. -/
lemma nodup_hmac (hinv : AuditInv (appendOnly (Genuine env)) w) {orgId : String}
    (hfree : CollisionFree env (w.db.ofOrg orgId)) :
    ((w.db.ofOrg orgId).map AuditLogEntry.hmac).Nodup := by
  refine nodup_of_macs (fun e => env.hmacSha256 (canonical env e.rebuilt))
    (hinv.chained orgId).linked ?_ ?_
  · exact fun e he => (hinv.rows e (List.mem_of_mem_filter he)).2.hmac
  · exact fun a ha b hb heq => previousEntryHmac_eq_of_canonical_eq (hfree a ha b hb heq)

/-- Of a chain that nobody purged, a window is clean if and only if it is linked. -/
lemma verifyAuditRange_eq (hinv : AuditInv (appendOnly (Genuine env)) w) (orgId : String)
    {fromDate toDate : ℕ} (hfrom : fromDate ≤ toDate)
    (hspan : toDate - fromDate ≤ auditVerifyMaxRangeDays * msPerDay)
    (hrows : (w.db.windowRows orgId fromDate toDate).length ≤ auditVerifyMaxRows) :
    ∃ r, verifyAuditRange env w.db orgId fromDate toDate = .ok r ∧
      (r.failedCount = 0 ↔ Chain.Linked AuditLogEntry.previousEntryHmac AuditLogEntry.hmac
        (Chain.lastHash AuditLogEntry.hmac none
          (Chain.beforeWindow (inWindow fromDate toDate) (w.db.ofOrg orgId)))
        ((w.db.ofOrg orgId).filter (inWindow fromDate toDate))) := by
  refine ⟨_, verifyAuditRange_eq_walk env (hinv.sorted orgId) hfrom hspan hrows, ?_⟩
  have hlink : ∀ row ∈ (w.db.ofOrg orgId).filter (inWindow fromDate toDate), ∀ expected,
      evaluateAuditRow env w.db expected row = none ↔ row.previousEntryHmac = expected :=
    fun row hrow expected => evaluateAuditRow_eq_none_iff hinv
      (List.mem_of_mem_filter (List.mem_of_mem_filter hrow)) expected
  change (verifyRows _ _ _ _).failedCount = 0 ↔ _
  rw [failedCount_verifyRows_eq_zero_iff, passes_iff_linked hlink]
  rfl

end Window

/-- Three writers of one chain: the second one opened its transaction first but comes to
the lock after the first, so its row has the earlier `created_at` and the later
`chain_seq`. -/
def overtakingWrites : List (Label (List AuditCall)) :=
  [[.tick 10, .opens 1 [systemCall "a" "yy"], .runs 1 true, .tick 1,
    .opens 0 [systemCall "a" "x"]],
   Label.runsFor 0 7, Label.runsFor 1 6, [.tick 1, .opens 2 [systemCall "a" "zzz"]],
   Label.runsFor 2 7].flatten

lemma honestCalls_systemCall (orgId : String) {eventType : String}
    (hevent : eventType ≠ retentionPurgeBoundary) :
    HonestCalls plainEnv [systemCall orgId eventType] := by
  intro call hcall
  rw [List.mem_singleton.1 hcall]
  refine ⟨⟨?_, ?_, ?_⟩, hevent⟩
  · simp [systemCall]
  · simp [systemCall, AuditCall.resourceId]
  · simp [systemCall, AuditCall.payload, Settled, SettledMembers]

/-- The three rows of `overtakingWrites`: when they were opened, where they stand in the
chain, and that the HMACs of the first two differ. -/
def Overtaken (s : State AuditDb AuditLock Bool) : Prop :=
  s.world.db.entries.map (fun e => (e.orgId, e.createdAt, e.chainSeq)) =
      [("a", 11, 3), ("a", 10, 7), ("a", 12, 11)] ∧
    s.world.db.entries.head?.map (·.hmac) ≠ (s.world.db.entries.drop 1).head?.map (·.hmac)

instance : DecidablePred Overtaken := fun _ => inferInstanceAs (Decidable (_ ∧ _))

lemma honestRun_overtakingWrites :
    ∀ a ∈ overtakingWrites, ∀ s, HonestRun plainEnv s a := by
  have hsystem : ∀ eventType, eventType ≠ retentionPurgeBoundary →
      HonestCalls plainEnv [systemCall "a" eventType] := fun _ => honestCalls_systemCall "a"
  simp only [overtakingWrites, Label.runsFor, List.flatten_cons, List.flatten_nil,
    List.forall_mem_append, List.forall_mem_cons, List.mem_replicate,
    HonestRun, List.not_mem_nil, IsEmpty.forall_iff, implies_true, and_true, true_and, and_imp,
    forall_eq_apply_imp_iff]
  exact ⟨⟨fun _ => hsystem "yy" (by decide), fun _ => hsystem "x" (by decide)⟩,
    fun _ => hsystem "zzz" (by decide)⟩

lemma exists_overtaken :
    ∃ s, (sessions (auditTransaction plainEnv) freshWorld).Reaches (HonestRun plainEnv) s ∧
      Overtaken s := by
  obtain ⟨s, hs, hrows⟩ := Run.System.exists_of_exec
    (sessions (auditTransaction plainEnv) freshWorld) (fun _ _ => True) (State.fresh freshWorld)
    overtakingWrites Overtaken (by decide +kernel)
  exact ⟨s, Run.System.steps_of_exec_of_forall honestRun_overtakingWrites hs, hrows⟩

/-- The rows of `overtakingWrites`, one by one. -/
lemma Overtaken.rows {s : State AuditDb AuditLock Bool} (h : Overtaken s) :
    ∃ x y z, s.world.db.ofOrg "a" = [x, y, z] ∧ (x.createdAt = 11 ∧ y.createdAt = 10 ∧
      z.createdAt = 12) ∧ x.hmac ≠ y.hmac := by
  obtain ⟨hmap, hhmac⟩ := h
  obtain ⟨x, es, hx, hxrow, hes⟩ := List.map_eq_cons_iff.1 hmap
  obtain ⟨y, es', hy, hyrow, hes'⟩ := List.map_eq_cons_iff.1 hes
  obtain ⟨z, es'', hz, hzrow, hnil⟩ := List.map_eq_cons_iff.1 hes'
  obtain rfl : es'' = [] := by simpa using hnil
  simp only [Prod.mk.injEq] at hxrow hyrow hzrow
  refine ⟨x, y, z, ?_, ⟨hxrow.2.1, hyrow.2.1, hzrow.2.1⟩, ?_⟩
  · simp [AuditDb.ofOrg, hx, hy, hz, hxrow.1, hyrow.1, hzrow.1]
  · simpa [hx, hy] using hhmac

end ProjectVault.Audit
