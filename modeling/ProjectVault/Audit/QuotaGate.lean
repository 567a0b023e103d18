import Mathlib.Tactic

/-!
The two gates before an audit write (`audit/quota-gate.ts`): the rate gate and the
storage gate, one upsert each on the organization's row of
`audit_org_storage_usage`.
-/

namespace ProjectVault.Audit

/-! ### Event types -/

/-- `PREAUTH_ATTRIBUTABLE_EVENT_TYPES`. -/
def preauthAttributableEventTypes : List String :=
  ["LOGIN_FAILED", "auth.recovery_requested", "auth.recovery_link_sent",
   "auth.recovery_blocked_no_admin"]

/-- `QUOTA_REMEDIATION_EVENT_TYPES`. -/
def quotaRemediationEventTypes : List String :=
  ["audit.quota_configured", "audit.retention_purge_boundary", "audit.retention_configured",
   "audit.forwarding_configured"]

/-- `SECURITY_CRITICAL_AUDIT_EVENT_TYPES`. -/
def securityCriticalAuditEventTypes : List String :=
  ["MFA_ENROLLMENT_STARTED", "MFA_ENROLLED", "MFA_LOGIN_VERIFIED", "MFA_RECOVERY_USED",
   "MFA_RECOVERY_CODES_REGENERATED", "SESSION_REVOKED", "SESSION_CREATED", "LOGIN_FAILED",
   "auth.recovery_requested", "auth.recovery_link_sent", "auth.recovery_completed",
   "auth.recovery_blocked_no_admin", "machine_user.api_key_rotated",
   "machine_user.api_key_emergency_revoked", "machine_user.rotation_anomaly_detected"]

/-- `AuditWriteExemptionClass`. -/
inductive AuditWriteExemptionClass where
  | securityCritical | preauth | remediation
  deriving DecidableEq

/-- `classifyAuditWriteExemption`; the order of the tests matters for event types in
two of the sets. -/
def classifyAuditWriteExemption (eventType : String) : Option AuditWriteExemptionClass :=
  if eventType ∈ preauthAttributableEventTypes then some .preauth
  else if eventType ∈ quotaRemediationEventTypes then some .remediation
  else if eventType ∈ securityCriticalAuditEventTypes then some .securityCritical
  else none

/-- A write that is admitted whatever the limits. -/
def isExempt (eventType : String) : Bool :=
  classifyAuditWriteExemption eventType = some .securityCritical ∨
    classifyAuditWriteExemption eventType = some .remediation

/-- A write an unauthenticated caller can cause. -/
def isPreauth (eventType : String) : Bool :=
  classifyAuditWriteExemption eventType = some .preauth

/-! ### The statements -/

/-- The columns of `audit_org_storage_usage` the gates and the reconciliation
write. The `bigint` counters are naturals: a check constraint keeps them
non-negative. -/
structure UsageRow where
  bytesUsed : ℕ := 0
  preauthBytesUsed : ℕ := 0
  entryCount : ℕ := 0
  lastReconciledAt : Option ℕ := none
  rateWindowCount : ℕ := 0
  rateWindowResetAt : Option ℕ := none
  preauthRateWindowCount : ℕ := 0
  preauthRateWindowResetAt : Option ℕ := none
  updatedAt : ℕ

/-- A row of `audit_storage_quota_config`. -/
structure QuotaConfig where
  quotaBytes : Option ℕ
  writeRatePerMinute : Option ℕ

/-- The settings the gates read: the environment and the organization's
configuration row. -/
structure GateSettings where
  quotaEnforcementEnabled : Bool
  defaultStorageQuotaMb : ℕ
  writeRateEnforcementEnabled : Bool
  defaultWriteRatePerMin : ℕ
  writeRateWindowMs : ℕ
  config : Option QuotaConfig

/-- The quota of `runGateStatement`: a configuration row wins outright, even with
an explicit `NULL`. -/
def GateSettings.quota (g : GateSettings) : Option ℕ :=
  match g.config with
  | some config => config.quotaBytes
  | none => if g.defaultStorageQuotaMb > 0 then some (g.defaultStorageQuotaMb * 1048576) else none

/-- The limit of `runRateGateStatement`: a `NULL` in the configuration row falls
back to the default. -/
def GateSettings.limitPerWindow (g : GateSettings) : Option ℕ :=
  match g.config.bind QuotaConfig.writeRatePerMinute with
  | some rate => some rate
  | none => if g.defaultWriteRatePerMin > 0 then some g.defaultWriteRatePerMin else none

/-- `x <= limit`, or no limit at all. -/
def withinLimit (x : ℕ) : Option ℕ → Bool
  | none => true
  | some limit => x ≤ limit

/-- `runGateStatement`. Without a proposed row there is no conflict, so a row whose
insert arm is refused is refused even if the update arm would admit it. -/
def runGateStatement (g : GateSettings) (now : ℕ) (row : Option UsageRow) (sizeBytes : ℕ)
    (exempt preauth : Bool) : Option UsageRow :=
  if exempt || preauth || withinLimit sizeBytes g.quota then
    match row with
    | none =>
      some { bytesUsed := if preauth then 0 else sizeBytes,
             preauthBytesUsed := if preauth then sizeBytes else 0,
             entryCount := 1, updatedAt := now }
    | some u =>
      if exempt || preauth || withinLimit (u.bytesUsed + sizeBytes) g.quota then
        some { u with
          bytesUsed := u.bytesUsed + if preauth then 0 else sizeBytes,
          preauthBytesUsed := u.preauthBytesUsed + if preauth then sizeBytes else 0,
          entryCount := u.entryCount + 1, updatedAt := now }
      else none
  else none

/-- `reset_at IS NULL OR reset_at <= now()`. -/
def windowOver (now : ℕ) : Option ℕ → Bool
  | none => true
  | some resetAt => resetAt ≤ now

/-- The count of a window after one more write. -/
def nextWindowCount (now count : ℕ) (resetAt : Option ℕ) : ℕ :=
  if windowOver now resetAt then 1 else count + 1

/-- The end of a window after one more write. -/
def nextWindowReset (now windowMs : ℕ) (resetAt : Option ℕ) : Option ℕ :=
  if windowOver now resetAt then some (now + windowMs) else resetAt

/-- `runRateGateStatement`. -/
def runRateGateStatement (g : GateSettings) (now : ℕ) (row : Option UsageRow)
    (exempt preauth : Bool) : Option UsageRow :=
  if exempt || preauth || withinLimit 1 g.limitPerWindow then
    match row with
    | none =>
      some { rateWindowCount := if preauth then 0 else 1,
             rateWindowResetAt := if preauth then none else some (now + g.writeRateWindowMs),
             preauthRateWindowCount := if preauth then 1 else 0,
             preauthRateWindowResetAt :=
               if preauth then some (now + g.writeRateWindowMs) else none,
             updatedAt := now }
    | some u =>
      if exempt || preauth ||
          withinLimit (nextWindowCount now u.rateWindowCount u.rateWindowResetAt)
            g.limitPerWindow then
        some { u with
          rateWindowCount :=
            if preauth then u.rateWindowCount
            else nextWindowCount now u.rateWindowCount u.rateWindowResetAt,
          rateWindowResetAt :=
            if preauth then u.rateWindowResetAt
            else nextWindowReset now g.writeRateWindowMs u.rateWindowResetAt,
          preauthRateWindowCount :=
            if !preauth then u.preauthRateWindowCount
            else nextWindowCount now u.preauthRateWindowCount u.preauthRateWindowResetAt,
          preauthRateWindowResetAt :=
            if !preauth then u.preauthRateWindowResetAt
            else nextWindowReset now g.writeRateWindowMs u.preauthRateWindowResetAt,
          updatedAt := now }
      else none
  else none

/-- The `code` of the `SameTransactionAuditWriteError` a gate throws. -/
inductive GateError where
  | auditRateLimited | auditQuotaExhausted
  deriving DecidableEq

/-- The arguments of `assertOrgMayWriteAuditGates`, for one organization. -/
structure GateCall where
  eventType : String
  sizeBytes : ℕ
  deriving DecidableEq

/-- `assertOrgMayWriteAuditAtRate`. -/
def assertOrgMayWriteAuditAtRate (g : GateSettings) (now : ℕ) (row : Option UsageRow)
    (call : GateCall) : Except GateError (Option UsageRow) :=
  if g.writeRateEnforcementEnabled = false then .ok row
  else match runRateGateStatement g now row (isExempt call.eventType)
      (isPreauth call.eventType) with
    | none => .error .auditRateLimited
    | some u => .ok (some u)

/-- `assertOrgMayWriteAudit`. -/
def assertOrgMayWriteAudit (g : GateSettings) (now : ℕ) (row : Option UsageRow)
    (call : GateCall) : Except GateError (Option UsageRow) :=
  if g.quotaEnforcementEnabled = false then .ok row
  else match runGateStatement g now row call.sizeBytes (isExempt call.eventType)
      (isPreauth call.eventType) with
    | none => .error .auditQuotaExhausted
    | some u => .ok (some u)

/-- `assertOrgMayWriteAuditGates`: the usage row it leaves, or the error it
throws. -/
def assertOrgMayWriteAuditGates (g : GateSettings) (now : ℕ) (row : Option UsageRow)
    (call : GateCall) : Except GateError (Option UsageRow) := do
  let row ← assertOrgMayWriteAuditAtRate g now row call
  assertOrgMayWriteAudit g now row call

/-! ### The enforced columns -/

/-- The columns a refusal can depend on. -/
structure Enforced where
  bytesUsed : ℕ
  rateWindowCount : ℕ
  rateWindowResetAt : Option ℕ

/-- The enforced columns of a row; a row that is not there yet counts as fresh. -/
def enforced : Option UsageRow → Enforced
  | none => ⟨0, 0, none⟩
  | some u => ⟨u.bytesUsed, u.rateWindowCount, u.rateWindowResetAt⟩

/-- The rate gate on the enforced columns. -/
def Enforced.rateGate (g : GateSettings) (now : ℕ) (exempt : Bool) (e : Enforced) :
    Option Enforced :=
  if exempt || withinLimit (nextWindowCount now e.rateWindowCount e.rateWindowResetAt)
      g.limitPerWindow then
    some { e with
      rateWindowCount := nextWindowCount now e.rateWindowCount e.rateWindowResetAt,
      rateWindowResetAt := nextWindowReset now g.writeRateWindowMs e.rateWindowResetAt }
  else none

/-- The storage gate on the enforced columns. -/
def Enforced.storageGate (g : GateSettings) (sizeBytes : ℕ) (exempt : Bool) (e : Enforced) :
    Option Enforced :=
  if exempt || withinLimit (e.bytesUsed + sizeBytes) g.quota then
    some { e with bytesUsed := e.bytesUsed + sizeBytes }
  else none

lemma withinLimit_mono {x y : ℕ} {limit : Option ℕ} (hxy : x ≤ y)
    (hy : withinLimit y limit = true) : withinLimit x limit = true := by
  cases limit with
  | none => rfl
  | some l =>
    simp only [withinLimit, decide_eq_true_eq] at hy ⊢
    omega

lemma one_le_nextWindowCount (now count : ℕ) (resetAt : Option ℕ) :
    1 ≤ nextWindowCount now count resetAt := by
  unfold nextWindowCount
  split_ifs <;> omega

/-- A pre-auth call passes the rate gate and leaves the enforced columns alone. -/
lemma runRateGateStatement_preauth (g : GateSettings) (now : ℕ) (row : Option UsageRow)
    (exempt : Bool) :
    (runRateGateStatement g now row exempt true).map (fun u => enforced (some u)) =
      some (enforced row) := by
  cases row with
  | none => simp [runRateGateStatement, enforced]
  | some u => simp [runRateGateStatement, enforced]

/-- Any other call acts on the enforced columns only. -/
lemma runRateGateStatement_enforced (g : GateSettings) (now : ℕ) (row : Option UsageRow)
    (exempt : Bool) :
    (runRateGateStatement g now row exempt false).map (fun u => enforced (some u)) =
      (enforced row).rateGate g now exempt := by
  cases row with
  | none =>
    cases exempt <;>
      simp [runRateGateStatement, Enforced.rateGate, enforced, nextWindowCount, nextWindowReset,
        windowOver, apply_ite]
  | some u =>
    cases exempt with
    | true => simp [runRateGateStatement, Enforced.rateGate, enforced]
    | false =>
      -- the guard of the insert arm is implied by the guard of the update arm
      have hone := one_le_nextWindowCount now u.rateWindowCount u.rateWindowResetAt
      by_cases hw : withinLimit
          (nextWindowCount now u.rateWindowCount u.rateWindowResetAt) g.limitPerWindow = true
      · simp [runRateGateStatement, Enforced.rateGate, enforced, hw,
          withinLimit_mono hone hw]
      · simp [runRateGateStatement, Enforced.rateGate, enforced, hw]

/-- A pre-auth call passes the storage gate and leaves the enforced columns alone. -/
lemma runGateStatement_preauth (g : GateSettings) (now : ℕ) (row : Option UsageRow)
    (sizeBytes : ℕ) (exempt : Bool) :
    (runGateStatement g now row sizeBytes exempt true).map (fun u => enforced (some u)) =
      some (enforced row) := by
  cases row with
  | none => simp [runGateStatement, enforced]
  | some u => simp [runGateStatement, enforced]

lemma runGateStatement_enforced (g : GateSettings) (now : ℕ) (row : Option UsageRow)
    (sizeBytes : ℕ) (exempt : Bool) :
    (runGateStatement g now row sizeBytes exempt false).map (fun u => enforced (some u)) =
      (enforced row).storageGate g sizeBytes exempt := by
  cases row with
  | none =>
    cases exempt <;> simp [runGateStatement, Enforced.storageGate, enforced, apply_ite]
  | some u =>
    cases exempt with
    | true => simp [runGateStatement, Enforced.storageGate, enforced]
    | false =>
      by_cases hw : withinLimit (u.bytesUsed + sizeBytes) g.quota = true
      · have hsize := withinLimit_mono (Nat.le_add_left sizeBytes u.bytesUsed) hw
        simp [runGateStatement, Enforced.storageGate, enforced, hw, hsize]
      · simp [runGateStatement, Enforced.storageGate, enforced, hw]

/-- `assertOrgMayWriteAuditAtRate` on the enforced columns. -/
def Enforced.mayWriteAtRate (g : GateSettings) (now : ℕ) (call : GateCall) (e : Enforced) :
    Except GateError Enforced :=
  if isPreauth call.eventType then .ok e
  else if g.writeRateEnforcementEnabled = false then .ok e
  else match e.rateGate g now (isExempt call.eventType) with
    | none => .error .auditRateLimited
    | some e' => .ok e'

/-- `assertOrgMayWriteAudit` on the enforced columns. -/
def Enforced.mayWrite (g : GateSettings) (call : GateCall) (e : Enforced) :
    Except GateError Enforced :=
  if isPreauth call.eventType then .ok e
  else if g.quotaEnforcementEnabled = false then .ok e
  else match e.storageGate g call.sizeBytes (isExempt call.eventType) with
    | none => .error .auditQuotaExhausted
    | some e' => .ok e'

/-- Both gates on the enforced columns. -/
def Enforced.gates (g : GateSettings) (now : ℕ) (call : GateCall) (e : Enforced) :
    Except GateError Enforced := do
  let e' ← e.mayWriteAtRate g now call
  e'.mayWrite g call

lemma enforced_assertOrgMayWriteAuditAtRate (g : GateSettings) (now : ℕ)
    (row : Option UsageRow) (call : GateCall) :
    (assertOrgMayWriteAuditAtRate g now row call).map enforced =
      (enforced row).mayWriteAtRate g now call := by
  unfold assertOrgMayWriteAuditAtRate Enforced.mayWriteAtRate
  by_cases hoff : g.writeRateEnforcementEnabled = false
  · simp [hoff, Except.map]
  · cases hpre : isPreauth call.eventType with
    | true =>
      have h := runRateGateStatement_preauth g now row (isExempt call.eventType)
      cases hrun : runRateGateStatement g now row (isExempt call.eventType) true with
      | none => simp [hrun] at h
      | some u =>
        rw [hrun] at h
        simpa [hoff, Except.map] using h
    | false =>
      rw [← runRateGateStatement_enforced]
      cases runRateGateStatement g now row (isExempt call.eventType) false <;>
        simp [hoff, Except.map]

lemma enforced_assertOrgMayWriteAudit (g : GateSettings) (now : ℕ)
    (row : Option UsageRow) (call : GateCall) :
    (assertOrgMayWriteAudit g now row call).map enforced = (enforced row).mayWrite g call := by
  unfold assertOrgMayWriteAudit Enforced.mayWrite
  by_cases hoff : g.quotaEnforcementEnabled = false
  · simp [hoff, Except.map]
  · cases hpre : isPreauth call.eventType with
    | true =>
      have h := runGateStatement_preauth g now row call.sizeBytes (isExempt call.eventType)
      cases hrun : runGateStatement g now row call.sizeBytes (isExempt call.eventType) true with
      | none => simp [hrun] at h
      | some u =>
        rw [hrun] at h
        simpa [hoff, Except.map] using h
    | false =>
      rw [← runGateStatement_enforced]
      cases runGateStatement g now row call.sizeBytes (isExempt call.eventType) false <;>
        simp [hoff, Except.map]

/-- The decision of the gates and the enforced columns they leave are functions of
the enforced columns they find. -/
lemma enforced_assertOrgMayWriteAuditGates (g : GateSettings) (now : ℕ)
    (row : Option UsageRow) (call : GateCall) :
    (assertOrgMayWriteAuditGates g now row call).map enforced =
      (enforced row).gates g now call := by
  unfold assertOrgMayWriteAuditGates Enforced.gates
  rw [← enforced_assertOrgMayWriteAuditAtRate]
  cases assertOrgMayWriteAuditAtRate g now row call with
  | error e => rfl
  | ok row' => exact enforced_assertOrgMayWriteAudit g now row' call

/-- A pre-auth call is admitted and changes no enforced column. -/
lemma Enforced.gates_preauth (g : GateSettings) (now : ℕ) {call : GateCall} (e : Enforced)
    (hcall : isPreauth call.eventType = true) : e.gates g now call = .ok e := by
  simp [Enforced.gates, Enforced.mayWriteAtRate, Enforced.mayWrite, hcall, bind, Except.bind]

/-! ### Runs of calls -/

/-- A transaction with the calls it makes: `now()` is its start time throughout,
and it may roll back for reasons of its own. -/
structure GateTx where
  now : ℕ
  calls : List GateCall
  commits : Bool
  deriving DecidableEq

/-- The calls of a transaction up to the first refusal, which throws; the row they
leave, or `none` after a throw. -/
def runCalls (g : GateSettings) (now : ℕ) :
    Option UsageRow → List GateCall → List (GateCall × Option GateError) × Option (Option UsageRow)
  | row, [] => ([], some row)
  | row, call :: calls =>
    match assertOrgMayWriteAuditGates g now row call with
    | .error e => ([(call, some e)], none)
    | .ok row' =>
      let (decisions, final) := runCalls g now row' calls
      ((call, none) :: decisions, final)

/-- The decisions of a transaction and the committed row it leaves. -/
def runTx (g : GateSettings) (row : Option UsageRow) (tx : GateTx) :
    List (GateCall × Option GateError) × Option UsageRow :=
  let (decisions, final) := runCalls g tx.now row tx.calls
  (decisions, if tx.commits then final.getD row else row)

/-- The decisions of a run of transactions. -/
def runGates (g : GateSettings) : Option UsageRow → List GateTx →
    List (GateCall × Option GateError)
  | _, [] => []
  | row, tx :: txs =>
    let (decisions, row') := runTx g row tx
    decisions ++ runGates g row' txs

/-! ### Noninterference -/

/-- `runCalls` on the enforced columns. -/
def Enforced.runCalls (g : GateSettings) (now : ℕ) :
    Enforced → List GateCall → List (GateCall × Option GateError) × Option Enforced
  | e, [] => ([], some e)
  | e, call :: calls =>
    match e.gates g now call with
    | .error err => ([(call, some err)], none)
    | .ok e' =>
      let (decisions, final) := Enforced.runCalls g now e' calls
      ((call, none) :: decisions, final)

/-- `runTx` on the enforced columns. -/
def Enforced.runTx (g : GateSettings) (e : Enforced) (tx : GateTx) :
    List (GateCall × Option GateError) × Enforced :=
  let (decisions, final) := e.runCalls g tx.now tx.calls
  (decisions, if tx.commits then final.getD e else e)

/-- `runGates` on the enforced columns. -/
def Enforced.runGates (g : GateSettings) : Enforced → List GateTx →
    List (GateCall × Option GateError)
  | _, [] => []
  | e, tx :: txs =>
    let (decisions, e') := e.runTx g tx
    decisions ++ Enforced.runGates g e' txs

/-- The calls with a type outside the pre-auth list. -/
def GateCall.kept (call : GateCall) : Bool := !isPreauth call.eventType

/-- A transaction without its pre-auth calls. -/
def eraseTx (tx : GateTx) : GateTx := { tx with calls := tx.calls.filter GateCall.kept }

/-- A run without its pre-auth calls; a transaction that made no other call is
gone. -/
def eraseRun (run : List GateTx) : List GateTx :=
  (run.map eraseTx).filter fun tx => !tx.calls.isEmpty

/-- The decisions about the calls that are not pre-auth. -/
def keptDecisions (decisions : List (GateCall × Option GateError)) :
    List (GateCall × Option GateError) :=
  decisions.filter fun d => d.1.kept

lemma enforced_runCalls (g : GateSettings) (now : ℕ) (row : Option UsageRow)
    (calls : List GateCall) :
    (enforced row).runCalls g now calls =
      ((runCalls g now row calls).1, (runCalls g now row calls).2.map enforced) := by
  induction calls generalizing row with
  | nil => rfl
  | cons call calls ih =>
    have hgate := enforced_assertOrgMayWriteAuditGates g now row call
    simp only [Enforced.runCalls, runCalls, ← hgate]
    cases assertOrgMayWriteAuditGates g now row call with
    | error e => rfl
    | ok row' =>
      simp only [Except.map]
      rw [ih row']

lemma enforced_runTx (g : GateSettings) (row : Option UsageRow) (tx : GateTx) :
    (enforced row).runTx g tx = ((runTx g row tx).1, enforced (runTx g row tx).2) := by
  simp only [Enforced.runTx, runTx, enforced_runCalls]
  cases tx.commits with
  | false => simp
  | true => cases (runCalls g tx.now row tx.calls).2 <;> simp

/-- The decisions of a run depend on the enforced columns of the first row only. -/
lemma enforced_runGates (g : GateSettings) (row : Option UsageRow) (run : List GateTx) :
    (enforced row).runGates g run = runGates g row run := by
  induction run generalizing row with
  | nil => rfl
  | cons tx txs ih => simp only [Enforced.runGates, runGates, enforced_runTx, ih]

/-- On the enforced columns, leaving out the pre-auth calls of a transaction changes
neither the other decisions nor what is left. -/
lemma Enforced.runCalls_filter_kept (g : GateSettings) (now : ℕ) (e : Enforced)
    (calls : List GateCall) :
    e.runCalls g now (calls.filter GateCall.kept) =
      (keptDecisions (e.runCalls g now calls).1, (e.runCalls g now calls).2) := by
  induction calls generalizing e with
  | nil => rfl
  | cons call calls ih =>
    cases hpre : isPreauth call.eventType with
    | true =>
      have hkept : call.kept = false := by simp [GateCall.kept, hpre]
      rw [List.filter_cons_of_neg (by simp [hkept]), ih]
      simp [Enforced.runCalls, e.gates_preauth g now hpre, keptDecisions, hkept]
    | false =>
      have hkept : call.kept = true := by simp [GateCall.kept, hpre]
      rw [List.filter_cons_of_pos hkept]
      simp only [Enforced.runCalls]
      cases e.gates g now call with
      | error err => simp [keptDecisions, hkept]
      | ok e' => simp [ih, keptDecisions, hkept]

lemma Enforced.runTx_eraseTx (g : GateSettings) (e : Enforced) (tx : GateTx) :
    e.runTx g (eraseTx tx) = (keptDecisions (e.runTx g tx).1, (e.runTx g tx).2) := by
  simp only [Enforced.runTx, eraseTx, Enforced.runCalls_filter_kept]

/-- A transaction without calls decides nothing and leaves the columns alone. -/
lemma Enforced.runTx_of_isEmpty (g : GateSettings) (e : Enforced) {tx : GateTx}
    (htx : tx.calls.isEmpty = true) : e.runTx g tx = ([], e) := by
  have hnil : tx.calls = [] := List.isEmpty_iff.1 htx
  simp [Enforced.runTx, hnil, Enforced.runCalls]

lemma Enforced.runGates_eraseRun (g : GateSettings) (e : Enforced) (run : List GateTx) :
    e.runGates g (eraseRun run) = keptDecisions (e.runGates g run) := by
  induction run generalizing e with
  | nil => rfl
  | cons tx txs ih =>
    have htx := e.runTx_eraseTx g tx
    have hsplit : keptDecisions (e.runGates g (tx :: txs)) =
        (e.runTx g (eraseTx tx)).1 ++ keptDecisions ((e.runTx g (eraseTx tx)).2.runGates g txs) := by
      simp [Enforced.runGates, keptDecisions, htx]
    have herase : eraseRun (tx :: txs) =
        if (eraseTx tx).calls.isEmpty then eraseRun txs else eraseTx tx :: eraseRun txs := by
      cases hempty : (eraseTx tx).calls.isEmpty <;> simp [eraseRun, hempty]
    rw [hsplit, herase, ← ih]
    by_cases hempty : (eraseTx tx).calls.isEmpty = true
    · rw [if_pos hempty, Enforced.runTx_of_isEmpty g e hempty]
      rfl
    · rw [if_neg hempty]
      rfl

/-- Pre-auth noninterference: two runs of one organization that are equal once every
call an unauthenticated caller can cause is deleted give every other call the same
decision, whatever the limits and whatever row (or no row) they start from. -/
theorem preauth_noninterference (g : GateSettings) (row : Option UsageRow)
    (run₁ run₂ : List GateTx) (heq : eraseRun run₁ = eraseRun run₂) :
    keptDecisions (runGates g row run₁) = keptDecisions (runGates g row run₂) := by
  calc keptDecisions (runGates g row run₁)
      = (enforced row).runGates g (eraseRun run₁) := by
        rw [Enforced.runGates_eraseRun, enforced_runGates]
    _ = (enforced row).runGates g (eraseRun run₂) := by rw [heq]
    _ = keptDecisions (runGates g row run₂) := by
        rw [Enforced.runGates_eraseRun, enforced_runGates]

/-- A quota of 300 bytes and a limit of one write per window, against 1000 bytes of
failed logins in the first run and none in the second. -/
theorem preauth_noninterference_failedLogins :
    keptDecisions (runGates
        { quotaEnforcementEnabled := true, defaultStorageQuotaMb := 0,
          writeRateEnforcementEnabled := true, defaultWriteRatePerMin := 1,
          writeRateWindowMs := 60, config := some ⟨some 300, none⟩ } none
        [⟨0, [⟨"LOGIN_FAILED", 500⟩, ⟨"LOGIN_FAILED", 500⟩], true⟩,
         ⟨1, [⟨"LOGIN_FAILED", 9⟩, ⟨"credential.created", 260⟩], true⟩,
         ⟨70, [⟨"credential.created", 50⟩], true⟩]) =
      keptDecisions (runGates
        { quotaEnforcementEnabled := true, defaultStorageQuotaMb := 0,
          writeRateEnforcementEnabled := true, defaultWriteRatePerMin := 1,
          writeRateWindowMs := 60, config := some ⟨some 300, none⟩ } none
        [⟨1, [⟨"credential.created", 260⟩], true⟩,
         ⟨70, [⟨"credential.created", 50⟩], true⟩]) :=
  preauth_noninterference _ _ _ _ (by decide)

end ProjectVault.Audit
