import ProjectVault.Db.Logic
import ProjectVault.Platform.Entry

/-!
Writing to the platform audit log, with its maintenance mode
(`platform-audit/write-entry.ts`, `platform-audit/maintenance-mode.ts`, and
`writePlatformAuditEntryOrFailClosed` of `lib/audit-or-fail-closed.ts`).

The two sequences of the tables are one counter here. What a savepoint does takes effect
at its release: a body that fails leaves no trace, so its failure is decided first.
-/

namespace ProjectVault.Platform

open Js Db Audit

/-! ### State -/

/-- `intended_fields`, `sequence_num` and `attempted_at` of a row of
`platform_audit_pending_entries`. -/
structure PendingEntry where
  fields : PlatformAuditFields
  sequenceNum : ℕ
  attemptedAt : ℕ

/-- The tables. -/
structure PlatformDb where
  events : List PlatformAuditEvent
  pending : List PendingEntry
  active : Bool

/-- The locks: the row of the maintenance state, the advisory lock of the chain, and the
rows of the other tables by the number drawn for them. -/
inductive PlatformLock where
  | state
  | chain
  | row (number : ℕ)
  deriving DecidableEq

/-- What tells a stored entry apart, wherever it is stored: the number drawn for it, who
has done what, and to whom. -/
structure Receipt where
  number : ℕ
  operatorId : String
  actionType : String
  targetOrgId : Option String
  targetUserId : Option String
  deriving DecidableEq

/-- The receipt of a call. -/
def PlatformAuditFields.receipt (fields : PlatformAuditFields) (number : ℕ) : Receipt where
  number := number
  operatorId := fields.operatorId.stored
  actionType := fields.actionType
  targetOrgId := fields.targetOrgId.map UuidText.stored
  targetUserId := fields.targetUserId.map UuidText.stored

/-- What a transaction tells at its end: the entries it reports as written, the pending
entries it has warned about (by their numbers), the entries after whose write the
opportunistic drain failed, and whether

* the drain has switched the flag and thrown, and the error was swallowed;
* a statement outside all savepoints has failed, after which nothing can be committed;
* the transaction deactivates by force;
* the caller asks for the commit. -/
structure PlatformAnswer where
  reported : List Receipt
  warned : List ℕ
  disturbed : List ℕ
  swallowed : Bool
  aborted : Bool
  forced : Bool
  wanted : Bool

/-- Code of a transaction on the platform audit log. -/
abbrev PlatformProg (α : Type) := Prog PlatformDb PlatformLock PlatformAnswer α

/-- `MAINTENANCE_MODE_DEACTIVATED`. -/
def maintenanceModeDeactivated : String := "maintenance_mode.deactivated"

/-! ### Entries -/

/-- How a write ends: with the row of the given number, with an error of the program, or
with the failure of one of its statements. -/
inductive WriteOutcome where
  | written (chainSeq : ℕ)
  | threw
  | failed

/-- `getPreviousEntryHmac` for the platform chain. -/
def getPreviousPlatformHmac : PlatformProg (Option String) := do
  Prog.lock .chain
  Prog.query fun c =>
    (sortDesc PlatformAuditEvent.chainSeq c.view.events).head?.map (·.hmac)

/-- The insert of an event, with what its savepoint does besides. -/
def insertEvent (event : Ctx PlatformDb → PlatformAuditEvent) (also : PlatformDb → PlatformDb) :
    PlatformProg ℕ :=
  Prog.update (fun c => [.row c.seq])
    (fun c db => also { db with events := db.events ++ [event c] }) fun c => c.seq

/-- `writePlatformAuditEntry`; `createdAt` and `drainedFrom` are given by a drain. The
program throws for a forbidden key and while the vault is sealed. A write that throws has
taken the lock of the chain in the source; its savepoint gives it back, and outside of a
savepoint leaving it out allows more runs. -/
def writePlatformAuditEntry (env : PlatformEnv) (fields : PlatformAuditFields)
    (createdAt drainedFrom : Option ℕ) (also : PlatformDb → PlatformDb) :
    PlatformProg WriteOutcome := do
  if ← Prog.either then return .failed
  if ← Prog.either then return .threw
  let keyVersion ← Prog.query fun _ => env.keyVersion
  match redactPlatformAuditPayload env fields.payload with
  | none => return .threw
  | some payload => do
      let previousHmac ← getPreviousPlatformHmac
      let chainSeq ← insertEvent
        (fun c => { fields.row env payload previousHmac (createdAt.getD c.start) c.seq drainedFrom with
          keyVersion := keyVersion }) also
      return .written chainSeq

/-! ### Drains -/

/-- `DrainResult`. -/
structure DrainResult where
  drained : ℕ
  remaining : ℕ
  skipped : Bool
  wasActive : Bool

/-- How a drain ends, with the entries it has warned about and the deactivation event it
has written. -/
inductive DrainOutcome where
  | done (result : DrainResult) (warned : List ℕ) (recorded : Option Receipt)
  | threw (warned : List ℕ)
  | failed (warned : List ℕ)

/-- Removes a pending entry. -/
def PlatformDb.delete (db : PlatformDb) (sequenceNum : ℕ) : PlatformDb :=
  { db with pending := db.pending.filter fun p => p.sequenceNum ≠ sequenceNum }

/-- The fields a drain writes for an entry. -/
def PendingEntry.retroactive (entry : PendingEntry) : PlatformAuditFields :=
  { entry.fields with payload := setMember entry.fields.payload "recordedRetroactively" (.bool true) }

/-- The savepoint of one entry: its write and its delete. -/
def drainEntry (env : PlatformEnv) (entry : PendingEntry) : PlatformProg WriteOutcome :=
  writePlatformAuditEntry env entry.retroactive (some entry.attemptedAt) (some entry.sequenceNum)
    fun db => db.delete entry.sequenceNum

/-- The loop of a drain: how many entries were drained, and which were not. -/
def drainEntries (env : PlatformEnv) : List PendingEntry → PlatformProg (ℕ × List ℕ)
  | [] => pure (0, [])
  | entry :: entries => do
      match ← drainEntry env entry with
      | .written _ => do
          let (drained, warned) ← drainEntries env entries
          return (drained + 1, warned)
      | _ => do
          let (drained, warned) ← drainEntries env entries
          return (drained, entry.sequenceNum :: warned)

/-- The event of a deactivation. -/
def deactivatedFields (operatorId : UuidText) : PlatformAuditFields where
  operatorId := operatorId
  actionType := maintenanceModeDeactivated
  targetOrgId := none
  targetUserId := none
  payload := []

/-- Sets the flag. -/
def setActive (active : Bool) : PlatformProg Unit :=
  Prog.update (fun _ => [.state]) (fun _ db => { db with active := active }) fun _ => ()

/-- The end of a drain that left nothing: the flag first, then the event. -/
def recordDeactivation (env : PlatformEnv) (operatorId : UuidText) : PlatformProg WriteOutcome := do
  setActive false
  writePlatformAuditEntry env (deactivatedFields operatorId) none none id

/-- `drainPendingEntries` once it has the row of the maintenance state. -/
def drainLocked (env : PlatformEnv) (operatorId : UuidText) (active : Bool) :
    PlatformProg DrainOutcome := do
  if ¬ active then return .done ⟨0, 0, false, false⟩ [] none
  let pending ← Prog.query fun c => sortAsc PendingEntry.sequenceNum c.view.pending
  let (drained, warned) ← drainEntries env pending
  let remaining := pending.length - drained
  if drained > 0 ∧ remaining = 0 then
    match ← recordDeactivation env operatorId with
    | .written chainSeq =>
      let recorded := (deactivatedFields operatorId).receipt chainSeq
      return .done ⟨drained, remaining, false, true⟩ warned (some recorded)
    | .threw => return .threw warned
    | .failed => return .failed warned
  else return .done ⟨drained, remaining, false, true⟩ warned none

/-- `SELECT … FOR UPDATE` of the maintenance state, with or without `SKIP LOCKED`; `none`
when there is no row to be had. -/
def selectState (skipLocked : Bool) : PlatformProg (Option Bool) :=
  Prog.stmt (fun _ => [.state]) (!skipLocked) (fun _ => id) fun taken c =>
    pure (if taken then some c.view.active else none)

/-- `drainPendingEntries`; one of its statements outside the savepoints may fail. -/
def drainPendingEntries (env : PlatformEnv) (triggeringOperatorId : UuidText) (skipLocked : Bool) :
    PlatformProg DrainOutcome := do
  if ← Prog.either then return .failed []
  match ← selectState skipLocked with
  | none => return .done ⟨0, 0, true, false⟩ [] none
  | some active => drainLocked env triggeringOperatorId active

/-! ### Writes with fallbacks -/

/-- `queuePendingEntry`: `intended_fields` is a `jsonb` column. -/
def queuePendingEntry (fields : PlatformAuditFields) (payload : List (String × Json)) :
    PlatformProg ℕ :=
  Prog.update (fun c => [.row c.seq])
    (fun c db => { db with pending := db.pending ++
      [⟨{ fields with payload := storedPayload payload }, c.seq, c.start⟩] }) fun c => c.seq

/-- What a transaction has done so far; `ok` is false after an error. -/
structure Report where
  ok : Bool
  reported : List Receipt
  warned : List ℕ
  disturbed : List ℕ
  swallowed : Bool
  aborted : Bool

/-- Nothing yet. -/
def Report.start : Report := ⟨true, [], [], [], false, false⟩

/-- An error that ends the transaction. -/
def Report.error : Report := { Report.start with ok := false }

/-- The report of a drain. -/
def DrainOutcome.report : DrainOutcome → Report
  | .done _ warned recorded => { Report.start with reported := recorded.toList, warned := warned }
  | .threw warned => { Report.start with warned := warned, swallowed := true }
  | .failed warned => { Report.start with warned := warned, aborted := true }

/-- The report of a written entry and of the opportunistic drain after it, whose errors are
swallowed. -/
def Report.after (drain : Report) (entry : Receipt) : Report :=
  { drain with
    reported := entry :: drain.reported
    disturbed := if drain.swallowed || drain.aborted then [entry.number] else [] }

/-- The fallback of a failed write: whether the error is one of storage is open. -/
def queueOrFail (env : PlatformEnv) (fields : PlatformAuditFields) : PlatformProg Report := do
  if ← Prog.either then
    match ← selectState false with
    | some true =>
      match redactPlatformAuditPayload env fields.payload with
      | none => return .error
      | some payload => do
          let sequenceNum ← queuePendingEntry fields payload
          return { Report.start with reported := [fields.receipt sequenceNum] }
    | _ => return .error
  else return .error

/-- `writePlatformAuditEntryOrFailClosed`. -/
def writePlatformAuditEntryOrFailClosed (env : PlatformEnv) (fields : PlatformAuditFields) :
    PlatformProg Report := do
  match ← writePlatformAuditEntry env fields none none id with
  | .written chainSeq => do
      let drain ← drainPendingEntries env fields.operatorId true
      return drain.report.after (fields.receipt chainSeq)
  | _ => queueOrFail env fields

/-! ### Transactions -/

/-- One report after another. -/
def Report.andThen (a b : Report) : Report where
  ok := b.ok
  reported := a.reported ++ b.reported
  warned := a.warned ++ b.warned
  disturbed := a.disturbed ++ b.disturbed
  swallowed := a.swallowed || b.swallowed
  aborted := a.aborted || b.aborted

/-- The writes of a transaction, up to the first error; a failed statement ends them,
too. -/
def writeAll (env : PlatformEnv) : List PlatformAuditFields → PlatformProg Report
  | [] => pure .start
  | fields :: rest => do
      let report ← writePlatformAuditEntryOrFailClosed env fields
      if report.ok ∧ ¬ report.aborted then
        let others ← writeAll env rest
        return report.andThen others
      else return report

/-- The answer of a transaction that ends with the report. -/
def Report.answer (report : Report) (committed wanted : Bool) : PlatformAnswer where
  reported := if committed then report.reported else []
  warned := report.warned
  disturbed := report.disturbed
  swallowed := report.swallowed
  aborted := report.aborted
  forced := false
  wanted := wanted

/-- The end of a transaction: an error rolls it back, and so does the server when a
statement has failed, whatever the caller wants. -/
def endTransaction (report : Report) : PlatformProg Unit := do
  let wanted ← Prog.either
  if wanted ∧ report.ok then
    if report.aborted then Prog.rollbackTx (report.answer false true)
    else Prog.commitTx (report.answer true true)
  else Prog.rollbackTx (report.answer false false)

/-- The transaction of a request that writes platform audit entries. -/
def writeTransaction (env : PlatformEnv) (entries : List PlatformAuditFields) :
    PlatformProg Unit := do
  Prog.beginTx
  let report ← writeAll env entries
  endTransaction report

/-- The activation of the maintenance route: `activateMaintenanceMode`, then the audit
entry. -/
def activateTransaction (env : PlatformEnv) (entry : PlatformAuditFields) : PlatformProg Unit := do
  Prog.beginTx
  match ← selectState false with
  | some false => do
      setActive true
      let report ← writeAll env [entry]
      endTransaction report
  | _ => endTransaction .error

/-- The third transaction of `deactivateMaintenanceMode`:
`forceDeactivateWithFreshWrite`. -/
def forceDeactivate (env : PlatformEnv) (operatorId : UuidText) : PlatformProg Unit := do
  Prog.beginTx
  match ← recordDeactivation env operatorId with
  | .written chainSeq =>
    Prog.commitTx { Report.start.answer true true with
      reported := [(deactivatedFields operatorId).receipt chainSeq], forced := true }
  | _ => Prog.rollbackTx { Report.start.answer false false with forced := true }

/-- The second transaction of `deactivateMaintenanceMode`: the drain. It commits whatever
was drained. -/
def drainTransaction (env : PlatformEnv) (operatorId : UuidText) :
    PlatformProg (Option DrainResult) := do
  Prog.beginTx
  let drain ← drainPendingEntries env operatorId false
  match drain with
  | .done result _ _ => do
      Prog.commitTx (drain.report.answer true true)
      return some result
  | _ => do
      Prog.rollbackTx (drain.report.answer false false)
      return none

/-- `deactivateMaintenanceMode`: up to three transactions. -/
def deactivateMaintenanceMode (env : PlatformEnv) (operatorId : UuidText) : PlatformProg Unit := do
  Prog.beginTx
  let active ← Prog.query fun c => c.view.active
  Prog.commitTx (Report.start.answer true true)
  if active then
    match ← drainTransaction env operatorId with
    | some result =>
      if result.wasActive ∧ result.drained = 0 ∧ result.remaining = 0 then
        forceDeactivate env operatorId
      else pure ()
    | none => pure ()
  else pure ()

/-- The transactions on the platform audit log. -/
inductive PlatformJob where
  | write (entries : List PlatformAuditFields)
  | activate (entry : PlatformAuditFields)
  | deactivate (operatorId : UuidText)

/-- The code of a job. -/
def platformJob (env : PlatformEnv) : PlatformJob → PlatformProg Unit
  | .write entries => writeTransaction env entries
  | .activate entry => activateTransaction env entry
  | .deactivate operatorId => deactivateMaintenanceMode env operatorId

end ProjectVault.Platform
