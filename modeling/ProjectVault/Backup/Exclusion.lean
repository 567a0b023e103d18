import ProjectVault.Run.System

/-!
Backups and restores of one instance (`backup/service.ts`, `workers/backup-snapshot.ts`), statement
by statement.

A call is known by a number of its own. The processes of the instance come and go.
-/

namespace ProjectVault.Backup

/-! ### State -/

/-- `backup_runs.status`. -/
inductive RunStatus where
  | running | succeeded | failed
  deriving DecidableEq

/-- What a row is set to. -/
inductive FinalStatus where
  | succeeded | failed

def FinalStatus.toRun : FinalStatus → RunStatus
  | succeeded => .succeeded
  | failed => .failed

/-- A row of `backup_runs`, with the number of times it has left `running`. -/
structure BackupRun where
  id : ℕ
  status : RunStatus
  exits : ℕ

/-- `update(backupRuns).set({ status })`, whatever the status was. -/
def BackupRun.setStatus (row : BackupRun) (status : FinalStatus) : BackupRun :=
  { row with
    status := status.toRun
    exits := if row.status = .running then row.exits + 1 else row.exits }

inductive BackupTrigger where
  | schedule | manual
  deriving DecidableEq

/-- Where a call is. -/
inductive Task where
  /-- `acquireBackupSlot`, with the transaction lock -/
  | slotLocked (trigger : BackupTrigger)
  /-- `acquireBackupSlot`, behind a check that saw no running row -/
  | slotFree (trigger : BackupTrigger)
  /-- the trigger route, with its slot, before its audit write -/
  | triggered (runId : ℕ)
  /-- `executeBackupSnapshot`, between its dump and its final status write -/
  | snapshot (runId : ℕ)
  /-- `acquireRestoreLock`, with its reserved connection -/
  | reserved
  /-- `acquireRestoreLock`, with the session lock -/
  | locked
  /-- `unlockAndRelease`; `retried` if the caller catches a failure and calls it again -/
  | unlocking (retried : Bool)
  /-- a restore, with the restore lock -/
  | restoring
  deriving DecidableEq

/-- Tasks that hold the advisory lock. -/
def Task.HoldsLock : Task → Prop
  | .slotLocked _ => True
  | .slotFree _ => True
  | .locked => True
  | .unlocking _ => True
  | .restoring => True
  | _ => False

/-- Tasks behind a check that saw no running row, with the lock still held. -/
def Task.SawIdle : Task → Prop
  | .slotFree _ => True
  | .restoring => True
  | _ => False

structure Call where
  process : ℕ
  task : Task
  deriving DecidableEq

/-- Who holds the advisory lock: the session of a call, or a connection a process has put back into
its pool. -/
inductive Holder where
  | call (i : ℕ)
  | pooled (process : ℕ)
  deriving DecidableEq

/-- A manual job in the queue. -/
inductive JobState where
  | queued | active | done
  deriving DecidableEq

structure State where
  rows : List BackupRun
  nextRun : ℕ
  calls : ℕ → Option Call
  lock : Option Holder
  /-- the reserved connections -/
  reserved : ℕ → Bool
  /-- the jobs of manual triggers, by run -/
  jobs : ℕ → Option JobState

/-- What can happen. A statement that can fail says whether it does; a failure that costs the
connection frees the lock like a success. -/
inductive Label where
  /-- a call of `acquireBackupSlot`: its transaction lock -/
  | trySlotLock (i process : ℕ) (trigger : BackupTrigger)
  | checkRunning (i : ℕ)
  | commitSlot (i : ℕ)
  /-- `releaseBackupSlotOnAuditFailure` -/
  | auditFailed (i : ℕ)
  | enqueue (i : ℕ)
  /-- the call fails or is lost before it commits or enqueues -/
  | abandon (i : ℕ)
  /-- the queue hands a manual job to a worker -/
  | deliver (i process runId : ℕ)
  /-- the queue takes the delivery of a job for dead -/
  | expire (runId : ℕ)
  /-- the final status write, or its failure -/
  | finish (i : ℕ) (status : Option FinalStatus)
  | reserve (i process : ℕ)
  | tryRestoreLock (i : ℕ) (fails : Bool)
  | checkBackupRunning (i : ℕ) (fails : Bool)
  | unlockAndRelease (i : ℕ) (fails : Bool)
  | restoreDone (i : ℕ)
  | crash (process : ℕ)
  /-- `reconcileStaleRunningBackups` in a process that starts -/
  | restart

namespace State

def setCall (s : State) (i : ℕ) (c : Option Call) : State :=
  { s with calls := Function.update s.calls i c }

/-- The call is over and its connection is back in the pool. -/
def endCall (s : State) (i : ℕ) : State :=
  { s with
    calls := Function.update s.calls i none
    reserved := Function.update s.reserved i false }

/-- The rows with the status of one set. -/
def setStatus (s : State) (runId : ℕ) (status : FinalStatus) : State :=
  { s with rows := s.rows.map fun row => if row.id = runId then row.setStatus status else row }

/-- Whether a query for a running row finds one. -/
def anyRunning (s : State) : Bool := s.rows.any fun row => row.status = .running

/-- Whether a call, a connection or a lock belongs to a process. -/
def ownedBy (s : State) (process i : ℕ) : Bool := (s.calls i).any fun c => c.process = process

def holderOwnedBy (s : State) (process : ℕ) : Holder → Bool
  | .call i => s.ownedBy process i
  | .pooled p => p = process

end State

/-! ### Steps -/

section Steps

variable (s : State)

def trySlotLock (i process : ℕ) (trigger : BackupTrigger) : Option State :=
  match s.calls i with
  | some _ => none
  | none =>
    if s.lock = none then
      some { s.setCall i (some ⟨process, .slotLocked trigger⟩) with lock := some (.call i) }
    else some s

def checkRunning (i : ℕ) : Option State :=
  match s.calls i with
  | some ⟨process, .slotLocked trigger⟩ =>
    if s.anyRunning then some { s.endCall i with lock := none }
    else some (s.setCall i (some ⟨process, .slotFree trigger⟩))
  | _ => none

/-- The row is inserted; a scheduled job goes on to its dump, the route to its audit write. -/
def commitSlot (i : ℕ) : Option State :=
  match s.calls i with
  | some ⟨process, .slotFree trigger⟩ =>
    let task := match trigger with
      | .schedule => Task.snapshot s.nextRun
      | .manual => Task.triggered s.nextRun
    some { s.setCall i (some ⟨process, task⟩) with
      rows := s.rows ++ [⟨s.nextRun, .running, 0⟩]
      nextRun := s.nextRun + 1
      lock := none }
  | _ => none

def auditFailed (i : ℕ) : Option State :=
  match s.calls i with
  | some ⟨_, .triggered runId⟩ => some ((s.setStatus runId .failed).endCall i)
  | _ => none

def enqueue (i : ℕ) : Option State :=
  match s.calls i with
  | some ⟨_, .triggered runId⟩ =>
    some { s.endCall i with jobs := Function.update s.jobs runId (some .queued) }
  | _ => none

def abandon (i : ℕ) : Option State :=
  match s.calls i with
  | some ⟨_, .slotLocked _⟩ => some { s.endCall i with lock := none }
  | some ⟨_, .slotFree _⟩ => some { s.endCall i with lock := none }
  | some ⟨_, .triggered _⟩ => some (s.endCall i)
  | _ => none

def deliver (i process runId : ℕ) : Option State :=
  match s.calls i with
  | some _ => none
  | none =>
    if s.jobs runId = some .queued then
      some { s.setCall i (some ⟨process, .snapshot runId⟩) with
        jobs := Function.update s.jobs runId (some .active) }
    else none

def expire (runId : ℕ) : Option State :=
  if s.jobs runId = some .active then
    some { s with jobs := Function.update s.jobs runId (some .queued) }
  else none

def finish (i : ℕ) (status : Option FinalStatus) : Option State :=
  match s.calls i with
  | some ⟨_, .snapshot runId⟩ =>
    let s' := match status with
      | none => s
      | some status => s.setStatus runId status
    let jobs := if s.jobs runId = some .active then Function.update s.jobs runId (some .done)
      else s.jobs
    some { s'.endCall i with jobs }
  | _ => none

def reserve (i process : ℕ) : Option State :=
  match s.calls i with
  | some _ => none
  | none => some { s.setCall i (some ⟨process, .reserved⟩) with
      reserved := Function.update s.reserved i true }

def tryRestoreLock (i : ℕ) (fails : Bool) : Option State :=
  match s.calls i with
  | some ⟨process, .reserved⟩ =>
    if fails = false ∧ s.lock = none then
      some { s.setCall i (some ⟨process, .locked⟩) with lock := some (.call i) }
    else some (s.endCall i)
  | _ => none

def checkBackupRunning (i : ℕ) (fails : Bool) : Option State :=
  match s.calls i with
  | some ⟨process, .locked⟩ =>
    if fails then some (s.setCall i (some ⟨process, .unlocking false⟩))
    else if s.anyRunning then some (s.setCall i (some ⟨process, .unlocking true⟩))
    else some (s.setCall i (some ⟨process, .restoring⟩))
  | _ => none

/-- The connection goes back to the pool, whatever the unlock statement did. -/
def unlockAndRelease (i : ℕ) (fails : Bool) : Option State :=
  match s.calls i with
  | some ⟨process, .unlocking retried⟩ =>
    if fails = false then some { s.endCall i with lock := none }
    else if retried then
      some ((s.endCall i).setCall i (some ⟨process, .unlocking false⟩))
    else some { s.endCall i with lock := some (.pooled process) }
  | _ => none

def restoreDone (i : ℕ) : Option State :=
  match s.calls i with
  | some ⟨process, .restoring⟩ => some (s.setCall i (some ⟨process, .unlocking false⟩))
  | _ => none

/-- The calls of a process are gone, with their connections and locks. -/
def crash (process : ℕ) : State :=
  { s with
    calls := fun i => if s.ownedBy process i then none else s.calls i
    reserved := fun i => if s.ownedBy process i then false else s.reserved i
    lock := if s.lock.any (s.holderOwnedBy process) then none else s.lock }

/-- `reconcileStaleRunningBackups`. -/
def reconcileStaleRunningBackups : State :=
  { s with
    rows := s.rows.map fun row => if row.status = .running then row.setStatus .failed else row }

def step : Label → Option State
  | .trySlotLock i process trigger => trySlotLock s i process trigger
  | .checkRunning i => checkRunning s i
  | .commitSlot i => commitSlot s i
  | .auditFailed i => auditFailed s i
  | .enqueue i => enqueue s i
  | .abandon i => abandon s i
  | .deliver i process runId => deliver s i process runId
  | .expire runId => expire s runId
  | .finish i status => finish s i status
  | .reserve i process => reserve s i process
  | .tryRestoreLock i fails => tryRestoreLock s i fails
  | .checkBackupRunning i fails => checkBackupRunning s i fails
  | .unlockAndRelease i fails => unlockAndRelease s i fails
  | .restoreDone i => restoreDone s i
  | .crash process => some (crash s process)
  | .restart => some (reconcileStaleRunningBackups s)

end Steps

/-- The backups and restores of an instance, from an empty table on. -/
def backupSystem : Run.System State Label where
  init := ⟨[], 0, fun _ => none, none, fun _ => false, fun _ => none⟩
  step := step

/-! ### What is to hold -/

/-- A snapshot of a run is between its dump and its final status write. -/
def InProgress (s : State) (i runId : ℕ) : Prop :=
  ∃ process, s.calls i = some ⟨process, .snapshot runId⟩

def Restoring (s : State) (i : ℕ) : Prop := ∃ process, s.calls i = some ⟨process, .restoring⟩

/-- At most one snapshot is in progress, none during a restore, each row leaves `running` once, and
neither the lock nor a reserved connection outlives its call. -/
structure Excludes (s : State) : Prop where
  one_snapshot : ∀ i j r r', InProgress s i r → InProgress s j r' → i = j
  no_restore : ∀ i j r, InProgress s i r → ¬Restoring s j
  leaves_once : ∀ row ∈ s.rows, row.exits ≤ 1
  no_lock_left : ∀ holder, s.lock = some holder → ∃ i, holder = .call i ∧ (s.calls i).isSome = true
  no_connection_left : ∀ i, s.reserved i = true → (s.calls i).isSome = true

/-- The steps behind which backups exclude each other: a manual job is delivered while its row is
running and no delivery of it is in progress, a process starts while no snapshot is in progress,
and the last attempt to unlock does not fail. -/
def Sound (s : State) : Label → Prop
  | .deliver _ _ runId =>
    (∃ row ∈ s.rows, row.id = runId ∧ row.status = .running) ∧ ∀ i, ¬InProgress s i runId
  | .restart => ∀ i r, ¬InProgress s i r
  | .unlockAndRelease i fails => fails = true → ∃ process, s.calls i = some ⟨process, .unlocking true⟩
  | _ => True

/-! ### The invariant -/

/-- The lock belongs to the call at a task that needs it; at most one row runs, and every snapshot
in progress is the only one of a running row. -/
structure Inv (s : State) : Prop where
  lock_of_holds : ∀ i c, s.calls i = some c → c.task.HoldsLock → s.lock = some (.call i)
  holds_of_lock : ∀ holder, s.lock = some holder →
    ∃ i c, holder = .call i ∧ s.calls i = some c ∧ c.task.HoldsLock
  call_of_reserved : ∀ i, s.reserved i = true → (s.calls i).isSome = true
  id_lt : ∀ row ∈ s.rows, row.id < s.nextRun
  running_unique : ∀ row ∈ s.rows, ∀ row' ∈ s.rows, row.status = .running →
    row'.status = .running → row.id = row'.id
  exits_le : ∀ row ∈ s.rows, row.exits ≤ 1 ∧ (row.status = .running → row.exits = 0)
  snapshot_running : ∀ i p r, s.calls i = some ⟨p, .snapshot r⟩ →
    ∃ row ∈ s.rows, row.id = r ∧ row.status = .running
  snapshot_unique : ∀ i j p q r, s.calls i = some ⟨p, .snapshot r⟩ →
    s.calls j = some ⟨q, .snapshot r⟩ → i = j
  triggered_alone : ∀ i j p q r, s.calls i = some ⟨p, .triggered r⟩ →
    s.calls j ≠ some ⟨q, .snapshot r⟩ ∧ (s.calls j = some ⟨q, .triggered r⟩ → i = j)
  triggered_unsent : ∀ i p r, s.calls i = some ⟨p, .triggered r⟩ → r < s.nextRun ∧ s.jobs r = none
  job_lt : ∀ r, s.jobs r ≠ none → r < s.nextRun
  idle : ∀ i c, s.calls i = some c → c.task.SawIdle → ∀ row ∈ s.rows, row.status ≠ .running

@[grind →]
lemma Task.SawIdle.holdsLock {t : Task} (h : t.SawIdle) : t.HoldsLock := by
  cases t <;> trivial

attribute [grind] Task.HoldsLock Task.SawIdle
attribute [grind =] Function.update_apply

section Moves

variable {s s' : State} {i process : ℕ} {t t' : Task}

/-- A task that has nothing to do with a run. -/
def Task.Runless : Task → Prop
  | .triggered _ => False
  | .snapshot _ => False
  | _ => True

attribute [grind] Task.Runless

/-- A call goes on to a task that holds the lock if and only if the last did. -/
lemma Inv.setCall (h : Inv s) (hcall : s.calls i = some ⟨process, t⟩)
    (hlock : t'.HoldsLock ↔ t.HoldsLock) (hrunless : t'.Runless)
    (hidle : t'.SawIdle → ∀ row ∈ s.rows, row.status ≠ .running) :
    Inv (s.setCall i (some ⟨process, t'⟩)) := by
  cases h
  constructor
  all_goals simp only [State.setCall]
  all_goals grind

lemma Inv.endCall (h : Inv s) (hcall : s.calls i = some ⟨process, t⟩) (hlock : ¬t.HoldsLock) :
    Inv (s.endCall i) := by
  cases h
  constructor
  all_goals simp only [State.endCall]
  all_goals grind

lemma Inv.endCall_unlock (h : Inv s) (hcall : s.calls i = some ⟨process, t⟩)
    (hlock : t.HoldsLock) : Inv { s.endCall i with lock := none } := by
  cases h
  constructor
  all_goals simp only [State.endCall]
  all_goals grind

/-- A call takes the free lock. -/
lemma Inv.takeLock (h : Inv s) (hfree : s.lock = none) (hlock : t.HoldsLock)
    (hidle : ¬t.SawIdle) :
    Inv { s.setCall i (some ⟨process, t⟩) with lock := some (.call i) } := by
  cases h
  constructor
  all_goals simp only [State.setCall]
  all_goals grind

/-- A failed unlock is tried again, the connection already in the pool. -/
lemma Inv.retryUnlock {retried : Bool} (h : Inv s)
    (hcall : s.calls i = some ⟨process, .unlocking retried⟩) :
    Inv ((s.endCall i).setCall i (some ⟨process, .unlocking false⟩)) := by
  cases h
  constructor
  all_goals simp only [State.endCall, State.setCall]
  all_goals grind

/-- A restore reserves its connection. -/
lemma Inv.reserve (h : Inv s) (hcall : s.calls i = none) :
    Inv { s.setCall i (some ⟨process, .reserved⟩) with
      reserved := Function.update s.reserved i true } := by
  cases h
  constructor
  all_goals simp only [State.setCall]
  all_goals grind

lemma Inv.commitSlot {trigger : BackupTrigger} (h : Inv s)
    (hcall : s.calls i = some ⟨process, .slotFree trigger⟩)
    (ht : t = .snapshot s.nextRun ∨ t = .triggered s.nextRun) :
    Inv { s.setCall i (some ⟨process, t⟩) with
      rows := s.rows ++ [⟨s.nextRun, .running, 0⟩]
      nextRun := s.nextRun + 1
      lock := none } := by
  obtain ⟨h₁, h₂, h₃, h₄, h₅, h₆, h₇, h₈, h₉, h₁₀, h₁₁, h₁₂⟩ := h
  have hidle : ∀ row ∈ s.rows, row.status ≠ .running := h₁₂ i _ hcall trivial
  have hnew : (⟨s.nextRun, .running, 0⟩ : BackupRun) ∈ s.rows ++ [⟨s.nextRun, .running, 0⟩] :=
    List.mem_append_right _ List.mem_cons_self
  constructor
  all_goals simp only [State.setCall]
  all_goals grind

lemma toRun_ne_running (status : FinalStatus) : status.toRun ≠ .running := by
  cases status <;> decide

lemma Inv.setStatus_endCall (h : Inv s) {r : ℕ} (status : FinalStatus)
    (hcall : s.calls i = some ⟨process, t⟩) (ht : t = .snapshot r ∨ t = .triggered r) :
    Inv ((s.setStatus r status).endCall i) := by
  cases h
  have hne := toRun_ne_running status
  have hkeep : ∀ row ∈ s.rows, row.id ≠ r →
      row ∈ s.rows.map fun row => if row.id = r then row.setStatus status else row :=
    fun row hrow hid => List.mem_map.2 ⟨row, hrow, if_neg hid⟩
  constructor
  all_goals simp only [State.setStatus, State.endCall]
  all_goals grind [BackupRun.setStatus]

/-- The route enqueues its job and ends. -/
lemma Inv.enqueue (h : Inv s) {r : ℕ} (hcall : s.calls i = some ⟨process, .triggered r⟩) :
    Inv { s.endCall i with jobs := Function.update s.jobs r (some .queued) } := by
  cases h
  constructor
  all_goals simp only [State.endCall]
  all_goals grind

/-- A job that is in the queue changes its state. -/
lemma Inv.setJob (h : Inv s) {r : ℕ} (hjob : s.jobs r ≠ none) (state : JobState) :
    Inv { s with jobs := Function.update s.jobs r (some state) } := by
  cases h
  constructor
  all_goals simp only
  all_goals grind

/-- A manual job is delivered while its row runs and no delivery of it is in progress. -/
lemma Inv.deliver (h : Inv s) {r : ℕ} (hcall : s.calls i = none) (hjob : s.jobs r ≠ none)
    (hrunning : ∃ row ∈ s.rows, row.id = r ∧ row.status = .running)
    (halone : ∀ j, ¬InProgress s j r) :
    Inv (s.setCall i (some ⟨process, .snapshot r⟩)) := by
  cases h
  have halone' : ∀ j q, s.calls j ≠ some ⟨q, .snapshot r⟩ := fun j q hj => halone j ⟨q, hj⟩
  constructor
  all_goals simp only [State.setCall]
  all_goals grind

/-- A process crashes: what it held is free. -/
lemma Inv.crash (h : Inv s) (process : ℕ) : Inv (crash s process) := by
  cases h
  constructor
  all_goals simp only [Backup.crash]
  all_goals grind [State.holderOwnedBy]

/-- A process starts while no snapshot is in progress. -/
lemma Inv.restart (h : Inv s) (halone : ∀ i r, ¬InProgress s i r) :
    Inv (reconcileStaleRunningBackups s) := by
  cases h
  have halone' : ∀ j q r, s.calls j ≠ some ⟨q, .snapshot r⟩ := fun j q r hj => halone j r ⟨q, hj⟩
  constructor
  all_goals simp only [reconcileStaleRunningBackups, BackupRun.setStatus]
  all_goals grind [FinalStatus.toRun]

/-! ### The steps -/

lemma not_running_of_anyRunning (h : s.anyRunning = false) :
    ∀ row ∈ s.rows, row.status ≠ .running := by
  intro row hrow
  simpa using List.any_eq_false.1 h row hrow

lemma trySlotLock_inv {trigger : BackupTrigger} (h : Inv s)
    (hs : trySlotLock s i process trigger = some s') : Inv s' := by
  rw [trySlotLock] at hs
  split at hs
  · simp at hs
  · split_ifs at hs with hfree
    · rw [← Option.some.inj hs]
      exact h.takeLock hfree trivial id
    · rwa [← Option.some.inj hs]

lemma checkRunning_inv (h : Inv s) (hs : checkRunning s i = some s') : Inv s' := by
  rw [checkRunning.eq_def] at hs
  split at hs
  · next hcall =>
    split_ifs at hs with hany
    · rw [← Option.some.inj hs]
      exact h.endCall_unlock hcall trivial
    · rw [← Option.some.inj hs]
      exact h.setCall hcall (iff_of_true trivial trivial) trivial
        fun _ => not_running_of_anyRunning (by simpa using hany)
  · simp at hs

lemma commitSlot_inv (h : Inv s) (hs : commitSlot s i = some s') : Inv s' := by
  rw [Backup.commitSlot.eq_def] at hs
  split at hs
  · next process trigger hcall =>
    rw [← Option.some.inj hs]
    cases trigger with
    | schedule => exact h.commitSlot hcall (.inl rfl)
    | manual => exact h.commitSlot hcall (.inr rfl)
  · simp at hs

lemma auditFailed_inv (h : Inv s) (hs : auditFailed s i = some s') : Inv s' := by
  rw [auditFailed.eq_def] at hs
  split at hs
  · next hcall =>
    rw [← Option.some.inj hs]
    exact h.setStatus_endCall .failed hcall (.inr rfl)
  · simp at hs

lemma enqueue_inv (h : Inv s) (hs : enqueue s i = some s') : Inv s' := by
  rw [Backup.enqueue.eq_def] at hs
  split at hs
  · next hcall =>
    rw [← Option.some.inj hs]
    exact h.enqueue hcall
  · simp at hs

lemma abandon_inv (h : Inv s) (hs : abandon s i = some s') : Inv s' := by
  rw [abandon.eq_def] at hs
  split at hs
  · next hcall =>
    rw [← Option.some.inj hs]
    exact h.endCall_unlock hcall trivial
  · next hcall =>
    rw [← Option.some.inj hs]
    exact h.endCall_unlock hcall trivial
  · next hcall =>
    rw [← Option.some.inj hs]
    exact h.endCall hcall id
  · simp at hs

lemma deliver_inv {r : ℕ} (h : Inv s) (hs : deliver s i process r = some s')
    (hsound : Sound s (.deliver i process r)) : Inv s' := by
  rw [Backup.deliver.eq_def] at hs
  split at hs
  · simp at hs
  · next hcall =>
    split_ifs at hs with hjob
    rw [← Option.some.inj hs]
    have hqueued : s.jobs r ≠ none := by simp [hjob]
    exact (h.deliver hcall hqueued hsound.1 hsound.2).setJob hqueued .active

lemma expire_inv {r : ℕ} (h : Inv s) (hs : expire s r = some s') : Inv s' := by
  rw [expire] at hs
  split_ifs at hs with hjob
  rw [← Option.some.inj hs]
  exact h.setJob (by simp [hjob]) .queued

lemma finish_inv {status : Option FinalStatus} (h : Inv s) (hs : finish s i status = some s') :
    Inv s' := by
  rw [finish.eq_def] at hs
  split at hs
  · next r hcall =>
    rw [← Option.some.inj hs]
    have hjobs : ∀ u : State, Inv u → u.jobs = s.jobs → Inv { u with
        jobs := if s.jobs r = some .active then Function.update s.jobs r (some .done)
          else s.jobs } := by
      intro u hu hsame
      split_ifs with hactive
      · rw [← hsame]
        exact hu.setJob (by simp [hsame, hactive]) .done
      · rwa [← hsame]
    cases status with
    | none => exact hjobs _ (h.endCall hcall id) rfl
    | some status => exact hjobs _ (h.setStatus_endCall status hcall (.inl rfl)) rfl
  · simp at hs

lemma reserve_inv (h : Inv s) (hs : reserve s i process = some s') : Inv s' := by
  rw [Backup.reserve.eq_def] at hs
  split at hs
  · simp at hs
  · next hcall =>
    rw [← Option.some.inj hs]
    exact h.reserve hcall

lemma tryRestoreLock_inv {fails : Bool} (h : Inv s) (hs : tryRestoreLock s i fails = some s') :
    Inv s' := by
  rw [tryRestoreLock.eq_def] at hs
  split at hs
  · next hcall =>
    split_ifs at hs with hfree
    · rw [← Option.some.inj hs]
      exact h.takeLock hfree.2 trivial id
    · rw [← Option.some.inj hs]
      exact h.endCall hcall id
  · simp at hs

lemma checkBackupRunning_inv {fails : Bool} (h : Inv s)
    (hs : checkBackupRunning s i fails = some s') : Inv s' := by
  rw [checkBackupRunning.eq_def] at hs
  split at hs
  · next hcall =>
    split_ifs at hs with hfails hany
    · rw [← Option.some.inj hs]
      exact h.setCall hcall (iff_of_true trivial trivial) trivial False.elim
    · rw [← Option.some.inj hs]
      exact h.setCall hcall (iff_of_true trivial trivial) trivial False.elim
    · rw [← Option.some.inj hs]
      exact h.setCall hcall (iff_of_true trivial trivial) trivial
        fun _ => not_running_of_anyRunning (by simpa using hany)
  · simp at hs

lemma unlockAndRelease_inv {fails : Bool} (h : Inv s)
    (hs : unlockAndRelease s i fails = some s') (hsound : Sound s (.unlockAndRelease i fails)) :
    Inv s' := by
  rw [unlockAndRelease.eq_def] at hs
  split at hs
  · next process retried hcall =>
    split_ifs at hs with hfails hretried
    · rw [← Option.some.inj hs]
      exact h.endCall_unlock hcall trivial
    · rw [← Option.some.inj hs]
      exact h.retryUnlock hcall
    · obtain ⟨p, hp⟩ := hsound (by simpa using hfails)
      rw [hcall] at hp
      simp at hp
      exact absurd hp.2 hretried
  · simp at hs

lemma restoreDone_inv (h : Inv s) (hs : restoreDone s i = some s') : Inv s' := by
  rw [restoreDone.eq_def] at hs
  split at hs
  · next hcall =>
    rw [← Option.some.inj hs]
    exact h.setCall hcall (iff_of_true trivial trivial) trivial False.elim
  · simp at hs

end Moves

lemma step_inv {s s' : State} {a : Label} (h : Inv s) (hsound : Sound s a)
    (hs : backupSystem.step s a = some s') : Inv s' := by
  cases a with
  | trySlotLock i process trigger => exact trySlotLock_inv h hs
  | checkRunning i => exact checkRunning_inv h hs
  | commitSlot i => exact commitSlot_inv h hs
  | auditFailed i => exact auditFailed_inv h hs
  | enqueue i => exact enqueue_inv h hs
  | abandon i => exact abandon_inv h hs
  | deliver i process runId => exact deliver_inv h hs hsound
  | expire runId => exact expire_inv h hs
  | finish i status => exact finish_inv h hs
  | reserve i process => exact reserve_inv h hs
  | tryRestoreLock i fails => exact tryRestoreLock_inv h hs
  | checkBackupRunning i fails => exact checkBackupRunning_inv h hs
  | unlockAndRelease i fails => exact unlockAndRelease_inv h hs hsound
  | restoreDone i => exact restoreDone_inv h hs
  | crash process =>
    rw [← Option.some.inj hs]
    exact h.crash process
  | restart =>
    rw [← Option.some.inj hs]
    exact h.restart hsound

lemma init_inv : Inv backupSystem.init := by
  constructor <;> simp [backupSystem]

lemma Inv.excludes {s : State} (h : Inv s) : Excludes s where
  one_snapshot i j r r' hi hj := by
    obtain ⟨p, hp⟩ := hi
    obtain ⟨q, hq⟩ := hj
    obtain ⟨row, hrow, hid, hrun⟩ := h.snapshot_running i p r hp
    obtain ⟨row', hrow', hid', hrun'⟩ := h.snapshot_running j q r' hq
    have hsame : r = r' := by
      rw [← hid, ← hid']
      exact h.running_unique row hrow row' hrow' hrun hrun'
    exact h.snapshot_unique i j p q r hp (hsame ▸ hq)
  no_restore i j r hi hj := by
    obtain ⟨p, hp⟩ := hi
    obtain ⟨q, hq⟩ := hj
    obtain ⟨row, hrow, -, hrun⟩ := h.snapshot_running i p r hp
    exact h.idle j _ hq trivial row hrow hrun
  leaves_once row hrow := (h.exits_le row hrow).1
  no_lock_left holder hholder := by
    obtain ⟨i, c, rfl, hc, -⟩ := h.holds_of_lock holder hholder
    exact ⟨i, rfl, by rw [hc]; rfl⟩
  no_connection_left := h.call_of_reserved

/-- The manual backup of a trigger that is in the queue. -/
def triggerAndEnqueue : List Label :=
  [.trySlotLock 0 0 .manual, .checkRunning 0, .commitSlot 0, .enqueue 0]

/-- A manual backup is delivered, taken for dead and delivered again. -/
def deliveredTwice : List Label :=
  triggerAndEnqueue ++ [.deliver 1 0 0, .expire 0, .deliver 2 0 0]

/-- A manual job outlives the crash of its process; its row is reconciled, a restore starts, and the
job is delivered. -/
def deliveredLate : List Label :=
  triggerAndEnqueue ++ [.crash 0, .restart, .reserve 1 0, .tryRestoreLock 1 false,
    .checkBackupRunning 1 false, .deliver 2 0 0]

/-- The check of a restore for a running backup fails, and so does the unlock behind it. -/
def unlockFails : List Label :=
  [.reserve 0 0, .tryRestoreLock 0 false, .checkBackupRunning 0 true, .unlockAndRelease 0 true]

end ProjectVault.Backup
