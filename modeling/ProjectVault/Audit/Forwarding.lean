import ProjectVault.Db.Table

/-!
Forwarding of audit rows to a webhook or to S3 (`audit/forwarding.ts`, `audit/s3-forward.ts`).
-/

namespace ProjectVault.Audit

open Db

/-! ### Rows and configuration -/

/-- A row of `audit_log_entries`: its `id`, in the order of the table, and its `created_at` in
microseconds. -/
structure ForwardRow where
  id : ℕ
  createdAt : ℕ
  deriving DecidableEq

/-- `ORDER BY created_at ASC, id ASC`. -/
def ForwardRow.key (row : ForwardRow) : ℕ ×ₗ ℕ := toLex (row.createdAt, row.id)

/-- `lastForwardedCreatedAt` and `lastForwardedId`. -/
structure Cursor where
  createdAt : ℕ
  id : ℕ
  deriving DecidableEq

/-- The place of the cursor in the order of the rows. -/
def Cursor.key (cursor : Cursor) : ℕ ×ₗ ℕ := toLex (cursor.createdAt, cursor.id)

/-- A timestamp as a JavaScript `Date`: the microseconds of its last millisecond are cut off. -/
def asDate (micros : ℕ) : ℕ := micros / 1000 * 1000

/-- The types of forwarding. -/
inductive ForwardingType where
  | webhook | s3
  deriving DecidableEq

/-- A row of `audit_forwarding_config`; the destination is the URL of the webhook, or the bucket
with its prefix, region and endpoint. -/
structure ForwardingConfig where
  type : ForwardingType
  enabled : Bool
  destination : String
  lastForwarded : Option Cursor
  consecutiveFailureCount : ℕ
  s3LastForwardedDate : Option ℕ
  s3ConsecutiveFailureCount : ℕ

/-- `configureForwarding`. -/
def configureForwarding (type : ForwardingType) (destination : String) : ForwardingConfig :=
  ⟨type, true, destination, none, 0, none, 0⟩

/-! ### The webhook -/

/-- `AUDIT_WEBHOOK_FORWARD_BATCH_SIZE`. -/
def auditWebhookForwardBatchSize : ℕ := 500

/-- `AUDIT_WEBHOOK_MAX_CONSECUTIVE_FAILURES`. -/
def auditWebhookMaxConsecutiveFailures : ℕ := 10

/-- `buildWebhookCursorCondition`. -/
def isPending (cursor : Option Cursor) (row : ForwardRow) : Bool :=
  match cursor with
  | none => true
  | some c => row.createdAt > c.createdAt || (row.createdAt == c.createdAt && row.id > c.id)

/-- `fetchPendingWebhookRows`. -/
def fetchPendingWebhookRows (rows : List ForwardRow) (config : ForwardingConfig) :
    List ForwardRow :=
  (sortAsc ForwardRow.key (rows.filter (isPending config.lastForwarded))).take
    auditWebhookForwardBatchSize

/-- The cursor at a row, as the application writes it back. -/
def cursorAt (row : ForwardRow) : Cursor := ⟨asDate row.createdAt, row.id⟩

/-- `recordWebhookSuccess` on the stored configuration. -/
def recordWebhookSuccess (row : ForwardRow) (stored : ForwardingConfig) : ForwardingConfig :=
  { stored with lastForwarded := some (cursorAt row), consecutiveFailureCount := 0 }

/-- `recordWebhookFailure` on the stored configuration, for a tick that has read `config`. -/
def recordWebhookFailure (config : ForwardingConfig) (consecutiveFailureCount : ℕ)
    (stored : ForwardingConfig) : ForwardingConfig :=
  { stored with
    consecutiveFailureCount
    enabled :=
      if consecutiveFailureCount ≥ auditWebhookMaxConsecutiveFailures then false
      else config.enabled }

/-- What a tick has tried to deliver, what of it was delivered, and the configuration it leaves. -/
structure Delivery where
  attempted : List ForwardRow
  delivered : List ForwardRow
  config : ForwardingConfig

/-- `deliverFrom`: one row after the other, up to the first that is not delivered. -/
def deliverFrom (deliver : ForwardRow → Bool) (config : ForwardingConfig) :
    ℕ → List ForwardRow → ForwardingConfig → Delivery
  | _, [], stored => ⟨[], [], stored⟩
  | consecutiveFailureCount, row :: rest, stored =>
    if deliver row then
      let later := deliverFrom deliver config 0 rest (recordWebhookSuccess row stored)
      { later with attempted := row :: later.attempted, delivered := row :: later.delivered }
    else ⟨[row], [], recordWebhookFailure config (consecutiveFailureCount + 1) stored⟩

/-- The rows a tick fetches for the configuration it has read. -/
def webhookBatch (rows : List ForwardRow) (config : ForwardingConfig) : List ForwardRow :=
  if config.type = .webhook ∧ config.enabled = true then fetchPendingWebhookRows rows config else []

/-- `processOrgWebhookTick` on the rows it has fetched. -/
def processOrgWebhookTick (deliver : ForwardRow → Bool) (config : ForwardingConfig)
    (batch : List ForwardRow) (stored : ForwardingConfig) : Delivery :=
  deliverFrom deliver config config.consecutiveFailureCount batch stored

/-! ### S3 -/

/-- `AUDIT_S3_MAX_CONSECUTIVE_FAILURES`. -/
def auditS3MaxConsecutiveFailures : ℕ := 5

/-- `toUtcDateString`, as the number of a day. -/
def utcDay (micros : ℕ) : ℕ := micros / 86400000000

/-- `nextDayToForward`. -/
def nextDayToForward (s3LastForwardedDate : Option ℕ) (now : ℕ) : ℕ :=
  match s3LastForwardedDate with
  | none => utcDay now - 1
  | some day => day + 1

/-- `fetchDayRows`. -/
def fetchDayRows (rows : List ForwardRow) (day : ℕ) : List ForwardRow :=
  rows.filter fun row => utcDay row.createdAt = day

/-- `advanceEmptyDay` and `recordS3DaySuccess` on the stored configuration. -/
def recordS3DaySuccess (day : ℕ) (stored : ForwardingConfig) : ForwardingConfig :=
  { stored with s3LastForwardedDate := some day, s3ConsecutiveFailureCount := 0 }

/-- `recordS3DayFailure` on the stored configuration, for a tick that has read `config`. -/
def recordS3DayFailure (config stored : ForwardingConfig) : ForwardingConfig :=
  let s3ConsecutiveFailureCount := config.s3ConsecutiveFailureCount + 1
  { stored with
    s3ConsecutiveFailureCount
    enabled :=
      if s3ConsecutiveFailureCount ≥ auditS3MaxConsecutiveFailures then false else config.enabled }

/-- The day a tick forwards for the configuration it has read, if it forwards any. -/
def s3Day (config : ForwardingConfig) (now : ℕ) : Option ℕ :=
  if config.type = .s3 ∧ config.enabled = true ∧
      nextDayToForward config.s3LastForwardedDate now < utcDay now then
    some (nextDayToForward config.s3LastForwardedDate now)
  else none

/-- `processOrgS3Day` on the rows of the day; an empty day is not uploaded. -/
def processOrgS3Day (uploaded : Bool) (config : ForwardingConfig) (day : ℕ)
    (rows : List ForwardRow) (stored : ForwardingConfig) : Delivery :=
  if rows = [] then ⟨[], [], recordS3DaySuccess day stored⟩
  else if uploaded then ⟨rows, rows, recordS3DaySuccess day stored⟩
  else ⟨rows, [], recordS3DayFailure config stored⟩

/-! ### What a tick does -/

variable {rows batch : List ForwardRow} {row : ForwardRow} {config stored : ForwardingConfig}
  {deliver : ForwardRow → Bool}

lemma isPending_some_iff {c : Cursor} : isPending (some c) row = true ↔ c.key < row.key := by
  simp only [isPending, Cursor.key, ForwardRow.key, Prod.Lex.toLex_lt_toLex, Bool.or_eq_true,
    Bool.and_eq_true, decide_eq_true_eq, beq_iff_eq, gt_iff_lt]
  rw [eq_comm]

lemma asDate_le (micros : ℕ) : asDate micros ≤ micros := Nat.div_mul_le_self micros 1000

/-- The cursor at a row does not lie above it. -/
lemma key_cursorAt_le (row : ForwardRow) : (cursorAt row).key ≤ row.key := by
  rw [Cursor.key, ForwardRow.key, cursorAt, Prod.Lex.toLex_le_toLex]
  rcases (asDate_le row.createdAt).lt_or_eq with hlt | heq
  · exact .inl hlt
  · exact .inr ⟨heq, le_rfl⟩

lemma mem_of_mem_fetchPendingWebhookRows (h : row ∈ fetchPendingWebhookRows rows config) :
    row ∈ rows ∧ isPending config.lastForwarded row = true := by
  have hmem := List.mem_of_mem_take h
  rwa [mem_sortAsc, List.mem_filter] at hmem

/-- **A tick of the webhook** delivers up to the first failure, tries that row as well, and leaves
the cursor at the last row delivered. -/
lemma deliverFrom_spec (count : ℕ) (batch : List ForwardRow) (stored : ForwardingConfig) :
    (deliverFrom deliver config count batch stored).delivered = batch.takeWhile deliver ∧
      (deliverFrom deliver config count batch stored).attempted =
        batch.take ((batch.takeWhile deliver).length + 1) ∧
      (deliverFrom deliver config count batch stored).config.lastForwarded =
        ((batch.takeWhile deliver).getLast?.map cursorAt <|> stored.lastForwarded) := by
  induction batch generalizing count stored with
  | nil => exact ⟨rfl, rfl, rfl⟩
  | cons row rest ih =>
    rw [deliverFrom, List.takeWhile_cons]
    cases hrow : deliver row with
    | false => exact ⟨rfl, rfl, rfl⟩
    | true =>
      obtain ⟨hdelivered, hattempted, hcursor⟩ := ih 0 (recordWebhookSuccess row stored)
      refine ⟨?_, ?_, ?_⟩
      · simp only [if_true, hdelivered]
      · simp only [if_true, hattempted, List.length_cons, List.take_succ_cons]
      · simp only [if_true, hcursor]
        cases hlast : (rest.takeWhile deliver).getLast? with
        | none =>
          rw [List.getLast?_eq_none_iff.1 hlast]
          rfl
        | some last =>
          rw [List.getLast?_cons, hlast]
          rfl

end ProjectVault.Audit
