import ProjectVault.Db.Rows
import ProjectVault.Js.Json

/-!
The rows of `notification_queue` and the transactions on them
(`notification-queue-ops.ts`, `delivery-status.ts`, the selections of the workers).

Every transaction on a row is one update, or holds the lock of the row from its read to
its commit, so each is one function of the tables. Moments are in seconds.
-/

namespace ProjectVault.Notifications

open Js Db

/-! ### Rows -/

/-- `NotificationQueueStatus`. -/
inductive NotificationQueueStatus where
  | pending | sent | delivered | bounced | suppressed | failed
  deriving DecidableEq

/-- `DELIVERY_STATUS_RANK`. -/
def deliveryStatusRank : NotificationQueueStatus → ℕ
  | .pending => 0
  | .sent => 1
  | .delivered => 2
  | .bounced => 3
  | .suppressed => 3
  | .failed => 3

/-- The channels. -/
inductive Channel where
  | email | slack | inbox
  deriving DecidableEq

/-- A row of `notification_queue`; the payload is an object. -/
structure QueueRow where
  id : ℕ
  orgId : ℕ
  recipientUserId : Option ℕ
  channel : Channel
  templateId : String
  payload : List (String × Json)
  status : NotificationQueueStatus
  attemptCount : ℕ
  lastAttemptAt : Option ℕ
  deliveredAt : Option ℕ
  deliverAt : Option ℕ
  createdAt : ℕ
  providerId : Option String
  providerMessageId : Option String
  lastEventAt : Option ℕ
  claimExpiresAt : Option ℕ
  sendStartedAt : Option ℕ

/-- An audit row `NOTIFICATION_DELIVERY_STATUS_UPDATED`. -/
structure StatusAudit where
  queueId : ℕ
  providerId : Option String
  oldStatus : NotificationQueueStatus
  newStatus : NotificationQueueStatus
  updatedAt : ℕ

/-- The tables. -/
structure NotificationDb where
  queue : List QueueRow
  audit : List StatusAudit

/-- `notification_queue`. -/
def queueTable : Db.Table NotificationDb ℕ QueueRow where
  rows := NotificationDb.queue
  modify f d := { d with queue := f d.queue }
  rows_modify _ _ := rfl
  id := QueueRow.id
  lock := id
  lock_injective := Function.injective_id

namespace NotificationDb

/-- The row of an id. -/
def row (d : NotificationDb) (id : ℕ) : Option QueueRow := queueTable.find d id

/-- `UPDATE notification_queue SET … WHERE id = …`. -/
def update (d : NotificationDb) (id : ℕ) (set : QueueRow → QueueRow) : NotificationDb :=
  { d with queue := updateWhere (fun r => r.id = id) set d.queue }

/-- `UPDATE notification_queue SET … WHERE id = … AND … RETURNING *`. -/
def updateIf (d : NotificationDb) (id : ℕ) (cond : QueueRow → Bool) (set : QueueRow → QueueRow) :
    NotificationDb × Option QueueRow :=
  match (d.row id).filter cond with
  | none => (d, none)
  | some r => (d.update id set, some (set r))

end NotificationDb

/-! ### Attempts -/

/-- `NOTIFICATION_MAX_ATTEMPTS`. -/
def notificationMaxAttempts : ℕ := 5

/-- `NOTIFICATION_CLAIM_LEASE_SECONDS`. -/
def notificationClaimLeaseSeconds : ℕ := 900

/-- `NOTIFICATION_DLQ_GRACE_SECONDS`. -/
def notificationDlqGraceSeconds : ℕ := 1800

/-- Due, and no other attempt has the row or has begun to send it. -/
def isClaimable (now : ℕ) (r : QueueRow) : Bool :=
  r.status = .pending && r.attemptCount < notificationMaxAttempts &&
    r.deliverAt.all (fun t => t ≤ now) && r.claimExpiresAt.all (fun t => t ≤ now) &&
    r.sendStartedAt.isNone

/-- The row of a new attempt. -/
def QueueRow.claimed (now : ℕ) (r : QueueRow) : QueueRow :=
  { r with attemptCount := r.attemptCount + 1, lastAttemptAt := some now,
           claimExpiresAt := some (now + notificationClaimLeaseSeconds) }

/-- `claimPendingNotificationEntry`. -/
def claimPendingNotificationEntry (now id : ℕ) (d : NotificationDb) :
    NotificationDb × Option QueueRow :=
  d.updateIf id (isClaimable now) (QueueRow.claimed now)

/-- The row is pending, and the attempt is its newest. -/
def ownedBy (attempt : ℕ) (r : QueueRow) : Bool := r.status = .pending && r.attemptCount = attempt

/-- The row without the claim of its attempt. -/
def QueueRow.released (r : QueueRow) : QueueRow :=
  { r with claimExpiresAt := none, sendStartedAt := none }

/-- `releaseNotificationClaim`. -/
def releaseNotificationClaim (id attempt : ℕ) (d : NotificationDb) : NotificationDb :=
  (d.updateIf id (ownedBy attempt) QueueRow.released).1

/-- The row with a send in progress. -/
def QueueRow.sendStarted (now : ℕ) (r : QueueRow) : QueueRow := { r with sendStartedAt := some now }

/-- `markNotificationSendStarted`; without a row the claim is lost. -/
def markNotificationSendStarted (now id attempt : ℕ) (d : NotificationDb) :
    NotificationDb × Option QueueRow :=
  d.updateIf id (fun r => ownedBy attempt r && r.sendStartedAt.isNone) (QueueRow.sendStarted now)

/-! ### The status -/

/-- `PAYLOAD_KEYS_SCRUBBED_AFTER_SEND`. -/
def payloadKeysScrubbedAfterSend (templateId : String) : List String :=
  if templateId = "credential_share.verification_code" then ["code"] else []

/-- `payloadScrubFor`, applied to the payload. -/
def payloadScrubFor (r : QueueRow) : List (String × Json) :=
  if r.status = .pending then
    r.payload.filter fun m => m.1 ∉ payloadKeysScrubbedAfterSend r.templateId
  else r.payload

/-- `ApplyDeliveryStatusUpdateInput`; the status of an event that is none of the known ones
is absent. -/
structure DeliveryStatusUpdate where
  queueId : ℕ
  newStatus : Option NotificationQueueStatus
  providerId : Option String := none
  providerMessageId : Option String := none

/-- `ApplyDeliveryStatusUpdateResult`. -/
inductive DeliveryStatusResult where
  | applied | idempotentNoop | discardedBackward (currentStatus : NotificationQueueStatus) | notFound

/-- The row with a new status. -/
def QueueRow.moved (now : ℕ) (input : DeliveryStatusUpdate) (newStatus : NotificationQueueStatus)
    (r : QueueRow) : QueueRow :=
  { r with status := newStatus, lastEventAt := some now, payload := payloadScrubFor r,
           deliveredAt := if newStatus = .delivered then some now else r.deliveredAt,
           providerId := input.providerId.or r.providerId,
           providerMessageId := input.providerMessageId.or r.providerMessageId }

/-- The audit row about it. -/
def statusAudit (now : ℕ) (input : DeliveryStatusUpdate) (newStatus : NotificationQueueStatus)
    (r : QueueRow) : StatusAudit where
  queueId := r.id
  providerId := input.providerId.or r.providerId
  oldStatus := r.status
  newStatus := newStatus
  updatedAt := now

/-- `applyDeliveryStatusUpdate`. -/
def applyDeliveryStatusUpdate (now : ℕ) (input : DeliveryStatusUpdate) (d : NotificationDb) :
    NotificationDb × DeliveryStatusResult :=
  match d.row input.queueId with
  | none => (d, .notFound)
  | some r =>
    match input.newStatus with
    | none => (d, .discardedBackward r.status)
    | some newStatus =>
      if deliveryStatusRank newStatus < deliveryStatusRank r.status then
        (d, .discardedBackward r.status)
      else if r.status = newStatus then
        (d.update input.queueId fun r => { r with lastEventAt := some now }, .idempotentNoop)
      else
        ({ d.update input.queueId (QueueRow.moved now input newStatus) with
            audit := statusAudit now input newStatus r :: d.audit }, .applied)

/-- `markNotificationDelivered`, `markNotificationSuppressed` and `markNotificationFailed`. -/
def markNotification (now id : ℕ) (newStatus : NotificationQueueStatus) (d : NotificationDb) :
    NotificationDb × DeliveryStatusResult :=
  applyDeliveryStatusUpdate now ⟨id, some newStatus, none, none⟩ d

/-- `UPDATE notification_queue SET status = … WHERE id = …`, with `delivered_at` for a
delivery. -/
def QueueRow.written (now : ℕ) (status : NotificationQueueStatus) (r : QueueRow) : QueueRow :=
  { r with status, deliveredAt := if status = .delivered then some now else r.deliveredAt }

/-- The same for some rows, one after another. -/
def writeStatuses (now : ℕ) (status : NotificationQueueStatus) (ids : List ℕ) (d : NotificationDb) :
    NotificationDb :=
  ids.foldl (fun d id => d.update id (QueueRow.written now status)) d

/-- The text of a member of a payload, as `->>` gives it. -/
def payloadText (payload : List (String × Json)) (key : String) : Option String :=
  (payload.find? fun m => m.1 = key).bind fun m =>
    match m.2 with
    | .null => none
    | .str text => some text
    | value => some (stringify value)

/-- `suppressPendingNotificationsForAsset`, and the same for a service endpoint. -/
def suppressPendingNotifications (now orgId : ℕ) (key text : String) (d : NotificationDb) :
    NotificationDb :=
  let isPendingFor := fun r : QueueRow =>
    r.orgId = orgId && r.status = .pending && payloadText r.payload key = some text
  { d with queue := updateWhere isPendingFor (QueueRow.written now .suppressed) d.queue }

/-! ### Selections -/

/-- `runNotificationCatchup`: the rows of an organisation that it enqueues again. -/
def staleEntries (now orgId : ℕ) (d : NotificationDb) : List ℕ :=
  ((sortAsc QueueRow.createdAt (d.queue.filter fun r => r.orgId = orgId && isClaimable now r &&
    r.createdAt + 300 < now)).take 100).map QueueRow.id

/-- `selectOutcomeUnknownSends`. -/
def outcomeUnknownSends (now orgId : ℕ) (d : NotificationDb) : List ℕ :=
  (d.queue.filter fun r => r.orgId = orgId && r.status = .pending && r.sendStartedAt.isSome &&
    r.claimExpiresAt.all (fun t => t ≤ now)).map QueueRow.id

/-- `selectExhaustedAttempts`. -/
def exhaustedAttempts (now orgId : ℕ) (d : NotificationDb) : List ℕ :=
  (d.queue.filter fun r => r.orgId = orgId && r.status = .pending &&
    notificationMaxAttempts ≤ r.attemptCount && r.sendStartedAt.isNone &&
    r.lastAttemptAt.any (fun t => t + notificationDlqGraceSeconds < now)).map QueueRow.id

/-- The rows that `runDigestSend` mails. -/
def isDigestDue (now : ℕ) (r : QueueRow) : Bool :=
  r.channel = .email && r.status = .pending && r.deliverAt.any (fun t => t ≤ now) &&
    r.recipientUserId.isSome

/-- The organisations with digest work. -/
def orgsWithDigestWork (now : ℕ) (d : NotificationDb) : List ℕ :=
  ((d.queue.filter (isDigestDue now)).map QueueRow.orgId).eraseDups

/-- The pending entries of an organisation. -/
def digestEntries (now orgId : ℕ) (d : NotificationDb) : List QueueRow :=
  sortAsc (fun r => r.recipientUserId.getD 0) (sortAsc QueueRow.createdAt
    (d.queue.filter fun r => r.orgId = orgId && isDigestDue now r))

/-- The entries by recipient. -/
def byRecipient (entries : List QueueRow) : List (List ℕ) :=
  (entries.map QueueRow.recipientUserId).eraseDups.map fun user =>
    (entries.filter fun r => r.recipientUserId = user).map QueueRow.id

/-! ### Rows after a transaction -/

section Rows

variable {d : NotificationDb} {n : ℕ} {set : QueueRow → QueueRow}

lemma row_updateWhere (p : QueueRow → Bool) (hset : ∀ r, (set r).id = r.id) :
    NotificationDb.row { d with queue := updateWhere p set d.queue } n =
      (d.row n).map fun r => if p r then set r else r := by
  have hid : ((fun r : QueueRow => decide (r.id = n)) ∘ fun r => if p r then set r else r) =
      fun r => decide (r.id = n) := by
    funext r
    by_cases hr : p r = true
    · simp [hr, hset]
    · simp [hr]
  change (updateWhere p set d.queue).find? (fun r => r.id = n) = _
  rw [updateWhere, List.find?_map, hid]
  rfl

lemma row_update (id : ℕ) (hset : ∀ r, (set r).id = r.id) :
    (d.update id set).row n = if n = id then (d.row n).map set else d.row n := by
  refine (row_updateWhere _ hset).trans ?_
  cases hrow : d.row n with
  | none => simp
  | some r =>
    have hid : r.id = n := (Table.find_eq_some hrow).2
    by_cases hn : n = id
    · simp [hid, hn]
    · simp [hid, hn]

lemma row_update_self {id : ℕ} {r : QueueRow} (hset : ∀ r, (set r).id = r.id)
    (hrow : d.row id = some r) : (d.update id set).row id = some (set r) := by
  rw [row_update id hset, if_pos rfl, hrow]
  rfl

lemma row_update_of_ne {id : ℕ} (hset : ∀ r, (set r).id = r.id) (hn : n ≠ id) :
    (d.update id set).row n = d.row n := by
  rw [row_update id hset, if_neg hn]

/-- A conditional update does nothing, or changes a row that meets the condition. -/
lemma updateIf_cases (d : NotificationDb) (id : ℕ) (cond : QueueRow → Bool)
    (set : QueueRow → QueueRow) :
    d.updateIf id cond set = (d, none) ∧ (∀ r, d.row id = some r → cond r = false) ∨
      ∃ r, d.row id = some r ∧ cond r = true ∧ d.updateIf id cond set = (d.update id set, some (set r)) := by
  unfold NotificationDb.updateIf
  cases hrow : d.row id with
  | none => exact .inl ⟨rfl, by simp⟩
  | some r =>
    by_cases hcond : cond r = true
    · refine .inr ⟨r, rfl, hcond, ?_⟩
      rw [Option.filter_some, if_pos hcond]
    · refine .inl ⟨by rw [Option.filter_some, if_neg hcond], fun r' hr' => ?_⟩
      cases hr'
      simpa using hcond

end Rows

end ProjectVault.Notifications
