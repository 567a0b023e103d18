import ProjectVault.Notifications.Queue
import ProjectVault.Run.System

/-!
The jobs on `notification_queue` as a transition system (`notification-claim.ts`,
`notification-email.ts`, `notification-slack.ts`, `notification-inbox.ts`,
`notification-digest.ts`, `notification-dlq-cleanup.ts`, the provider webhook and the
deletions of `monitoring/service.ts`).
-/

namespace ProjectVault.Notifications

open Js Db

/-! ### Deliver workers -/

/-- Where a worker is. -/
inductive Phase where
  /-- The job has been taken. -/
  | taken
  /-- The attempt has claimed the row, and nothing is sent yet. -/
  | claimed (attempt : ℕ)
  /-- The send is marked as started. -/
  | marked (attempt : ℕ)
  /-- The external send is in flight. -/
  | sending (attempt : ℕ)
  /-- The provider has reported a permanent failure. -/
  | rejected (attempt : ℕ)
  /-- The send has resolved, and its status is to be recorded. -/
  | resolved (attempt : ℕ)
  /-- An error before a send has resolved: the claim is to be released. -/
  | releasing (attempt : ℕ)
  deriving DecidableEq

/-- A deliver worker. -/
structure Worker where
  queueId : ℕ
  phase : Phase

/-- How an external send ends. -/
inductive SendOutcome where
  | resolves | throws | rejects

/-! ### The digest -/

/-- Where a digest run is. -/
inductive DigestPhase where
  | waiting | sending (ids : List ℕ) | sent (ids : List ℕ)

/-- A run of `runDigestSend`: the organisations and the recipients still to be served. -/
structure DigestRun where
  now : ℕ
  orgs : List ℕ
  groups : List (List ℕ)
  phase : DigestPhase

/-! ### What is recorded -/

/-- The sends of rows: an attempt's own, and the mails of a digest that have resolved. -/
inductive SendEvent where
  | started (id attempt : ℕ)
  | threw (id attempt : ℕ)
  | resolved (id attempt : ℕ)
  | mailed (ids : List ℕ)
  deriving DecidableEq

/-- Who has written a status. -/
inductive Writer where
  | worker | cleanup | webhook | digest | inbox | monitoring

/-- A committed change of a status. -/
structure StatusChange where
  queueId : ℕ
  oldStatus : NotificationQueueStatus
  newStatus : NotificationQueueStatus
  writer : Writer

/-- A row selected by the cleanup, with the number of changes committed before. -/
structure DlqCandidate where
  id : ℕ
  selectedAt : ℕ
  deriving DecidableEq

/-! ### States -/

/-- The tables, the jobs, and what is recorded. -/
structure NotificationState where
  db : NotificationDb
  clock : ℕ
  jobs : List ℕ
  workers : ℕ → Option Worker
  digests : ℕ → Option DigestRun
  candidates : List DlqCandidate
  sends : List SendEvent
  changes : List StatusChange

/-- The change of the status of a row between two states of the tables. -/
def changeOf (writer : Writer) (before after : NotificationDb) (id : ℕ) : Option StatusChange :=
  (before.row id).bind fun r => (after.row id).bind fun r' =>
    if r.status = r'.status then none else some ⟨id, r.status, r'.status, writer⟩

/-- All of them. -/
def statusChanges (writer : Writer) (before after : NotificationDb) : List StatusChange :=
  (queueTable.ids before).filterMap (changeOf writer before after)

namespace NotificationState

/-- `COMMIT`. -/
def commit (s : NotificationState) (writer : Writer) (db : NotificationDb) : NotificationState :=
  { s with db, changes := statusChanges writer s.db db ++ s.changes }

/-- Puts a worker in its place. -/
def setWorker (s : NotificationState) (i : ℕ) (worker : Option Worker) : NotificationState :=
  { s with workers := fun j => if j = i then worker else s.workers j }

/-- Puts a digest run in its place. -/
def setDigest (s : NotificationState) (k : ℕ) (run : Option DigestRun) : NotificationState :=
  { s with digests := fun j => if j = k then run else s.digests j }

/-- Records a send. -/
def record (s : NotificationState) (event : SendEvent) : NotificationState :=
  { s with sends := event :: s.sends }

/-- The channel of a row. -/
def channel (s : NotificationState) (id : ℕ) : Option Channel := (s.db.row id).map QueueRow.channel

end NotificationState

/-- A new row, as the dispatcher inserts it. -/
structure QueueRow.IsNew (r : QueueRow) : Prop where
  status : r.status = .pending
  attemptCount : r.attemptCount = 0
  claimExpiresAt : r.claimExpiresAt = none
  sendStartedAt : r.sendStartedAt = none

instance (r : QueueRow) : Decidable r.IsNew :=
  decidable_of_iff (r.status = .pending ∧ r.attemptCount = 0 ∧ r.claimExpiresAt = none ∧
      r.sendStartedAt = none)
    ⟨fun h => ⟨h.1, h.2.1, h.2.2.1, h.2.2.2⟩,
      fun h => ⟨h.status, h.attemptCount, h.claimExpiresAt, h.sendStartedAt⟩⟩

/-! ### Steps -/

/-- What can happen next. -/
inductive NotificationLabel where
  /-- A row is inserted, with its job. -/
  | enqueue (r : QueueRow)
  | tick (n : ℕ)
  /-- `runNotificationCatchup` for an organisation. -/
  | catchup (orgId : ℕ)
  /-- A job is delivered to a worker. -/
  | deliver (i id : ℕ)
  /-- `claimPendingNotificationEntry`, its transaction begun at `now`. -/
  | claim (i now : ℕ)
  /-- `markNotificationSuppressed`: there is no transport or no address. -/
  | suppress (i : ℕ)
  /-- An error while no send has resolved. -/
  | raise (i : ℕ)
  /-- `markNotificationSendStarted`; its answer may be lost. -/
  | mark (i : ℕ) (answered : Bool)
  /-- The external send begins. -/
  | send (i : ℕ)
  /-- It ends. -/
  | settle (i : ℕ) (outcome : SendOutcome)
  /-- The status after a resolved or rejected send; a provider has given a message id. -/
  | recordStatus (i : ℕ) (providerMessageId : Option String)
  /-- `releaseNotificationClaim`. -/
  | release (i : ℕ)
  /-- The entry of an inbox is written. -/
  | writeInbox (i : ℕ)
  /-- A worker returns, fails for good or is lost. -/
  | stop (i : ℕ)
  /-- An event of a provider, with its message id. -/
  | webhook (providerId providerMessageId : String) (status : Option NotificationQueueStatus)
  /-- An asset of an organisation is deleted. -/
  | deleteAsset (orgId : ℕ) (key text : String)
  | selectOutcomeUnknown (orgId : ℕ)
  | selectExhausted (orgId : ℕ)
  /-- `failCandidate`. -/
  | failCandidate (candidate : DlqCandidate)
  /-- `runDigestSend` begins. -/
  | digestStart (k : ℕ)
  /-- It selects the entries of its next organisation. -/
  | digestSelect (k : ℕ)
  /-- The next recipient has no address. -/
  | digestSuppress (k : ℕ)
  /-- `transport.sendMail` for the next recipient. -/
  | digestSend (k : ℕ)
  | digestSettle (k : ℕ) (resolves : Bool)
  /-- The rows are written and the transaction commits. -/
  | digestCommit (k : ℕ)
  /-- A write fails, so that nothing is written. -/
  | digestAbort (k : ℕ)
  /-- The run ends or is lost. -/
  | digestStop (k : ℕ)

/-- The step of a deliver worker on its row. -/
def workerStep (s : NotificationState) (i : ℕ) (w : Worker) :
    NotificationLabel → Option NotificationState
  | .claim _ now =>
    if w.phase = .taken ∧ now ≤ s.clock then
      let (db, entry) := claimPendingNotificationEntry now w.queueId s.db
      some ((s.commit .worker db).setWorker i
        (entry.map fun r => ⟨w.queueId, .claimed r.attemptCount⟩))
    else none
  | .suppress _ =>
    match w.phase with
    | .taken =>
      if s.channel w.queueId = some .slack then
        some ((s.commit .worker (markNotification s.clock w.queueId .suppressed s.db).1).setWorker i
          none)
      else none
    | .claimed _ =>
      if s.channel w.queueId = some .email then
        some ((s.commit .worker (markNotification s.clock w.queueId .suppressed s.db).1).setWorker i
          none)
      else none
    | _ => none
  | .raise _ =>
    match w.phase with
    | .claimed attempt => some (s.setWorker i (some { w with phase := .releasing attempt }))
    | .rejected attempt => some (s.setWorker i (some { w with phase := .releasing attempt }))
    | _ => none
  | .mark _ answered =>
    match w.phase with
    | .claimed attempt =>
      if s.channel w.queueId = some .inbox then none
      else
        let (db, marked) := markNotificationSendStarted s.clock w.queueId attempt s.db
        let phase := if marked.isSome && answered then Phase.marked attempt
          else .releasing attempt
        some ((s.commit .worker db).setWorker i (some { w with phase }))
    | _ => none
  | .send _ =>
    match w.phase with
    | .marked attempt =>
      some ((s.record (.started w.queueId attempt)).setWorker i
        (some { w with phase := .sending attempt }))
    | _ => none
  | .settle _ outcome =>
    match w.phase with
    | .sending attempt =>
      match outcome with
      | .resolves =>
        some ((s.record (.resolved w.queueId attempt)).setWorker i
          (some { w with phase := .resolved attempt }))
      | .throws =>
        some ((s.record (.threw w.queueId attempt)).setWorker i
          (some { w with phase := .releasing attempt }))
      | .rejects =>
        if s.channel w.queueId = some .email then
          some ((s.record (.threw w.queueId attempt)).setWorker i
            (some { w with phase := .rejected attempt }))
        else none
    | _ => none
  | .recordStatus _ providerMessageId =>
    match w.phase with
    | .resolved _ =>
      match providerMessageId with
      | none =>
        some ((s.commit .worker (markNotification s.clock w.queueId .delivered s.db).1).setWorker
          i none)
      | some messageId =>
        if s.channel w.queueId = some .email then
          let input : DeliveryStatusUpdate :=
            ⟨w.queueId, some .sent, some "email", some messageId⟩
          some ((s.commit .worker (applyDeliveryStatusUpdate s.clock input s.db).1).setWorker i
            none)
        else none
    | .rejected _ =>
      some ((s.commit .worker (markNotification s.clock w.queueId .failed s.db).1).setWorker i none)
    | _ => none
  | .release _ =>
    match w.phase with
    | .releasing attempt =>
      some ((s.commit .worker (releaseNotificationClaim w.queueId attempt s.db)).setWorker i none)
    | _ => none
  | .writeInbox _ =>
    match w.phase with
    | .claimed _ =>
      if s.channel w.queueId = some .inbox then
        some ((s.commit .inbox (writeStatuses s.clock .delivered [w.queueId] s.db)).setWorker i none)
      else none
    | _ => none
  | .stop _ => some (s.setWorker i none)
  | _ => none

/-- The step of a digest run. -/
def digestStep (s : NotificationState) (k : ℕ) (run : DigestRun) :
    NotificationLabel → Option NotificationState
  | .digestSelect _ =>
    match run.phase, run.groups, run.orgs with
    | .waiting, [], orgId :: orgs =>
      some (s.setDigest k
        (some { run with orgs, groups := byRecipient (digestEntries run.now orgId s.db) }))
    | _, _, _ => none
  | .digestSuppress _ =>
    match run.phase, run.groups with
    | .waiting, ids :: groups =>
      some ((s.commit .digest (writeStatuses s.clock .suppressed ids s.db)).setDigest k
        (some { run with groups }))
    | _, _ => none
  | .digestSend _ =>
    match run.phase, run.groups with
    | .waiting, ids :: groups =>
      some (s.setDigest k (some { run with groups, phase := .sending ids }))
    | _, _ => none
  | .digestSettle _ resolves =>
    match run.phase with
    | .sending ids =>
      if resolves then
        some ((s.record (.mailed ids)).setDigest k (some { run with phase := .sent ids }))
      else some (s.setDigest k (some { run with phase := .waiting }))
    | _ => none
  | .digestCommit _ =>
    match run.phase with
    | .sent ids =>
      some ((s.commit .digest (writeStatuses s.clock .delivered ids s.db)).setDigest k
        (some { run with phase := .waiting }))
    | _ => none
  | .digestAbort _ =>
    match run.phase with
    | .sent _ => some (s.setDigest k (some { run with phase := .waiting }))
    | _ => none
  | .digestStop _ => some (s.setDigest k none)
  | _ => none

/-- The step of a label that belongs to no running job. -/
def tableStep (s : NotificationState) : NotificationLabel → Option NotificationState
  | .enqueue r =>
    if r.IsNew ∧ s.db.row r.id = none then
      some { s with db := { s.db with queue := s.db.queue ++ [r] }, jobs := r.id :: s.jobs }
    else none
  | .tick n => some { s with clock := s.clock + n }
  | .catchup orgId => some { s with jobs := staleEntries s.clock orgId s.db ++ s.jobs }
  | .webhook providerId providerMessageId status =>
    match s.db.queue.find? fun r =>
        r.providerId = some providerId && r.providerMessageId = some providerMessageId with
    | none => some s
    | some r =>
      some (s.commit .webhook
        (applyDeliveryStatusUpdate s.clock ⟨r.id, status, some providerId, none⟩ s.db).1)
  | .deleteAsset orgId key text =>
    some (s.commit .monitoring (suppressPendingNotifications s.clock orgId key text s.db))
  | .selectOutcomeUnknown orgId =>
    some { s with candidates :=
      (outcomeUnknownSends s.clock orgId s.db).map (⟨·, s.changes.length⟩) ++ s.candidates }
  | .selectExhausted orgId =>
    some { s with candidates :=
      (exhaustedAttempts s.clock orgId s.db).map (⟨·, s.changes.length⟩) ++ s.candidates }
  | .failCandidate candidate =>
    if candidate ∈ s.candidates then
      some (NotificationState.commit { s with candidates := s.candidates.erase candidate } .cleanup
        (markNotification s.clock candidate.id .failed s.db).1)
    else none
  | _ => none

/-- The worker a label is about. -/
def NotificationLabel.worker : NotificationLabel → Option ℕ
  | .claim i _ | .suppress i | .raise i | .mark i _ | .send i | .settle i _ | .recordStatus i _
  | .release i | .writeInbox i | .stop i => some i
  | _ => none

/-- The digest run a label is about. -/
def NotificationLabel.digest : NotificationLabel → Option ℕ
  | .digestSelect k | .digestSuppress k | .digestSend k | .digestSettle k _ | .digestCommit k
  | .digestAbort k | .digestStop k => some k
  | _ => none

/-- One step. -/
def step (s : NotificationState) (a : NotificationLabel) : Option NotificationState :=
  match a with
  | .deliver i id =>
    match s.workers i with
    | some _ => none
    | none => if id ∈ s.jobs then some (s.setWorker i (some ⟨id, .taken⟩)) else none
  | .digestStart k =>
    match s.digests k with
    | some _ => none
    | none =>
      some (s.setDigest k (some ⟨s.clock, orgsWithDigestWork s.clock s.db, [], .waiting⟩))
  | a =>
    match a.worker, a.digest with
    | some i, _ => (s.workers i).bind fun w => workerStep s i w a
    | none, some k => (s.digests k).bind fun run => digestStep s k run a
    | none, none => tableStep s a

/-- What a step is: of a worker or a digest run that is there, of neither, or a new one. -/
inductive StepOf (s : NotificationState) (a : NotificationLabel) (s' : NotificationState) : Prop where
  | worker (i : ℕ) (w : Worker) (hw : s.workers i = some w) (hs : workerStep s i w a = some s')
  | digest (k : ℕ) (run : DigestRun) (hrun : s.digests k = some run)
      (hs : digestStep s k run a = some s')
  | table (hs : tableStep s a = some s')
  | deliver (i id : ℕ) (hfree : s.workers i = none) (hjob : id ∈ s.jobs)
      (hs : s' = s.setWorker i (some ⟨id, .taken⟩))
  | digestStart (k : ℕ) (hfree : s.digests k = none)
      (hs : s' = s.setDigest k (some ⟨s.clock, orgsWithDigestWork s.clock s.db, [], .waiting⟩))

/-- **Inversion** of a step. -/
lemma stepOf_of_step {s s' : NotificationState} {a : NotificationLabel} (hs : step s a = some s') :
    StepOf s a s' := by
  cases a with
  | deliver i id =>
    simp only [step] at hs
    split at hs
    · simp at hs
    · split_ifs at hs with hjob
      exact .deliver i id ‹_› hjob (Option.some.inj hs).symm
  | digestStart k =>
    simp only [step] at hs
    split at hs
    · simp at hs
    · exact .digestStart k ‹_› (Option.some.inj hs).symm
  | claim i _ | suppress i | raise i | mark i _ | send i | settle i _ | recordStatus i _ | release i
  | writeInbox i | stop i =>
    obtain ⟨w, hw, hstep⟩ := Option.bind_eq_some_iff.1 hs
    exact .worker i w hw hstep
  | digestSelect k | digestSuppress k | digestSend k | digestSettle k _ | digestCommit k
  | digestAbort k | digestStop k =>
    obtain ⟨run, hrun, hstep⟩ := Option.bind_eq_some_iff.1 hs
    exact .digest k run hrun hstep
  | _ => exact .table hs

/-- An empty queue. -/
def emptyQueue (clock : ℕ) : NotificationState where
  db := ⟨[], []⟩
  clock := clock
  jobs := []
  workers _ := none
  digests _ := none
  candidates := []
  sends := []
  changes := []

/-- The jobs on the queue, started on an empty one. -/
def notifications (clock : ℕ) : Run.System NotificationState NotificationLabel where
  init := emptyQueue clock
  step := step

end ProjectVault.Notifications
