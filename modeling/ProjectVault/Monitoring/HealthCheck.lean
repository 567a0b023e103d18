import ProjectVault.Run.System

/-!
Health checks of a service endpoint (`monitoring/service.ts`, `workers/monitoring-alert-shared.ts`,
`workers/monitoring-health-check.ts`).
-/

namespace Monitoring

/-! ### Transitions -/

inductive ServiceEndpointStatus where
  | healthy | degraded | down
  deriving DecidableEq

/-- `service.down` and `service.recovery`. -/
inductive MonitoringAlertType where
  | down | recovery
  deriving DecidableEq

/-- `statusForConsecutiveFailures`. -/
def statusForConsecutiveFailures (consecutiveFailures downThresholdFailures : ℕ) :
    ServiceEndpointStatus :=
  if consecutiveFailures ≤ 0 then .healthy
  else if consecutiveFailures ≥ downThresholdFailures then .down
  else .degraded

/-- `StatusTransitionInput`. -/
structure StatusTransitionInput where
  currentStatus : ServiceEndpointStatus
  consecutiveFailures : ℕ
  downThresholdFailures : ℕ
  isHealthy : Bool

/-- `StatusTransitionResult`. -/
structure StatusTransitionResult where
  nextStatus : ServiceEndpointStatus
  nextConsecutiveFailures : ℕ
  alertFired : Option MonitoringAlertType

/-- The alert of a transition. -/
def alertFiredBetween (currentStatus nextStatus : ServiceEndpointStatus) :
    Option MonitoringAlertType :=
  if currentStatus ≠ .down ∧ nextStatus = .down then some .down
  else if currentStatus = .down ∧ nextStatus = .healthy then some .recovery
  else none

/-- `computeStatusTransition`. -/
def computeStatusTransition (input : StatusTransitionInput) : StatusTransitionResult :=
  let nextConsecutiveFailures := if input.isHealthy then 0 else input.consecutiveFailures + 1
  let nextStatus :=
    statusForConsecutiveFailures nextConsecutiveFailures input.downThresholdFailures
  { nextStatus := nextStatus,
    nextConsecutiveFailures := nextConsecutiveFailures,
    alertFired := alertFiredBetween input.currentStatus nextStatus }

/-- The text `endpoint:time` of `episodeKeyFor`, as the pair it is made of. -/
structure EpisodeKey where
  serviceEndpointId : ℕ
  downTransitionAt : ℕ
  deriving DecidableEq

/-- `episodeKeyFor`; times are milliseconds. -/
def episodeKeyFor (serviceEndpointId downTransitionAt : ℕ) : EpisodeKey :=
  ⟨serviceEndpointId, downTransitionAt⟩

/-! ### Rows -/

/-- A row of `service_endpoints`. -/
structure ServiceEndpoint where
  id : ℕ
  name : String
  url : String
  checkFrequencyMinutes : ℕ := 5
  downThresholdFailures : ℕ := 2
  status : ServiceEndpointStatus := .healthy
  consecutiveFailures : ℕ := 0
  lastCheckedAt : Option ℕ := none
  healthCheckPausedAt : Option ℕ := none
  healthCheckPausedBy : Option ℕ := none
  downEpisodeStartedAt : Option ℕ := none

inductive FailureReason where
  | timeout | httpError | networkError | ssrfBlocked

/-- What a probe found. -/
structure ProbeResult where
  isHealthy : Bool
  statusCode : Option ℕ
  latencyMs : ℕ
  failureReason : Option FailureReason

/-- A row of `endpoint_health_checks`. -/
structure HealthCheck where
  serviceEndpointId : ℕ
  result : ProbeResult
  checkedAt : ℕ

/-- `endpoint_health_checks_failure_reason_check`. -/
def HealthCheck.failureReasonCheck (check : HealthCheck) : Bool :=
  check.result.isHealthy = check.result.failureReason.isNone

inductive AlertStatus where
  | active | snoozed | dismissed | resolvedByDeletion
  deriving DecidableEq

inductive Severity where
  | info | warning | critical

/-- A row of `monitoring_alerts`; the ids number the rows. -/
structure MonitoringAlert where
  id : ℕ
  serviceEndpointId : Option ℕ
  alertType : MonitoringAlertType
  severity : Severity
  episodeKey : EpisodeKey
  status : AlertStatus := .active
  snoozedUntil : Option ℕ := none

/-! ### `applyHealthCheckResult` -/

/-- The row the caller read, the result of its probe, and the time of the check. -/
structure HealthCheckInput where
  serviceEndpoint : ServiceEndpoint
  result : ProbeResult
  checkedAt : ℕ

/-- The row that is inserted. -/
def HealthCheckInput.check (input : HealthCheckInput) : HealthCheck :=
  ⟨input.serviceEndpoint.id, input.result, input.checkedAt⟩

/-- The transition, computed from the row the caller read. -/
def HealthCheckInput.transition (input : HealthCheckInput) : StatusTransitionResult :=
  computeStatusTransition
    { currentStatus := input.serviceEndpoint.status,
      consecutiveFailures := input.serviceEndpoint.consecutiveFailures,
      downThresholdFailures := input.serviceEndpoint.downThresholdFailures,
      isHealthy := input.result.isHealthy }

/-- `downEpisodeStartedAt` as it is written. -/
def HealthCheckInput.downEpisodeStartedAt (input : HealthCheckInput) : Option ℕ :=
  match input.transition.alertFired with
  | some .down => some input.checkedAt
  | some .recovery => none
  | none => input.serviceEndpoint.downEpisodeStartedAt

/-- The `episodeKey` it returns. -/
def HealthCheckInput.episodeKey (input : HealthCheckInput) : Option EpisodeKey :=
  match input.transition.alertFired with
  | some .down => some (episodeKeyFor input.serviceEndpoint.id input.checkedAt)
  | some .recovery =>
    some (episodeKeyFor input.serviceEndpoint.id
      (input.serviceEndpoint.downEpisodeStartedAt.getD input.checkedAt))
  | none =>
    if input.serviceEndpoint.status ≠ .healthy then
      input.serviceEndpoint.downEpisodeStartedAt.map (episodeKeyFor input.serviceEndpoint.id)
    else none

/-- The update of the row, in the version it finds. -/
def HealthCheckInput.apply (input : HealthCheckInput) (row : ServiceEndpoint) : ServiceEndpoint :=
  { row with
    status := input.transition.nextStatus,
    consecutiveFailures := input.transition.nextConsecutiveFailures,
    lastCheckedAt := some input.checkedAt,
    downEpisodeStartedAt := input.downEpisodeStartedAt }

/-- The row of the endpoint, unless it is paused. -/
def unpaused (row : Option ServiceEndpoint) : Option ServiceEndpoint :=
  row.filter fun c => c.healthCheckPausedAt.isNone

/-! ### Alerts -/

/-- A row the statement of the dedup selects. -/
def MonitoringAlert.sameEpisode (serviceEndpointId : ℕ) (episodeKey : EpisodeKey)
    (alert : MonitoringAlert) : Bool :=
  alert.serviceEndpointId = some serviceEndpointId && alert.episodeKey = episodeKey &&
    (alert.status = .active || alert.status = .snoozed)

/-- A selected row that is active or still snoozed. -/
def MonitoringAlert.blocks (now : ℕ) (alert : MonitoringAlert) : Bool :=
  (alert.status = .snoozed && alert.snoozedUntil.any fun t => t > now) || alert.status = .active

/-- `createMonitoringAlertIfNotDeduped`: the row it inserts. -/
def createMonitoringAlertIfNotDeduped (alerts : List MonitoringAlert) (now serviceEndpointId : ℕ)
    (alertType : MonitoringAlertType) (severity : Severity) (episodeKey : EpisodeKey) :
    Option MonitoringAlert :=
  if alertType = .down ∧
      ((alerts.find? (·.sameEpisode serviceEndpointId episodeKey)).any (·.blocks now)) = true then
    none
  else
    some { id := alerts.length, serviceEndpointId := some serviceEndpointId,
           alertType := alertType, severity := severity, episodeKey := episodeKey }

/-- The severity of `processDueEndpoint`. -/
def severityOf : MonitoringAlertType → Severity
  | .down => .critical
  | .recovery => .info

/-- The alert `processDueEndpoint` raises after `applyHealthCheckResult`. -/
def HealthCheckInput.raise (input : HealthCheckInput) (alerts : List MonitoringAlert) (now : ℕ) :
    Option MonitoringAlert :=
  match input.transition.alertFired, input.episodeKey with
  | some alertFired, some episodeKey =>
    createMonitoringAlertIfNotDeduped alerts now input.serviceEndpoint.id alertFired
      (severityOf alertFired) episodeKey
  | _, _ => none

/-! ### Edits -/

/-- The columns `updateServiceEndpoint` sets. -/
structure EndpointUpdates where
  name : Option String := none
  url : Option String := none
  checkFrequencyMinutes : Option ℕ := none
  downThresholdFailures : Option ℕ := none
  healthCheckPaused : Option (Option (ℕ × ℕ)) := none

/-- The update of `updateServiceEndpoint`; a pause sets its time and its user. -/
def EndpointUpdates.set (updates : EndpointUpdates) (row : ServiceEndpoint) : ServiceEndpoint :=
  { row with
    name := updates.name.getD row.name,
    url := updates.url.getD row.url,
    checkFrequencyMinutes := updates.checkFrequencyMinutes.getD row.checkFrequencyMinutes,
    downThresholdFailures := updates.downThresholdFailures.getD row.downThresholdFailures,
    healthCheckPausedAt :=
      (updates.healthCheckPaused.map (Option.map Prod.fst)).getD row.healthCheckPausedAt,
    healthCheckPausedBy :=
      (updates.healthCheckPaused.map (Option.map Prod.snd)).getD row.healthCheckPausedBy }

/-- `service_endpoints_down_threshold_check`. -/
def ServiceEndpoint.downThresholdCheck (row : ServiceEndpoint) : Bool :=
  1 ≤ row.downThresholdFailures && row.downThresholdFailures ≤ 10

/-- `resolveMonitoringAlertsForEndpointDeletion`, then the `ON DELETE SET NULL` of the endpoint. -/
def MonitoringAlert.detach (alert : MonitoringAlert) : MonitoringAlert :=
  { alert with
    status := if alert.status = .active ∨ alert.status = .snoozed then .resolvedByDeletion
      else alert.status,
    serviceEndpointId := none }

/-- `snoozeMonitoringAlert`. -/
def MonitoringAlert.snooze (until_ : ℕ) (alert : MonitoringAlert) : MonitoringAlert :=
  if alert.status = .dismissed then alert
  else { alert with status := .snoozed, snoozedUntil := some until_ }

/-- `dismissMonitoringAlert`. -/
def MonitoringAlert.dismiss (alert : MonitoringAlert) : MonitoringAlert :=
  { alert with status := .dismissed }

/-! ### Transactions -/

/-- A check under way: the row its caller read, and from the second read of the transaction on the
input of `applyHealthCheckResult`. The worker raises the alert that is fired; a call of the
extension host hands it to the extension. -/
structure Probe where
  worker : Bool
  serviceEndpoint : ServiceEndpoint
  input : Option HealthCheckInput

/-- A committed result: the row it found and the row it left, and the alert it raised. -/
structure AppliedResult where
  input : HealthCheckInput
  before : ServiceEndpoint
  after : ServiceEndpoint
  raised : Option MonitoringAlert

/-- The committed tables of one endpoint (rows newest first), the checks under way, and the results
committed so far (newest first). -/
structure MonitoringWorld where
  row : Option ServiceEndpoint
  history : List HealthCheck
  alerts : List MonitoringAlert
  probes : ℕ → Option Probe
  log : List AppliedResult

/-- What the parties do. -/
inductive MonitoringAct where
  | fetches (k : ℕ) (worker : Bool)
  | rereads (k : ℕ) (result : ProbeResult) (checkedAt : ℕ)
  | commits (k now : ℕ)
  | aborts (k : ℕ)
  | edits (updates : EndpointUpdates)
  | deletes
  | snoozes (alertId until_ : ℕ)
  | dismisses (alertId : ℕ)

namespace MonitoringWorld

variable (w : MonitoringWorld)

/-- The check `k` is over, or goes on as given. -/
def setProbe (k : ℕ) (p : Option Probe) : MonitoringWorld :=
  { w with probes := Function.update w.probes k p }

/-- A change of one alert. -/
def setAlert (alertId : ℕ) (f : MonitoringAlert → MonitoringAlert) : MonitoringWorld :=
  { w with alerts := w.alerts.map fun alert => if alert.id = alertId then f alert else alert }

/-- The rest of the transaction of a check: the insert into the history, whose foreign key keeps
the endpoint from being deleted, the update, which holds the row from there on, the alert, and the
commit. -/
def commit (k now : ℕ) (worker : Bool) (input : HealthCheckInput) (row : ServiceEndpoint) :
    MonitoringWorld :=
  let raised := if worker then input.raise w.alerts now else none
  { row := some (input.apply row),
    history := input.check :: w.history,
    alerts := raised.toList ++ w.alerts,
    probes := Function.update w.probes k none,
    log := ⟨input, row, input.apply row, raised⟩ :: w.log }

/-- One step. -/
def step : MonitoringAct → Option MonitoringWorld
  | .fetches k worker =>
    match w.probes k, w.row with
    | none, some row => some (w.setProbe k (some ⟨worker, row, none⟩))
    | _, _ => none
  | .rereads k result checkedAt =>
    match w.probes k with
    | some ⟨worker, row, none⟩ =>
      match unpaused w.row with
      -- a paused or deleted endpoint: the transaction ends without a write
      | none => some (w.setProbe k none)
      | some _ => some (w.setProbe k (some ⟨worker, row, some ⟨row, result, checkedAt⟩⟩))
    | _ => none
  | .commits k now =>
    match w.probes k, w.row with
    | some ⟨worker, _, some input⟩, some row =>
      if input.check.failureReasonCheck then some (w.commit k now worker input row) else none
    | _, _ => none
  | .aborts k =>
    match w.probes k with
    | some _ => some (w.setProbe k none)
    | none => none
  | .edits updates =>
    match w.row with
    | some row =>
      if (updates.set row).downThresholdCheck then some { w with row := some (updates.set row) }
      else none
    | none => none
  | .deletes =>
    match w.row with
    | some _ =>
      some { w with row := none, history := [], alerts := w.alerts.map MonitoringAlert.detach }
    | none => none
  | .snoozes alertId until_ => some (w.setAlert alertId (MonitoringAlert.snooze until_))
  | .dismisses alertId => some (w.setAlert alertId MonitoringAlert.dismiss)

end MonitoringWorld

/-- `createServiceEndpoint`: a new endpoint is healthy. -/
structure NewEndpoint where
  row : ServiceEndpoint
  status : row.status = .healthy
  consecutiveFailures : row.consecutiveFailures = 0

/-- The transactions of an endpoint from its creation on. -/
def monitoring (new : NewEndpoint) : Run.System MonitoringWorld MonitoringAct where
  init := ⟨some new.row, [], [], fun _ => none, []⟩
  step := MonitoringWorld.step

/-! ### What the decisions do -/

@[simp] lemma statusForConsecutiveFailures_zero (threshold : ℕ) :
    statusForConsecutiveFailures 0 threshold = .healthy := rfl

lemma statusForConsecutiveFailures_succ (n threshold : ℕ) :
    statusForConsecutiveFailures (n + 1) threshold =
      if threshold ≤ n + 1 then .down else .degraded := by
  simp [statusForConsecutiveFailures]

/-- After a failure the status depends on whether the threshold is reached. -/
lemma statusForConsecutiveFailures_succ_congr {n t t' : ℕ} (h : t ≤ n + 1 ↔ t' ≤ n + 1) :
    statusForConsecutiveFailures (n + 1) t = statusForConsecutiveFailures (n + 1) t' := by
  rw [statusForConsecutiveFailures_succ, statusForConsecutiveFailures_succ]
  simp only [h]

lemma HealthCheckInput.episodeKey_isSome {input : HealthCheckInput}
    (h : input.transition.alertFired.isSome = true) : input.episodeKey.isSome = true := by
  unfold HealthCheckInput.episodeKey
  cases hfired : input.transition.alertFired with
  | none => simp [hfired] at h
  | some t => cases t <;> rfl

/-- No alert for the same episode stands in the way of a new one. -/
def Unblocked (alerts : List MonitoringAlert) (now : ℕ) (input : HealthCheckInput) : Prop :=
  ∀ alert ∈ alerts,
    alert.sameEpisode input.serviceEndpoint.id
      (episodeKeyFor input.serviceEndpoint.id input.checkedAt) = true →
    alert.blocks now = false

instance (alerts : List MonitoringAlert) (now : ℕ) (input : HealthCheckInput) :
    Decidable (Unblocked alerts now input) :=
  inferInstanceAs (Decidable (∀ alert ∈ alerts, _))

/-- An alert that is fired is raised, if no other of its episode stands in the way. -/
lemma HealthCheckInput.raise_of_unblocked {input : HealthCheckInput}
    {alerts : List MonitoringAlert} {now : ℕ} {alertFired : MonitoringAlertType}
    (hfired : input.transition.alertFired = some alertFired)
    (hblock : alertFired = .down → Unblocked alerts now input) :
    ∃ alert, input.raise alerts now = some alert ∧ alert.alertType = alertFired := by
  have hsome : input.episodeKey.isSome = true :=
    HealthCheckInput.episodeKey_isSome (by rw [hfired]; rfl)
  obtain ⟨key, hkey⟩ := Option.isSome_iff_exists.1 hsome
  simp only [HealthCheckInput.raise, hfired, hkey, createMonitoringAlertIfNotDeduped]
  split_ifs with hdedup
  · exfalso
    obtain ⟨rfl, hany⟩ := hdedup
    have hdown : key = episodeKeyFor input.serviceEndpoint.id input.checkedAt := by
      rw [HealthCheckInput.episodeKey, hfired] at hkey
      exact (Option.some.inj hkey).symm
    obtain ⟨alert, hfind, hblocks⟩ := (Option.any_eq_true _ _).1 hany
    have hsame := List.find?_some hfind
    rw [hdown] at hsame
    rw [hblock rfl alert (List.mem_of_find?_eq_some hfind) hsame] at hblocks
    exact Bool.false_ne_true hblocks
  · exact ⟨_, rfl, rfl⟩

end Monitoring
