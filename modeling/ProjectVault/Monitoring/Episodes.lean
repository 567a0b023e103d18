import ProjectVault.Monitoring.HealthCheck

/-!
Down episodes of a service endpoint over its runs.
-/

namespace Monitoring

/-! ### The law -/

/-- The columns of the edits. -/
def ServiceEndpoint.edited (row : ServiceEndpoint) :
    String × String × ℕ × ℕ × Option ℕ × Option ℕ :=
  (row.name, row.url, row.checkFrequencyMinutes, row.downThresholdFailures,
    row.healthCheckPausedAt, row.healthCheckPausedBy)

/-- The alert a result owes: it takes the endpoint down, or ends a run of `down` by a success. -/
def AppliedResult.due (x : AppliedResult) : Option MonitoringAlertType :=
  if x.before.status ≠ .down ∧ x.after.status = .down then some .down
  else if x.before.status = .down ∧ x.input.result.isHealthy = true then some .recovery
  else none

lemma AppliedResult.due_eq_down {x : AppliedResult} (h : x.due = some .down) :
    x.before.status ≠ .down ∧ x.after.status = .down := by
  unfold AppliedResult.due at h
  by_cases hdown : x.before.status ≠ .down ∧ x.after.status = .down
  · exact hdown
  · rw [if_neg hdown] at h
    split_ifs at h
    simp at h

lemma AppliedResult.due_eq_recovery {x : AppliedResult} (h : x.due = some .recovery) :
    x.before.status = .down ∧ x.input.result.isHealthy = true := by
  unfold AppliedResult.due at h
  by_cases hends : x.before.status = .down ∧ x.input.result.isHealthy = true
  · exact hends
  · rw [if_neg hends] at h
    split_ifs at h
    simp at h

/-- The status the results leave. -/
def statusAfter : List AppliedResult → ServiceEndpointStatus
  | [] => .healthy
  | x :: _ => x.after.status

/-- Each result finds the status the one before it left. -/
def Chained : List AppliedResult → Prop
  | [] => True
  | x :: older => x.before.status = statusAfter older ∧ Chained older

/-- The maximal runs of `down`. -/
def downRuns : List AppliedResult → ℕ
  | [] => 0
  | x :: older =>
    downRuns older + if statusAfter older ≠ .down ∧ x.after.status = .down then 1 else 0

/-- The maximal runs of `down` that a success has ended. -/
def endedRuns : List AppliedResult → ℕ
  | [] => 0
  | x :: older =>
    endedRuns older +
      if statusAfter older = .down ∧ x.input.result.isHealthy = true then 1 else 0

/-- The results since the last success. -/
def trailingFailures (history : List HealthCheck) : ℕ :=
  (history.takeWhile fun check => !check.result.isHealthy).length

/-- The number of alerts of a type. -/
def alertCount (alertType : MonitoringAlertType) (alerts : List MonitoringAlert) : ℕ :=
  alerts.countP fun alert => alert.alertType = alertType

/-- Health-check episodes as they should be. -/
structure MonitoringWorld.Lawful (w : MonitoringWorld) : Prop where
  status : ∀ c ∈ w.row,
    c.status = statusForConsecutiveFailures c.consecutiveFailures c.downThresholdFailures
  /-- The history has each committed result once, and the count follows it. -/
  history : ∀ c ∈ w.row, w.history = w.log.map fun x => x.input.check
  counted : ∀ c ∈ w.row, c.consecutiveFailures = trailingFailures w.history
  /-- The status changes at results only. -/
  current : ∀ c ∈ w.row, c.status = statusAfter w.log
  chained : Chained w.log
  alerts : ∀ x ∈ w.log, x.raised.map MonitoringAlert.alertType = x.due
  downAlerts : alertCount .down w.alerts = downRuns w.log
  recoveries : alertCount .recovery w.alerts = endedRuns w.log
  edits : ∀ x ∈ w.log, x.after.edited = x.before.edited

/-! ### Timely results -/

/-- The result takes the endpoint down. -/
def HealthCheckInput.Begins (input : HealthCheckInput) (c : ServiceEndpoint) : Prop :=
  input.result.isHealthy = false ∧ c.status ≠ .down ∧
    c.downThresholdFailures ≤ c.consecutiveFailures + 1

/-- The result ends a run of `down`. -/
def HealthCheckInput.Ends (input : HealthCheckInput) (c : ServiceEndpoint) : Prop :=
  input.result.isHealthy = true ∧ c.status = .down

instance (input : HealthCheckInput) (c : ServiceEndpoint) : Decidable (input.Begins c) :=
  inferInstanceAs (Decidable (_ ∧ _ ∧ _))

instance (input : HealthCheckInput) (c : ServiceEndpoint) : Decidable (input.Ends c) :=
  inferInstanceAs (Decidable (_ ∧ _))

/-- The row the result was computed from agrees with the row `c` it is committed against: on being
down and, for a failure, on the count and on whether the threshold is reached. A result that
begins or ends a run of `down` comes from the worker, and no alert of the episode it begins is
active or snoozed. -/
structure Timely (worker : Bool) (alerts : List MonitoringAlert) (now : ℕ)
    (input : HealthCheckInput) (c : ServiceEndpoint) : Prop where
  down : input.serviceEndpoint.status = .down ↔ c.status = .down
  count : input.result.isHealthy = false →
    input.serviceEndpoint.consecutiveFailures = c.consecutiveFailures
  threshold : input.result.isHealthy = false →
    (input.serviceEndpoint.downThresholdFailures ≤ c.consecutiveFailures + 1 ↔
      c.downThresholdFailures ≤ c.consecutiveFailures + 1)
  worker : input.Begins c ∨ input.Ends c → worker = true
  unblocked : input.Begins c → Unblocked alerts now input

instance (worker : Bool) (alerts : List MonitoringAlert) (now : ℕ) (input : HealthCheckInput)
    (c : ServiceEndpoint) : Decidable (Timely worker alerts now input c) :=
  decidable_of_iff
    ((input.serviceEndpoint.status = .down ↔ c.status = .down) ∧
      (input.result.isHealthy = false →
        input.serviceEndpoint.consecutiveFailures = c.consecutiveFailures) ∧
      (input.result.isHealthy = false →
        (input.serviceEndpoint.downThresholdFailures ≤ c.consecutiveFailures + 1 ↔
          c.downThresholdFailures ≤ c.consecutiveFailures + 1)) ∧
      (input.Begins c ∨ input.Ends c → worker = true) ∧
      (input.Begins c → Unblocked alerts now input))
    ⟨fun ⟨h₁, h₂, h₃, h₄, h₅⟩ => ⟨h₁, h₂, h₃, h₄, h₅⟩, fun ⟨h₁, h₂, h₃, h₄, h₅⟩ => ⟨h₁, h₂, h₃, h₄, h₅⟩⟩

/-- Results are timely, and an edit of the threshold leaves the stored status right. -/
def Orderly (w : MonitoringWorld) : MonitoringAct → Prop
  | .commits k now =>
    ∀ p ∈ w.probes k, ∀ input ∈ p.input, ∀ c ∈ w.row, Timely p.worker w.alerts now input c
  | .edits updates =>
    ∀ c ∈ w.row,
      statusForConsecutiveFailures c.consecutiveFailures (updates.set c).downThresholdFailures =
        statusForConsecutiveFailures c.consecutiveFailures c.downThresholdFailures
  | _ => True

instance (w : MonitoringWorld) : ∀ a, Decidable (Orderly w a)
  | .commits k now =>
    inferInstanceAs (Decidable (∀ p ∈ w.probes k, ∀ input ∈ p.input, ∀ c ∈ w.row,
      Timely p.worker w.alerts now input c))
  | .edits _ => inferInstanceAs (Decidable (∀ c ∈ w.row, _ = _))
  | .fetches _ _ => isTrue trivial
  | .rereads _ _ _ => isTrue trivial
  | .aborts _ => isTrue trivial
  | .deletes => isTrue trivial
  | .snoozes _ _ => isTrue trivial
  | .dismisses _ => isTrue trivial

section Timely

variable {worker : Bool} {alerts : List MonitoringAlert} {now : ℕ} {input : HealthCheckInput}
  {c : ServiceEndpoint}

/-- The count a result leaves. -/
lemma HealthCheckInput.nextConsecutiveFailures_eq (input : HealthCheckInput) :
    input.transition.nextConsecutiveFailures =
      if input.result.isHealthy then 0 else input.serviceEndpoint.consecutiveFailures + 1 := rfl

lemma HealthCheckInput.nextStatus_of_isHealthy (h : input.result.isHealthy = true) :
    input.transition.nextStatus = .healthy := by
  simp [HealthCheckInput.transition, computeStatusTransition, h]

/-- A failure makes the status that the committed count and threshold ask for. -/
lemma Timely.nextStatus_of_failed (h : Timely worker alerts now input c)
    (hfailed : input.result.isHealthy = false) :
    input.transition.nextStatus =
      statusForConsecutiveFailures (c.consecutiveFailures + 1) c.downThresholdFailures := by
  have hnext : input.transition.nextStatus = statusForConsecutiveFailures
      (input.serviceEndpoint.consecutiveFailures + 1)
      input.serviceEndpoint.downThresholdFailures := by
    simp [HealthCheckInput.transition, computeStatusTransition, hfailed]
  rw [hnext, h.count hfailed]
  exact statusForConsecutiveFailures_succ_congr (h.threshold hfailed)

/-- The row a timely result leaves has the status of its count and threshold. -/
lemma Timely.status (h : Timely worker alerts now input c) :
    (input.apply c).status = statusForConsecutiveFailures (input.apply c).consecutiveFailures
      (input.apply c).downThresholdFailures := by
  change input.transition.nextStatus =
    statusForConsecutiveFailures input.transition.nextConsecutiveFailures c.downThresholdFailures
  rw [input.nextConsecutiveFailures_eq]
  cases hhealthy : input.result.isHealthy with
  | true => exact HealthCheckInput.nextStatus_of_isHealthy hhealthy
  | false => simpa [h.count hhealthy] using h.nextStatus_of_failed hhealthy

lemma Timely.counted (h : Timely worker alerts now input c) {history : List HealthCheck}
    (hcount : c.consecutiveFailures = trailingFailures history) :
    (input.apply c).consecutiveFailures = trailingFailures (input.check :: history) := by
  change input.transition.nextConsecutiveFailures = _
  rw [input.nextConsecutiveFailures_eq, trailingFailures, List.takeWhile_cons]
  cases hhealthy : input.result.isHealthy with
  | true => simp [HealthCheckInput.check, hhealthy]
  | false =>
    rw [h.count hhealthy, hcount]
    simp [HealthCheckInput.check, hhealthy, trailingFailures]

/-- A timely result begins a run of `down` exactly if its row says so. -/
lemma Timely.begins_iff (h : Timely worker alerts now input c) :
    input.Begins c ↔ c.status ≠ .down ∧ input.transition.nextStatus = .down := by
  cases hhealthy : input.result.isHealthy with
  | true => simp [HealthCheckInput.Begins, HealthCheckInput.nextStatus_of_isHealthy, hhealthy]
  | false =>
    rw [h.nextStatus_of_failed hhealthy, statusForConsecutiveFailures_succ]
    simp [HealthCheckInput.Begins, hhealthy]

lemma Timely.alertFired_eq (h : Timely worker alerts now input c)
    (raised : Option MonitoringAlert) :
    input.transition.alertFired = AppliedResult.due ⟨input, c, input.apply c, raised⟩ := by
  change alertFiredBetween input.serviceEndpoint.status input.transition.nextStatus =
    if c.status ≠ .down ∧ input.transition.nextStatus = .down then some .down
    else if c.status = .down ∧ input.result.isHealthy = true then some .recovery else none
  have hhealthy : input.transition.nextStatus = .healthy ↔ input.result.isHealthy = true := by
    refine ⟨fun hnext => ?_, HealthCheckInput.nextStatus_of_isHealthy⟩
    cases hres : input.result.isHealthy with
    | true => rfl
    | false =>
      rw [h.nextStatus_of_failed hres, statusForConsecutiveFailures_succ] at hnext
      split_ifs at hnext
  simp only [alertFiredBetween, ne_eq, h.down, hhealthy]

/-- A timely result raises exactly the alert it owes. -/
lemma Timely.raised_eq (h : Timely worker alerts now input c) :
    ((if worker then input.raise alerts now else none).map MonitoringAlert.alertType) =
      input.transition.alertFired := by
  cases hfired : input.transition.alertFired with
  | none =>
    split_ifs
    · simp [HealthCheckInput.raise, hfired]
    · rfl
  | some alertFired =>
    have hdue := (h.alertFired_eq none).symm.trans hfired
    have hbegins : alertFired = .down → input.Begins c := by
      rintro rfl
      exact h.begins_iff.2 (AppliedResult.due_eq_down hdue)
    have hworker : worker = true := by
      refine h.worker ?_
      cases alertFired with
      | down => exact Or.inl (hbegins rfl)
      | recovery =>
        obtain ⟨hdown, hhealthy⟩ := AppliedResult.due_eq_recovery hdue
        exact Or.inr ⟨hhealthy, hdown⟩
    obtain ⟨alert, hraise, htype⟩ := HealthCheckInput.raise_of_unblocked hfired
      fun hdown => h.unblocked (hbegins hdown)
    rw [if_pos hworker, hraise, Option.map_some, htype]

end Timely

/-! ### Runs -/

section Steps

variable {w w' : MonitoringWorld}

/-- A change of the alerts that keeps their types. -/
lemma alertCount_map {f : MonitoringAlert → MonitoringAlert}
    (hf : ∀ alert, (f alert).alertType = alert.alertType) (alertType : MonitoringAlertType)
    (alerts : List MonitoringAlert) :
    alertCount alertType (alerts.map f) = alertCount alertType alerts := by
  simp only [alertCount, List.countP_map, Function.comp_def, hf]

lemma alertCount_append (alertType : MonitoringAlertType) (raised : Option MonitoringAlert)
    (alerts : List MonitoringAlert) :
    alertCount alertType (raised.toList ++ alerts) = alertCount alertType alerts +
      if raised.map MonitoringAlert.alertType = some alertType then 1 else 0 := by
  cases raised with
  | none => rfl
  | some alert =>
    simp only [alertCount, Option.toList_some, List.cons_append, List.nil_append,
      List.countP_cons, Option.map_some, Option.some.injEq, decide_eq_true_eq]

/-- The law does not depend on the checks under way. -/
lemma MonitoringWorld.Lawful.setProbe (h : w.Lawful) (k : ℕ) (p : Option Probe) :
    (w.setProbe k p).Lawful :=
  ⟨h.status, h.history, h.counted, h.current, h.chained, h.alerts, h.downAlerts, h.recoveries,
    h.edits⟩

lemma MonitoringWorld.Lawful.setAlert (h : w.Lawful) (alertId : ℕ)
    {f : MonitoringAlert → MonitoringAlert} (hf : ∀ alert, (f alert).alertType = alert.alertType) :
    (w.setAlert alertId f).Lawful := by
  have hcount : ∀ t, alertCount t (w.setAlert alertId f).alerts = alertCount t w.alerts := by
    refine fun t => alertCount_map (fun alert => ?_) t w.alerts
    split_ifs
    · exact hf alert
    · rfl
  exact ⟨h.status, h.history, h.counted, h.current, h.chained, h.alerts,
    (hcount .down).trans h.downAlerts, (hcount .recovery).trans h.recoveries, h.edits⟩

/-- Nothing is left to say about the row of a deleted endpoint. -/
lemma MonitoringWorld.Lawful.deleted (h : w.Lawful) :
    MonitoringWorld.Lawful
      { w with row := none, history := [], alerts := w.alerts.map MonitoringAlert.detach } where
  status := nofun
  history := nofun
  counted := nofun
  current := nofun
  chained := h.chained
  alerts := h.alerts
  downAlerts := (alertCount_map (f := MonitoringAlert.detach) (fun _ => rfl) .down w.alerts).trans h.downAlerts
  recoveries := (alertCount_map (f := MonitoringAlert.detach) (fun _ => rfl) .recovery w.alerts).trans h.recoveries
  edits := h.edits

/-- An edit that leaves the status right. -/
lemma MonitoringWorld.Lawful.edited (h : w.Lawful) {c : ServiceEndpoint} (hrow : w.row = some c)
    {updates : EndpointUpdates}
    (hkeeps : statusForConsecutiveFailures c.consecutiveFailures
        (updates.set c).downThresholdFailures =
      statusForConsecutiveFailures c.consecutiveFailures c.downThresholdFailures) :
    MonitoringWorld.Lawful { w with row := some (updates.set c) } where
  status c' hc' := by
    cases hc'
    change c.status = statusForConsecutiveFailures c.consecutiveFailures _
    rw [hkeeps]
    exact h.status c hrow
  history c' hc' := h.history c hrow
  counted c' hc' := by
    cases hc'
    exact h.counted c hrow
  current c' hc' := by
    cases hc'
    exact h.current c hrow
  chained := h.chained
  alerts := h.alerts
  downAlerts := h.downAlerts
  recoveries := h.recoveries
  edits := h.edits

/-- **A timely result** keeps the law. -/
lemma MonitoringWorld.Lawful.commit (h : w.Lawful) {k now : ℕ} {worker : Bool}
    {input : HealthCheckInput} {c : ServiceEndpoint} (hrow : w.row = some c)
    (htimely : Timely worker w.alerts now input c) : (w.commit k now worker input c).Lawful := by
  have hcurrent := h.current c hrow
  have hraised := htimely.raised_eq.trans (htimely.alertFired_eq
    (if worker then input.raise w.alerts now else none))
  constructor
  · intro c' hc'
    cases hc'
    exact htimely.status
  · intro c' hc'
    exact congrArg (input.check :: ·) (h.history c hrow)
  · intro c' hc'
    cases hc'
    exact htimely.counted (h.counted c hrow)
  · intro c' hc'
    cases hc'
    rfl
  · exact ⟨hcurrent, h.chained⟩
  · exact List.forall_mem_cons.2 ⟨hraised, h.alerts⟩
  · change alertCount .down (Option.toList _ ++ w.alerts) = downRuns w.log + _
    rw [alertCount_append, h.downAlerts, hraised]
    simp only [AppliedResult.due, ← hcurrent]
    split_ifs <;> simp_all
  · change alertCount .recovery (Option.toList _ ++ w.alerts) = endedRuns w.log + _
    rw [alertCount_append, h.recoveries, hraised]
    simp only [AppliedResult.due, ← hcurrent]
    split_ifs <;> simp_all
  · exact List.forall_mem_cons.2 ⟨rfl, h.edits⟩

/-- **One step** keeps the law. -/
lemma MonitoringWorld.Lawful.step (h : w.Lawful) {a : MonitoringAct} (hok : Orderly w a)
    (hstep : w.step a = some w') : w'.Lawful := by
  cases a with
  | fetches k worker =>
    simp only [MonitoringWorld.step] at hstep
    split at hstep
    · cases hstep
      exact h.setProbe k _
    · simp at hstep
  | rereads k result checkedAt =>
    simp only [MonitoringWorld.step] at hstep
    split at hstep
    · split at hstep
      all_goals
        cases hstep
        exact h.setProbe k _
    · simp at hstep
  | commits k now =>
    simp only [MonitoringWorld.step] at hstep
    split at hstep
    · rename_i worker _ input c hprobe hrow
      split_ifs at hstep
      cases hstep
      exact h.commit hrow (hok _ hprobe input rfl c hrow)
    · simp at hstep
  | aborts k =>
    simp only [MonitoringWorld.step] at hstep
    split at hstep
    · cases hstep
      exact h.setProbe k _
    · simp at hstep
  | edits updates =>
    simp only [MonitoringWorld.step] at hstep
    split at hstep
    · rename_i c hrow
      split_ifs at hstep
      cases hstep
      exact h.edited hrow (hok c hrow)
    · simp at hstep
  | deletes =>
    simp only [MonitoringWorld.step] at hstep
    split at hstep
    · cases hstep
      exact h.deleted
    · simp at hstep
  | snoozes alertId until_ =>
    cases hstep
    refine h.setAlert alertId fun alert => ?_
    unfold MonitoringAlert.snooze
    split_ifs <;> rfl
  | dismisses alertId =>
    cases hstep
    exact h.setAlert alertId fun _ => rfl

end Steps

lemma NewEndpoint.lawful (new : NewEndpoint) : (monitoring new).init.Lawful := by
  have hrow : ∀ c ∈ (monitoring new).init.row, c = new.row := by
    intro c hc
    exact (Option.some.inj hc).symm
  constructor
  · intro c hc
    rw [hrow c hc, new.status, new.consecutiveFailures, statusForConsecutiveFailures_zero]
  · intro c hc
    simp [monitoring]
  · intro c hc
    rw [hrow c hc, new.consecutiveFailures]
    rfl
  · intro c hc
    rw [hrow c hc, new.status]
    rfl
  · trivial
  · simp [monitoring]
  · rfl
  · rfl
  · simp [monitoring]

/-- **Episodes are lawful**, in every committed state of every run whose results are timely and
whose edits leave the status right. -/
theorem episodes_lawful (new : NewEndpoint) (w : MonitoringWorld)
    (h : (monitoring new).Reaches Orderly w) : w.Lawful :=
  Run.System.Reaches.invariant (P := MonitoringWorld.Lawful) new.lawful
    (fun _ _ _ hlaw hok hstep => hlaw.step hok hstep) h

/-! ### Sample runs -/

/-- An endpoint that is down after `threshold` failures. -/
def sampleEndpoint (threshold : ℕ) : NewEndpoint where
  row := { id := 1, name := "api", url := "https://api", downThresholdFailures := threshold }
  status := rfl
  consecutiveFailures := rfl

def failure : ProbeResult := ⟨false, some 503, 20, some .httpError⟩

def success : ProbeResult := ⟨true, some 200, 20, none⟩

/-- A check of the worker from its query to its commit. -/
def wholeCheck (k : ℕ) (result : ProbeResult) (now : ℕ) : List MonitoringAct :=
  [.fetches k true, .rereads k result now, .commits k now]

/-- A failure beside a rename and a lower threshold, one more, a result that a pause discards, and
the recovery. -/
theorem episodes_lawful_recovery :
    ∃ w, (monitoring (sampleEndpoint 3)).Reaches Orderly w ∧
      w.alerts.map (fun alert => (alert.alertType, alert.episodeKey)) =
        [(.recovery, ⟨1, 20⟩), (.down, ⟨1, 20⟩)] ∧ w.Lawful := by
  obtain ⟨w, hexec, halerts⟩ := Run.System.exists_of_exec (monitoring (sampleEndpoint 3)) Orderly
    (monitoring (sampleEndpoint 3)).init
    ([.fetches 0 true, .rereads 0 failure 10, .edits { name := some "API" }, .commits 0 10,
      .edits { downThresholdFailures := some 2 }] ++
      wholeCheck 1 failure 20 ++
      [.fetches 2 true, .edits { healthCheckPaused := some (some (25, 7)) }, .rereads 2 success 30,
        .edits { healthCheckPaused := some none }] ++
      wholeCheck 3 success 40)
    (fun w => w.alerts.map (fun alert => (alert.alertType, alert.episodeKey)) =
      [(.recovery, ⟨1, 20⟩), (.down, ⟨1, 20⟩)]) (by decide)
  have hreach := Run.System.steps_of_exec hexec
  exact ⟨w, hreach, halerts, episodes_lawful _ w hreach⟩

/-- Runs of an endpoint with the threshold 2: an edit of the threshold that leaves the status as it
is, two failures that overlap, and a success that was read before the endpoint went down. -/
theorem episodes_unlawful :
    (∃ w, (monitoring (sampleEndpoint 2)).Reaches (fun _ _ => True) w ∧
      (∃ c ∈ w.row, c.status ≠
        statusForConsecutiveFailures c.consecutiveFailures c.downThresholdFailures) ∧
      ¬ w.Lawful) ∧
    (∃ w, (monitoring (sampleEndpoint 2)).Reaches (fun _ _ => True) w ∧
      (∃ c ∈ w.row, c.consecutiveFailures = 1 ∧ trailingFailures w.history = 2) ∧ ¬ w.Lawful) ∧
    ∃ w, (monitoring (sampleEndpoint 2)).Reaches (fun _ _ => True) w ∧
      (endedRuns w.log = 1 ∧ alertCount .recovery w.alerts = 0) ∧ ¬ w.Lawful := by
  refine ⟨?_, ?_, ?_⟩
  · obtain ⟨w, hexec, hP⟩ := Run.System.exists_of_exec (monitoring (sampleEndpoint 2))
      (fun _ _ => True) (monitoring (sampleEndpoint 2)).init
      (wholeCheck 0 failure 10 ++ [.edits { downThresholdFailures := some 1 }])
      (fun w => ∃ c ∈ w.row, c.status ≠
        statusForConsecutiveFailures c.consecutiveFailures c.downThresholdFailures) (by decide)
    obtain ⟨c, hc, hne⟩ := id hP
    exact ⟨w, Run.System.steps_of_exec hexec, hP, fun hlaw => hne (hlaw.status c hc)⟩
  · obtain ⟨w, hexec, hP⟩ := Run.System.exists_of_exec (monitoring (sampleEndpoint 2))
      (fun _ _ => True) (monitoring (sampleEndpoint 2)).init
      [.fetches 0 true, .fetches 1 true, .rereads 0 failure 10, .rereads 1 failure 11,
        .commits 0 12, .commits 1 13]
      (fun w => ∃ c ∈ w.row, c.consecutiveFailures = 1 ∧ trailingFailures w.history = 2)
      (by decide)
    obtain ⟨c, hc, hone, htwo⟩ := id hP
    refine ⟨w, Run.System.steps_of_exec hexec, hP, fun hlaw => ?_⟩
    have hcounted := hlaw.counted c hc
    omega
  · obtain ⟨w, hexec, hP⟩ := Run.System.exists_of_exec (monitoring (sampleEndpoint 2))
      (fun _ _ => True) (monitoring (sampleEndpoint 2)).init
      (wholeCheck 0 failure 10 ++ [.fetches 1 true] ++ wholeCheck 2 failure 20 ++
        [.rereads 1 success 30, .commits 1 30])
      (fun w => endedRuns w.log = 1 ∧ alertCount .recovery w.alerts = 0) (by decide)
    refine ⟨w, Run.System.steps_of_exec hexec, hP, fun hlaw => ?_⟩
    have hrecoveries := hlaw.recoveries
    omega

end Monitoring
