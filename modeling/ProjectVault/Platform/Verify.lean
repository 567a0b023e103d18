import ProjectVault.Platform.Deactivation

/-!
Verification of the platform chain (`platform-audit/verify.ts`).
-/

namespace ProjectVault.Platform

open Js Db Audit

/-! ### The verifier -/

/-- `PLATFORM_AUDIT_VERIFY_MAX_RANGE_DAYS`. -/
def platformAuditVerifyMaxRangeDays : ℕ := 90

/-- `PLATFORM_AUDIT_VERIFY_MAX_ROWS`. -/
def platformAuditVerifyMaxRows : ℕ := 50000

/-- `PlatformAuditAction.RETENTION_PURGE_BOUNDARY`. -/
def platformPurgeBoundary : String := "platform_audit.retention_purge_boundary"

/-- `hasAttestedGap` for the platform chain. -/
def hasPlatformAttestedGap (env : PlatformEnv) (db : PlatformDb) (orphanedHash : String) : Bool :=
  db.events.any fun e =>
    e.actionType = platformPurgeBoundary ∧
      payloadText env.toAuditEnv e.payload "attestedGapHash" = some orphanedHash

/-- `evaluatePlatformAuditRow`: the reason a row fails, if it does. -/
def evaluatePlatformAuditRow (env : PlatformEnv) (db : PlatformDb)
    (expectedPreviousHmac : Option String) (row : PlatformAuditEvent) : Option VerifyFailureReason :=
  let hmacOk := hmacMatches row.hmac (computePlatformAuditHmac env row.rebuilt)
  let keyVersionOk := row.keyVersion = env.keyVersion
  let chainOk := row.previousEntryHmac = expectedPreviousHmac ∨
    ∃ orphaned ∈ row.previousEntryHmac, hasPlatformAttestedGap env db orphaned = true
  if hmacOk = false then some .hmacMismatch
  else if ¬ keyVersionOk then some .keyVersionMismatch
  else if ¬ chainOk then some .chainBreak
  else none

/-- Events with `created_at` in `[from, to)`. -/
def inPlatformWindow (fromDate toDate : ℕ) (e : PlatformAuditEvent) : Bool :=
  fromDate ≤ e.createdAt ∧ e.createdAt < toDate

/-- The rows of the range query, before its limit. -/
def PlatformDb.windowRows (db : PlatformDb) (fromDate toDate : ℕ) : List PlatformAuditEvent :=
  sortAsc PlatformAuditEvent.chainSeq (db.events.filter (inPlatformWindow fromDate toDate))

/-- The HMAC of the row right before a row, wherever its `created_at` lies. -/
def PlatformDb.predecessorHmac (db : PlatformDb) (row : PlatformAuditEvent) : Option String :=
  (sortDesc PlatformAuditEvent.chainSeq
    (db.events.filter fun e => e.chainSeq < row.chainSeq)).head?.map (·.hmac)

/-- `verifyPlatformAuditRange`, with the vault unsealed. -/
def verifyPlatformAuditRange (env : PlatformEnv) (db : PlatformDb) (fromDate toDate : ℕ) :
    Except VerifyError (VerifyResult PlatformAuditEvent) := do
  validateVerifyRange fromDate toDate platformAuditVerifyMaxRangeDays
  let rows := (db.windowRows fromDate toDate).take (platformAuditVerifyMaxRows + 1)
  if rows.length > platformAuditVerifyMaxRows then
    throw (.rangeExceedsRows platformAuditVerifyMaxRows)
  let expectedPreviousHmac := rows.head?.bind db.predecessorHmac
  return finalizeVerifyResult rows.length
    (verifyRows (evaluatePlatformAuditRow env db) PlatformAuditEvent.hmac expectedPreviousHmac rows)

lemma predecessorHmac_eq {db : PlatformDb} (hchain : EventChain db.events)
    {before after : List PlatformAuditEvent} {row : PlatformAuditEvent}
    (hsplit : db.events = before ++ row :: after) :
    db.predecessorHmac row = Chain.lastHash PlatformAuditEvent.hmac none before := by
  have hsorted := hchain.sorted
  rw [hsplit] at hsorted
  have hbefore := (List.pairwise_append.1 hsorted).1
  rw [PlatformDb.predecessorHmac, hsplit, filter_lt_eq_of_pairwise _ hsorted,
    head?_sortDesc_eq_getLast? _ hbefore]
  simp [Chain.lastHash]

/-- Within the limits a verification of a chain walks the rows of its window from the row
before them. -/
lemma verifyPlatformAuditRange_eq_walk (env : PlatformEnv) {db : PlatformDb}
    (hchain : EventChain db.events) {fromDate toDate : ℕ} (hfrom : fromDate ≤ toDate)
    (hspan : toDate - fromDate ≤ platformAuditVerifyMaxRangeDays * msPerDay)
    (hrows : (db.windowRows fromDate toDate).length ≤ platformAuditVerifyMaxRows) :
    verifyPlatformAuditRange env db fromDate toDate =
      .ok (finalizeVerifyResult (db.events.filter (inPlatformWindow fromDate toDate)).length
        (verifyRows (evaluatePlatformAuditRow env db) PlatformAuditEvent.hmac
          (Chain.lastHash PlatformAuditEvent.hmac none
            (Chain.beforeWindow (inPlatformWindow fromDate toDate) db.events))
          (db.events.filter (inPlatformWindow fromDate toDate)))) := by
  have hwindow : db.windowRows fromDate toDate =
      db.events.filter (inPlatformWindow fromDate toDate) :=
    sortAsc_eq_self _ (hchain.sorted.filter _)
  have htake : (db.windowRows fromDate toDate).take (platformAuditVerifyMaxRows + 1) =
      db.windowRows fromDate toDate :=
    List.take_of_length_le (by omega)
  have hvalid : validateVerifyRange fromDate toDate platformAuditVerifyMaxRangeDays = .ok () := by
    rw [validateVerifyRange, if_neg (by omega), if_neg (by omega)]
  rw [verifyPlatformAuditRange, hvalid, htake]
  simp only [bind, Except.bind, gt_iff_lt, not_lt.2 hrows, if_false]
  rw [hwindow]
  cases hfilter : db.events.filter (inPlatformWindow fromDate toDate) with
  | nil => rfl
  | cons a rows =>
    obtain ⟨rest, hsplit⟩ := Chain.eq_beforeWindow_append hfilter
    rw [List.head?_cons, Option.bind_some, predecessorHmac_eq hchain hsplit]
    rfl

/-! ### Genuine events -/

/-- An event as a covered call stores it, at once or through the queue. -/
structure PlatformAuditEvent.Genuine (env : PlatformEnv) (e : PlatformAuditEvent) : Prop where
  hmac : e.hmac = computePlatformAuditHmac env e.rebuilt
  keyVersion : e.keyVersion = env.keyVersion
  actionType : e.actionType ≠ platformPurgeBoundary

lemma genuine_row {env : PlatformEnv} (fields : PlatformAuditFields)
    (hop : Plain fields.operatorId) (horg : ∀ u ∈ fields.targetOrgId, Plain u)
    (huser : ∀ u ∈ fields.targetUserId, Plain u)
    (haction : fields.actionType ≠ platformPurgeBoundary) {payload : List (String × Json)}
    (hpayload : SurvivesJsonb env payload) (prev : Option String) (createdAt chainSeq : ℕ)
    (drainedFrom : Option ℕ) :
    (fields.row env payload prev createdAt chainSeq drainedFrom).Genuine env where
  hmac := by
    rw [computePlatformAuditHmac,
      PlatformAuditFields.canonical_rebuilt hop horg huser hpayload prev createdAt chainSeq drainedFrom]
    rfl
  keyVersion := rfl
  actionType := haction

lemma redactPlatformAuditPayload_nil (env : PlatformEnv) :
    redactPlatformAuditPayload env [] = some [] := by
  simp [redactPlatformAuditPayload, containsForbiddenKey, forbiddenMembers, sanitizeAuditPayload]

lemma survivesJsonb_nil (env : PlatformEnv) : SurvivesJsonb env [] := by
  rw [SurvivesJsonb]
  congr 1

/-- The event of a deactivation by an operator with a plain identifier. -/
lemma genuine_deactivated {env : PlatformEnv} {operatorId : UuidText} (hplain : Plain operatorId)
    {payload : List (String × Json)}
    (hredact : redactPlatformAuditPayload env (deactivatedFields operatorId).payload = some payload)
    (prev : Option String) (createdAt chainSeq : ℕ) :
    ((deactivatedFields operatorId).row env payload prev createdAt chainSeq none).Genuine env := by
  have hnil : payload = [] :=
    Option.some.inj (hredact.symm.trans (redactPlatformAuditPayload_nil env))
  have haction : maintenanceModeDeactivated ≠ platformPurgeBoundary := by
    simp [maintenanceModeDeactivated, platformPurgeBoundary]
  rw [hnil]
  refine genuine_row (deactivatedFields operatorId) hplain ?_ ?_ haction (survivesJsonb_nil env) prev
    createdAt chainSeq none
  · simp [deactivatedFields]
  · simp [deactivatedFields]

/-- The calls whose rows have the digest that was hashed, and that do not attest a purge. -/
def coveredEntry (env : PlatformEnv) : EntrySpec env where
  entry fields := fields.Covered env ∧ fields.actionType ≠ platformPurgeBoundary
  operator := Plain
  good e := e.Genuine env
  operator_of_entry _ hentry := hentry.1.operatorId
  good_direct := by
    intro fields payload prev t n hcases hredact
    cases hcases with
    | inl hentry =>
      exact genuine_row fields hentry.1.operatorId hentry.1.targetOrgId hentry.1.targetUserId hentry.2
        (hentry.1.direct payload hredact) prev t n none
    | inr hdeactivated =>
      obtain ⟨operatorId, hplain, rfl⟩ := hdeactivated
      exact genuine_deactivated hplain hredact prev t n
  good_drained := by
    intro fields payload payload' prev t n m hentry hredact hredact'
    exact genuine_row fields hentry.1.operatorId hentry.1.targetOrgId hentry.1.targetUserId hentry.2
      (hentry.1.drained payload hredact payload' hredact') prev t n (some m)

section Window

variable {env : PlatformEnv} {w : PlatformWorld}

/-- A genuine event fails at its link only. -/
lemma evaluatePlatformAuditRow_eq_none_iff (hinv : PlatformInv (coveredEntry env) w)
    {row : PlatformAuditEvent} (hrow : row ∈ w.db.events) (expected : Option String) :
    evaluatePlatformAuditRow env w.db expected row = none ↔ row.previousEntryHmac = expected := by
  have hgenuine : row.Genuine env := hinv.good row hrow
  have hmatch : hmacMatches row.hmac (computePlatformAuditHmac env row.rebuilt) = true := by
    rw [hgenuine.hmac]
    exact hmacMatches_self _
  have hgap : ∀ orphaned, hasPlatformAttestedGap env w.db orphaned = false := by
    intro orphaned
    rw [hasPlatformAttestedGap, List.any_eq_false]
    intro e he
    have haction := PlatformAuditEvent.Genuine.actionType (hinv.good e he)
    simp [haction]
  simp [evaluatePlatformAuditRow, hmatch, hgenuine.keyVersion, hgap]

/-- No row outside the window stands, in the chain, between two rows inside it. -/
def PlatformDb.WindowConvex (db : PlatformDb) (fromDate toDate : ℕ) : Prop :=
  ∀ a ∈ db.events, ∀ b ∈ db.events, ∀ c ∈ db.events,
    a.chainSeq < b.chainSeq → b.chainSeq < c.chainSeq →
      inPlatformWindow fromDate toDate a = true → inPlatformWindow fromDate toDate c = true →
        inPlatformWindow fromDate toDate b = true

/-- The HMAC has no collision among the digests of the events. -/
def PlatformCollisionFree (env : PlatformEnv) (events : List PlatformAuditEvent) : Prop :=
  ∀ a ∈ events, ∀ b ∈ events,
    env.hmacSha256 (platformCanonical env a.rebuilt) =
        env.hmacSha256 (platformCanonical env b.rebuilt) →
      platformCanonical env a.rebuilt = platformCanonical env b.rebuilt

/-- Without collisions, no two events have one HMAC. -/
lemma nodup_platformHmac (hinv : PlatformInv (coveredEntry env) w)
    (hfree : PlatformCollisionFree env w.db.events) :
    (w.db.events.map PlatformAuditEvent.hmac).Nodup := by
  refine nodup_of_macs (fun e => env.hmacSha256 (platformCanonical env e.rebuilt))
    hinv.chain.linked ?_ ?_
  · exact fun e he => PlatformAuditEvent.Genuine.hmac (hinv.good e he)
  · exact fun a ha b hb heq => previousEntryHmac_eq_of_platformCanonical_eq (hfree a ha b hb heq)

/-- A window is clean if and only if it is linked. -/
lemma verifyPlatformAuditRange_eq (hinv : PlatformInv (coveredEntry env) w) {fromDate toDate : ℕ}
    (hfrom : fromDate ≤ toDate)
    (hspan : toDate - fromDate ≤ platformAuditVerifyMaxRangeDays * msPerDay)
    (hrows : (w.db.windowRows fromDate toDate).length ≤ platformAuditVerifyMaxRows) :
    ∃ r, verifyPlatformAuditRange env w.db fromDate toDate = .ok r ∧
      (r.failedCount = 0 ↔
        Chain.Linked PlatformAuditEvent.previousEntryHmac PlatformAuditEvent.hmac
          (Chain.lastHash PlatformAuditEvent.hmac none
            (Chain.beforeWindow (inPlatformWindow fromDate toDate) w.db.events))
          (w.db.events.filter (inPlatformWindow fromDate toDate))) := by
  refine ⟨_, verifyPlatformAuditRange_eq_walk env hinv.chain hfrom hspan hrows, ?_⟩
  have hlink : ∀ row ∈ w.db.events.filter (inPlatformWindow fromDate toDate), ∀ expected,
      evaluatePlatformAuditRow env w.db expected row = none ↔ row.previousEntryHmac = expected :=
    fun row hrow expected =>
      evaluatePlatformAuditRow_eq_none_iff hinv (List.mem_of_mem_filter hrow) expected
  change (verifyRows _ _ _ _).failedCount = 0 ↔ _
  rw [failedCount_verifyRows_eq_zero_iff, passes_iff_linked hlink]

end Window

/-- After every interleaving of writes, drains and changes of the maintenance mode whose
entries hash what they store, a window within the limits verifies; it reports no failure
if no row outside it stands in the chain between two rows inside it, and, unless two
digests collide, only then. -/
theorem verify_drained_iff (env : PlatformEnv) {s : State PlatformDb PlatformLock PlatformAnswer}
    (h : (sessions (platformJob env) freshPlatform).Reaches (Allows (coveredEntry env)) s)
    (fromDate toDate : ℕ) (hfrom : fromDate ≤ toDate)
    (hspan : toDate - fromDate ≤ platformAuditVerifyMaxRangeDays * msPerDay)
    (hrows : (s.world.db.windowRows fromDate toDate).length ≤ platformAuditVerifyMaxRows) :
    ∃ r, verifyPlatformAuditRange env s.world.db fromDate toDate = .ok r ∧
      (s.world.db.WindowConvex fromDate toDate → r.failedCount = 0) ∧
      (PlatformCollisionFree env s.world.db.events → r.failedCount = 0 →
        s.world.db.WindowConvex fromDate toDate) := by
  have hinv := platformInv_of_reaches (coveredEntry env) h
  obtain ⟨r, hr, hiff⟩ := verifyPlatformAuditRange_eq hinv hfrom hspan hrows
  have hconvex : Chain.Convex (inPlatformWindow fromDate toDate) s.world.db.events ↔
      s.world.db.WindowConvex fromDate toDate :=
    Chain.convex_iff_of_pairwise hinv.chain.sorted
  refine ⟨r, hr, ?_, ?_⟩
  · intro hc
    exact hiff.2 (hinv.chain.linked.filter_of_convex (hconvex.2 hc))
  · intro hfree hzero
    exact hconvex.1 ((Chain.linked_filter_iff hinv.chain.linked (nodup_platformHmac hinv hfree)).1
      (hiff.1 hzero))

/-! ### A late drain -/

/-- A write in session `i` that drains one entry and deactivates the mode. -/
def drainedWrite (i : ℕ) : List (Label PlatformJob) :=
  [[.opens i (.write [plainEntry]), .runs i true],
    [.runs i false, .runs i false], Label.runsFor i 4,
    [.runs i false], Label.runsFor i 2,
    [.runs i false, .runs i false], Label.runsFor i 4,
    Label.runsFor i 1, [.runs i false, .runs i false], Label.runsFor i 6].flatten

/-- An entry is queued at 5 and drained at 10, after an entry of 10. -/
def lateDrain : List (Label PlatformJob) :=
  [activation 0, [.tick 5], queuedWrite 1, [.tick 5], drainedWrite 2].flatten

lemma coveredEntry_plainEntry : (coveredEntry plainPlatformEnv).entry plainEntry := by
  have hplain : Plain alertUuid := by
    rw [Plain]
    decide +kernel
  have haction : plainEntry.actionType ≠ platformPurgeBoundary := by
    simp [plainEntry, platformPurgeBoundary]
  have hnil : ∀ p ∈ redactPlatformAuditPayload plainPlatformEnv plainEntry.payload, p = [] :=
    fun p hp => (Option.some.inj ((redactPlatformAuditPayload_nil _).symm.trans hp)).symm
  have hretroactive : redactPlatformAuditPayload plainPlatformEnv (retroactivePayload []) =
      some [("recordedRetroactively", .bool true)] := rfl
  refine ⟨⟨hplain, by simp [plainEntry], by simp [plainEntry], ?_, ?_⟩, haction⟩
  · intro p hp
    rw [hnil p hp]
    exact survivesJsonb_nil _
  · intro p hp q hq
    rw [hnil p hp, hretroactive] at hq
    obtain rfl : [("recordedRetroactively", Json.bool true)] = q := Option.some.inj hq
    rfl

lemma allows_lateDrain : ∀ a ∈ lateDrain, ∀ s, Allows (coveredEntry plainPlatformEnv) s a := by
  have hactivate : PlatformJob.Allowed (coveredEntry plainPlatformEnv) (.activate plainEntry) :=
    coveredEntry_plainEntry
  have hwrite : PlatformJob.Allowed (coveredEntry plainPlatformEnv) (.write [plainEntry]) := by
    intro fields hfields
    rw [List.mem_singleton.1 hfields]
    exact coveredEntry_plainEntry
  simp only [lateDrain, activation, queuedWrite, drainedWrite, Label.runsFor, List.flatten_cons,
    List.flatten_nil, List.forall_mem_append, List.forall_mem_cons, List.mem_replicate, Allows,
    List.not_mem_nil, IsEmpty.forall_iff, implies_true, and_true, true_and, and_imp,
    forall_eq_apply_imp_iff]
  exact ⟨fun _ => hactivate, fun _ => hwrite, fun _ => hwrite⟩

/-- The four rows of `lateDrain`: when they were attempted, where they stand in the chain,
and that the HMACs of the second and the third differ. -/
def DrainedLate (s : State PlatformDb PlatformLock PlatformAnswer) : Prop :=
  s.world.db.events.map (fun e => (e.createdAt, e.chainSeq)) = [(0, 5), (10, 13), (5, 19), (10, 24)] ∧
    (s.world.db.events.drop 1).head?.map (·.hmac) ≠ (s.world.db.events.drop 2).head?.map (·.hmac)

instance : DecidablePred DrainedLate := fun _ => inferInstanceAs (Decidable (_ ∧ _))

/-- The run of `lateDrain`. -/
lemma exists_drainedLate :
    ∃ s, (sessions (platformJob plainPlatformEnv) freshPlatform).Reaches
      (Allows (coveredEntry plainPlatformEnv)) s ∧ DrainedLate s := by
  obtain ⟨s, hs, hrows⟩ := Run.System.exists_of_exec
    (sessions (platformJob plainPlatformEnv) freshPlatform) (fun _ _ => True)
    (State.fresh freshPlatform) lateDrain DrainedLate (by decide +kernel)
  exact ⟨s, Run.System.steps_of_exec_of_forall allows_lateDrain hs, hrows⟩

lemma DrainedLate.rows {s : State PlatformDb PlatformLock PlatformAnswer} (h : DrainedLate s) :
    ∃ v x y z, s.world.db.events = [v, x, y, z] ∧ (v.createdAt = 0 ∧ x.createdAt = 10 ∧
      y.createdAt = 5 ∧ z.createdAt = 10) ∧ x.hmac ≠ y.hmac := by
  obtain ⟨hmap, hhmac⟩ := h
  obtain ⟨v, es, hv, hvrow, hes⟩ := List.map_eq_cons_iff.1 hmap
  obtain ⟨x, es₁, hx, hxrow, hes₁⟩ := List.map_eq_cons_iff.1 hes
  obtain ⟨y, es₂, hy, hyrow, hes₂⟩ := List.map_eq_cons_iff.1 hes₁
  obtain ⟨z, es₃, hz, hzrow, hnil⟩ := List.map_eq_cons_iff.1 hes₂
  obtain rfl : es₃ = [] := by simpa using hnil
  simp only [Prod.mk.injEq] at hvrow hxrow hyrow hzrow
  have hevents : s.world.db.events = [v, x, y, z] := by rw [hv, hx, hy, hz]
  refine ⟨v, x, y, z, hevents, ⟨hvrow.1, hxrow.1, hyrow.1, hzrow.1⟩, ?_⟩
  simpa [hevents] using hhmac

/-- The drained row falls out of a window that holds its neighbours, and its successor is
reported. -/
theorem drained_window_fails :
    ¬ ∀ (env : PlatformEnv) (s : State PlatformDb PlatformLock PlatformAnswer),
      (sessions (platformJob env) freshPlatform).Reaches (Allows (coveredEntry env)) s →
      ∀ fromDate toDate : ℕ, fromDate ≤ toDate →
        toDate - fromDate ≤ platformAuditVerifyMaxRangeDays * msPerDay →
        (s.world.db.windowRows fromDate toDate).length ≤ platformAuditVerifyMaxRows →
        ∃ r, verifyPlatformAuditRange env s.world.db fromDate toDate = .ok r ∧
          r.failedCount = 0 := by
  intro hall
  obtain ⟨s, hreach, hlate⟩ := exists_drainedLate
  obtain ⟨v, x, y, z, hevents, ⟨hv, hx, hy, hz⟩, hne⟩ := hlate.rows
  have hinv := platformInv_of_reaches (coveredEntry plainPlatformEnv) hreach
  have hlinked := hinv.chain.linked
  have hfilter : s.world.db.events.filter (inPlatformWindow 10 11) = [x, z] := by
    simp [hevents, inPlatformWindow, hv, hx, hy, hz]
  have hlength : (s.world.db.windowRows 10 11).length ≤ platformAuditVerifyMaxRows := by
    rw [PlatformDb.windowRows, (perm_sortAsc _ _).length_eq, hfilter]
    simp [platformAuditVerifyMaxRows]
  have hspan : 11 - 10 ≤ platformAuditVerifyMaxRangeDays * msPerDay := by decide
  obtain ⟨r, hr, hzero⟩ := hall plainPlatformEnv s hreach 10 11 (by decide) hspan hlength
  obtain ⟨r', hr', hiff⟩ := verifyPlatformAuditRange_eq hinv (by decide) hspan hlength
  obtain rfl : r = r' := Except.ok.inj (hr.symm.trans hr')
  have hwindow := hiff.1 hzero
  rw [hfilter, Chain.linked_cons, Chain.linked_cons] at hwindow
  rw [hevents, Chain.linked_cons, Chain.linked_cons, Chain.linked_cons, Chain.linked_cons] at hlinked
  exact hne (Option.some.inj (hwindow.2.1.symm.trans hlinked.2.2.2.1))

/-- The window of the whole run is convex, and clean. -/
theorem verify_drained_iff_late :
    ∃ s, (sessions (platformJob plainPlatformEnv) freshPlatform).Reaches
      (Allows (coveredEntry plainPlatformEnv)) s ∧ DrainedLate s ∧
        ∃ r, verifyPlatformAuditRange plainPlatformEnv s.world.db 0 11 = .ok r ∧
          r.failedCount = 0 := by
  obtain ⟨s, hreach, hlate⟩ := exists_drainedLate
  obtain ⟨v, x, y, z, hevents, ⟨hv, hx, hy, hz⟩, -⟩ := hlate.rows
  have hlength : (s.world.db.windowRows 0 11).length ≤ platformAuditVerifyMaxRows := by
    rw [PlatformDb.windowRows, (perm_sortAsc _ _).length_eq, hevents]
    simp [inPlatformWindow, hv, hx, hy, hz, platformAuditVerifyMaxRows]
  obtain ⟨r, hr, hclean, -⟩ := verify_drained_iff plainPlatformEnv hreach 0 11 (by decide) (by decide)
    hlength
  refine ⟨s, hreach, hlate, r, hr, hclean ?_⟩
  intro a _ b hb c _ _ _ _ _
  rw [hevents] at hb
  simp only [List.mem_cons, List.not_mem_nil, or_false] at hb
  obtain rfl | rfl | rfl | rfl := hb
  · simp [inPlatformWindow, hv]
  · simp [inPlatformWindow, hx]
  · simp [inPlatformWindow, hy]
  · simp [inPlatformWindow, hz]

end ProjectVault.Platform
