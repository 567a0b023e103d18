import ProjectVault.Audit.Export

/-!
What an export says about the rows it holds (`audit/export.ts`).
-/

namespace ProjectVault.Audit

open Js Db

/-! ### The file and the verification -/

/-- The rows the verifications covered. -/
def coveredRows (vs : List Verified) : List AuditLogEntry := vs.flatMap (·.rows)

/-- The file holds the rows of the range that were covered, and as many as were checked. -/
def AuditExport.Exact (cols : ExportColumns) (vs : List Verified) (row : AuditExport) : Prop :=
  ∃ file, row.fileContent = some file ∧ row.rowsChecked = some file.rows.length ∧
    ∀ e, e ∈ file.rows ↔
      e ∈ coveredRows vs ∧ cols.inRange row.request.fromDate row.request.toDate e = true

/-- A row of the range that the query of the data sees was there when its chunk was verified, and
no row that was verified lies after the end of the range within its last millisecond. -/
structure Quiet (cols : ExportColumns) {orgId : String} (log : LogTimeline orgId)
    (e : ExportRequest) (vs : List Verified) (last : ℕ) : Prop where
  visible : ∀ v ∈ vs, ∀ row ∈ (log.dbs last).ofOrg orgId,
    inWindow v.window.1 v.window.2 row = true → cols.inRange e.fromDate e.toDate row = true →
      row ∈ (log.dbs v.statement).ofOrg orgId
  whole : ∀ v ∈ vs, ∀ row ∈ (log.dbs v.statement).ofOrg orgId,
    inWindow v.window.1 v.window.2 row = true → row.createdAt = e.toDate → cols.micros row = 0

section Rows

variable {env : AuditEnv} {cols : ExportColumns} {orgId : String} {log : LogTimeline orgId}
  {e : ExportRequest} {vs : List Verified} {last : ℕ} {row : AuditLogEntry}

/-- A row of the range lies in the window up to the end of its last millisecond. -/
lemma ExportColumns.inRange_iff {fromDate toDate : ℕ} :
    cols.inRange fromDate toDate row = true ↔
      inWindow fromDate (toDate + 1) row = true ∧ (row.createdAt = toDate → cols.micros row = 0) := by
  have hmicros := (cols.micros row).isLt
  have hzero : cols.micros row = 0 ↔ (cols.micros row : ℕ) = 0 := Fin.ext_iff
  simp only [ExportColumns.inRange, inWindow, Bool.and_eq_true, decide_eq_true_eq, hzero]
  unfold ExportColumns.createdMicros
  omega

lemma mem_fetchExportRows {db : AuditDb} {fromDate toDate : ℕ} :
    row ∈ fetchExportRows cols db orgId fromDate toDate ↔
      row ∈ db.ofOrg orgId ∧ cols.inRange fromDate toDate row = true := by
  rw [fetchExportRows, mem_sortAsc, List.mem_filter]

lemma mem_rows_iff (h : verifyChunks env log.dbs orgId 0 e.chunks = .ok (vs, last)) {v : Verified}
    (hv : v ∈ vs) : row ∈ v.rows ↔
      row ∈ (log.dbs v.statement).ofOrg orgId ∧ inWindow v.window.1 v.window.2 row = true := by
  obtain ⟨-, -, hrows, -⟩ := verifyAuditRangeAt_ok ((verifyChunks_ok h).2.2 v hv).2
  rw [hrows, mem_windowRows]

/-- No row lies in two of the windows. -/
lemma windows_disjoint (h : verifyChunks env log.dbs orgId 0 e.chunks = .ok (vs, last)) :
    vs.Pairwise fun v v' => ∀ row, inWindow v.window.1 v.window.2 row = true →
      inWindow v'.window.1 v'.window.2 row = false := by
  have hpairwise := e.tiles_chunks.pairwise
  rw [← (verifyChunks_ok h).1, List.pairwise_map] at hpairwise
  refine hpairwise.imp fun hle row hin => ?_
  simp only [inWindow, decide_eq_true_eq, decide_eq_false_iff_not] at hin ⊢
  omega

lemma eq_of_inWindow (h : verifyChunks env log.dbs orgId 0 e.chunks = .ok (vs, last))
    {v v' : Verified} (hv : v ∈ vs) (hv' : v' ∈ vs)
    (hin : inWindow v.window.1 v.window.2 row = true)
    (hin' : inWindow v'.window.1 v'.window.2 row = true) : v = v' := by
  have hpairwise : vs.Pairwise fun v v' => ¬ (inWindow v.window.1 v.window.2 row = true ∧
      inWindow v'.window.1 v'.window.2 row = true) := by
    refine (windows_disjoint h).imp fun hdisjoint hboth => ?_
    rw [hdisjoint row hboth.1] at hboth
    exact Bool.false_ne_true hboth.2
  have hsymm : Std.Symm fun v v' : Verified => ¬ (inWindow v.window.1 v.window.2 row = true ∧
      inWindow v'.window.1 v'.window.2 row = true) :=
    ⟨fun _ _ hnot hboth => hnot hboth.symm⟩
  by_contra hne
  exact hpairwise.forall hv hv' hne ⟨hin, hin'⟩

/-- Every row up to the end of the last millisecond lies in the window of a verification. -/
lemma exists_inWindow (h : verifyChunks env log.dbs orgId 0 e.chunks = .ok (vs, last))
    (hin : inWindow e.fromDate (e.toDate + 1) row = true) :
    ∃ v ∈ vs, inWindow v.window.1 v.window.2 row = true := by
  obtain ⟨hfrom, hto⟩ := of_decide_eq_true hin
  obtain ⟨c, hc, hmem⟩ := e.tiles_chunks.exists_mem hfrom hto
  rw [← (verifyChunks_ok h).1, List.mem_map] at hc
  obtain ⟨v, hv, rfl⟩ := hc
  exact ⟨v, hv, decide_eq_true hmem⟩

/-- A window of a verification lies within the range, up to the end of its last millisecond. -/
lemma inWindow_range (h : verifyChunks env log.dbs orgId 0 e.chunks = .ok (vs, last))
    {v : Verified} (hv : v ∈ vs) (hin : inWindow v.window.1 v.window.2 row = true) :
    inWindow e.fromDate (e.toDate + 1) row = true := by
  have hc : v.window ∈ e.chunks := by
    rw [← (verifyChunks_ok h).1]
    exact List.mem_map_of_mem hv
  have hbounds := e.tiles_chunks.bounds hc
  simp only [inWindow, decide_eq_true_eq] at hin ⊢
  omega

/-- **No row is checked twice.** -/
lemma nodup_coveredRows (h : verifyChunks env log.dbs orgId 0 e.chunks = .ok (vs, last)) :
    (coveredRows vs).Nodup := by
  refine List.nodup_flatMap.2 ⟨fun v hv => ?_, ?_⟩
  · obtain ⟨-, -, hrows, -⟩ := verifyAuditRangeAt_ok ((verifyChunks_ok h).2.2 v hv).2
    rw [hrows, AuditDb.windowRows, (perm_sortAsc _ _).nodup_iff]
    exact (log.inOrder v.statement).nodup.filter _
  · refine (windows_disjoint h).imp_of_mem fun hv hv' hdisjoint row hrow hrow' => ?_
    have hin := ((mem_rows_iff h hv).1 hrow).2
    have hin' := ((mem_rows_iff h hv').1 hrow').2
    rw [hdisjoint row hin] at hin'
    exact Bool.false_ne_true hin'

/-- The counts of the verifications add up to the rows they covered. -/
lemma totalChecked_eq (h : verifyChunks env log.dbs orgId 0 e.chunks = .ok (vs, last)) :
    totalChecked vs = (coveredRows vs).length := by
  rw [totalChecked, coveredRows, List.length_flatMap]
  refine congrArg List.sum (List.map_congr_left fun v hv => ?_)
  exact (verifyAuditRangeAt_ok ((verifyChunks_ok h).2.2 v hv).2).2.2.2

lemma totalFailed_eq_zero_iff : totalFailed vs = 0 ↔ ∀ v ∈ vs, v.result.failedCount = 0 := by
  simp [totalFailed, List.sum_eq_zero_iff]

/-- The export completes exactly if all the verifications answer without failures. -/
lemma runAuditExport_completed {dbs : ℕ → AuditDb} {after : AuditExport} :
    (runAuditExport env cols dbs orgId { request := e } = .ok after ∧
        after.status = .completed) ↔
      ∃ vs last, verifyChunks env dbs orgId 0 e.chunks = .ok (vs, last) ∧ totalFailed vs = 0 ∧
        after = AuditExport.complete { request := e } vs
          (fetchExportRows cols (dbs last) orgId e.fromDate e.toDate) := by
  simp only [runAuditExport, ne_eq, not_true_eq_false, if_false, bind, Except.bind]
  cases hchunks : verifyChunks env dbs orgId 0 e.chunks with
  | error err => simp
  | ok answer =>
    obtain ⟨vs, last⟩ := answer
    dsimp only
    by_cases hfailed : totalFailed vs > 0
    · rw [if_pos hfailed]
      constructor
      · rintro ⟨hok, hcompleted⟩
        rw [← Except.ok.inj hok] at hcompleted
        exact absurd hcompleted (by simp [AuditExport.fail])
      · rintro ⟨_, _, hok, hzero, -⟩
        cases hok
        exact absurd hzero hfailed.ne'
    · rw [if_neg hfailed]
      constructor
      · rintro ⟨hok, -⟩
        exact ⟨vs, last, rfl, Nat.eq_zero_of_not_pos hfailed, (Except.ok.inj hok).symm⟩
      · rintro ⟨_, _, hok, -, rfl⟩
        cases hok
        exact ⟨rfl, rfl⟩

/-- **An export is exact exactly if it is quiet.** -/
lemma exact_iff_quiet (h : verifyChunks env log.dbs orgId 0 e.chunks = .ok (vs, last)) :
    (AuditExport.complete { request := e } vs
      (fetchExportRows cols (log.dbs last) orgId e.fromDate e.toDate)).Exact cols vs ↔
      Quiet cols log e vs last := by
  have hdata : (fetchExportRows cols (log.dbs last) orgId e.fromDate e.toDate).Nodup := by
    rw [fetchExportRows, (perm_sortAsc _ _).nodup_iff]
    exact (log.inOrder last).nodup.filter _
  have hexact : (AuditExport.complete { request := e } vs
      (fetchExportRows cols (log.dbs last) orgId e.fromDate e.toDate)).Exact cols vs ↔
      (coveredRows vs).length =
        (fetchExportRows cols (log.dbs last) orgId e.fromDate e.toDate).length ∧
      ∀ row, row ∈ fetchExportRows cols (log.dbs last) orgId e.fromDate e.toDate ↔
        row ∈ coveredRows vs ∧ cols.inRange e.fromDate e.toDate row = true := by
    simp only [AuditExport.Exact, AuditExport.complete, Option.some.injEq, exists_eq_left',
      totalChecked_eq h]
  generalize hrows : fetchExportRows cols (log.dbs last) orgId e.fromDate e.toDate = rows at *
  rw [hexact]
  constructor
  · rintro ⟨hlength, hmem⟩
    have hsub : rows ⊆ coveredRows vs := fun row hrow => ((hmem row).1 hrow).1
    have hperm := (hdata.subperm hsub).perm_of_length_le hlength.le
    refine ⟨fun v hv row hrow hin hrange => ?_, fun v hv row hrow hin hto => ?_⟩
    · have hfetched : row ∈ rows := by
        rw [← hrows, mem_fetchExportRows]
        exact ⟨hrow, hrange⟩
      obtain ⟨v', hv', hcovered⟩ := List.mem_flatMap.1 (hsub hfetched)
      obtain ⟨hseen, hin'⟩ := (mem_rows_iff h hv').1 hcovered
      rwa [eq_of_inWindow h hv hv' hin hin']
    · have hcovered : row ∈ coveredRows vs :=
        List.mem_flatMap.2 ⟨v, hv, (mem_rows_iff h hv).2 ⟨hrow, hin⟩⟩
      have hrange := ((hmem row).1 (hperm.mem_iff.2 hcovered)).2
      exact (ExportColumns.inRange_iff.1 hrange).2 hto
  · intro hquiet
    have hmem : ∀ row, row ∈ rows ↔
        row ∈ coveredRows vs ∧ cols.inRange e.fromDate e.toDate row = true := by
      intro row
      rw [← hrows, mem_fetchExportRows]
      constructor
      · rintro ⟨hrow, hrange⟩
        obtain ⟨v, hv, hin⟩ := exists_inWindow h (ExportColumns.inRange_iff.1 hrange).1
        have hseen := hquiet.visible v hv row hrow hin hrange
        exact ⟨List.mem_flatMap.2 ⟨v, hv, (mem_rows_iff h hv).2 ⟨hseen, hin⟩⟩, hrange⟩
      · rintro ⟨hcovered, hrange⟩
        obtain ⟨v, hv, hrow⟩ := List.mem_flatMap.1 hcovered
        have hle := ((verifyChunks_ok h).2.2 v hv).1
        exact ⟨log.subset hle ((mem_rows_iff h hv).1 hrow).1, hrange⟩
    have hperm : (coveredRows vs).Perm rows := by
      refine (List.perm_ext_iff_of_nodup (nodup_coveredRows h) hdata).2 fun row => ?_
      rw [hmem]
      refine ⟨fun hcovered => ⟨hcovered, ?_⟩, fun hboth => hboth.1⟩
      obtain ⟨v, hv, hrow⟩ := List.mem_flatMap.1 hcovered
      obtain ⟨hseen, hin⟩ := (mem_rows_iff h hv).1 hrow
      exact ExportColumns.inRange_iff.2 ⟨inWindow_range h hv hin, hquiet.whole v hv row hseen hin⟩
    exact ⟨hperm.length_eq, hmem⟩

end Rows

/-! ### Windows of a chain -/

section Window

variable {ρ : Type} {evaluate : Option String → ρ → Option VerifyFailureReason} {hmac : ρ → String}
  {p : ρ → Bool} {expected : Option String} {rows before after : List ρ} {row : ρ}

lemma passes_iff_forall_split : Passes evaluate hmac expected rows ↔
    ∀ before row after, rows = before ++ row :: after →
      evaluate (Chain.lastHash hmac expected before) row = none := by
  induction rows generalizing expected with
  | nil => simp [Passes]
  | cons r rows ih =>
    rw [Passes, ih]
    constructor
    · rintro ⟨hhead, hrest⟩ before row after hsplit
      rcases List.cons_eq_append_iff.1 hsplit with ⟨rfl, hrow⟩ | ⟨before', rfl, hsplit'⟩
      · cases hrow
        exact hhead
      · rw [Chain.lastHash_cons]
        exact hrest before' row after hsplit'
    · intro h
      refine ⟨h [] r rows rfl, fun before row after hsplit => ?_⟩
      rw [← Chain.lastHash_cons]
      exact h (r :: before) row after (by rw [hsplit, List.cons_append])

/-- The row that a walk over a window compares the next one with. -/
def comparedWith (p : ρ → Bool) (before : List ρ) : Option ρ :=
  (before.filter p).getLast?.or before.getLast?

lemma lastHash_beforeWindow (hrow : p row = true) :
    Chain.lastHash hmac (Chain.lastHash hmac none (Chain.beforeWindow p (before ++ row :: after)))
      (before.filter p) = (comparedWith p before).map hmac := by
  cases hfilter : before.filter p with
  | nil =>
    have hnone : ∀ e ∈ before, (!p e) = true := by simpa using hfilter
    have hbefore : Chain.beforeWindow p (before ++ row :: after) = before := by
      rw [Chain.beforeWindow, List.takeWhile_append_of_pos hnone]
      simp [hrow]
    rw [Chain.lastHash_nil, hbefore, comparedWith, hfilter]
    simp [Chain.lastHash]
  | cons e es =>
    rw [Chain.lastHash_of_ne_nil (List.cons_ne_nil e es) _ none, comparedWith, hfilter]
    simp [Chain.lastHash, List.getLast?_cons]

/-- A walk over a window passes exactly if each of its rows passes after the row it is compared
with. -/
lemma passes_window_iff :
    Passes evaluate hmac (Chain.lastHash hmac none (Chain.beforeWindow p rows)) (rows.filter p) ↔
      ∀ before row after, rows = before ++ row :: after → p row = true →
        evaluate ((comparedWith p before).map hmac) row = none := by
  rw [passes_iff_forall_split]
  constructor
  · intro h before row after hsplit hrow
    subst hsplit
    rw [← lastHash_beforeWindow hrow]
    refine h (before.filter p) row (after.filter p) ?_
    rw [List.filter_append, List.filter_cons_of_pos hrow]
  · intro h before' row after' hsplit
    obtain ⟨before, rest, rfl, rfl, hrest⟩ := List.filter_eq_append_iff.1 hsplit
    obtain ⟨skipped, after, rfl, hskipped, hrow, rfl⟩ := List.filter_eq_cons_iff.1 hrest
    have hnone : skipped.filter p = [] := List.filter_eq_nil_iff.2 hskipped
    have hfilter : (before ++ skipped).filter p = before.filter p := by
      rw [List.filter_append, hnone, List.append_nil]
    rw [← List.append_assoc, ← hfilter, lastHash_beforeWindow hrow]
    exact h (before ++ skipped) row after (List.append_assoc _ _ _).symm hrow

end Window

/-! ### The chunks and the range -/

/-- The loop of `verifyAuditRange` over the rows of a window, whatever their number. -/
def walkRange (env : AuditEnv) (db : AuditDb) (orgId : String) (window : ℕ × ℕ) :
    Walk AuditLogEntry :=
  let rows := db.windowRows orgId window.1 window.2
  verifyRows (evaluateAuditRow env db) AuditLogEntry.hmac (rows.head?.bind db.predecessorHmac) rows

/-- The row of the log that a walk over a window compares a row with. -/
def AuditDb.rowBefore (db : AuditDb) (orgId : String) (window : ℕ × ℕ) (row : AuditLogEntry) :
    Option AuditLogEntry :=
  comparedWith (inWindow window.1 window.2)
    ((db.ofOrg orgId).filter fun e => e.chainSeq < row.chainSeq)

/-- The row fails where a walk over a window meets it. -/
def FailsIn (env : AuditEnv) (db : AuditDb) (orgId : String) (window : ℕ × ℕ)
    (row : AuditLogEntry) : Prop :=
  evaluateAuditRow env db ((db.rowBefore orgId window row).map AuditLogEntry.hmac) row ≠ none

/-- The verification of the chunks answers, and reports a failure. -/
def ReportsFailure (env : AuditEnv) (dbs : ℕ → AuditDb) (orgId : String) (e : ExportRequest) :
    Prop :=
  ∃ vs last, verifyChunks env dbs orgId 0 e.chunks = .ok (vs, last) ∧ 0 < totalFailed vs

/-- The whole range, with its last millisecond. -/
def ExportRequest.range (e : ExportRequest) : ℕ × ℕ := (e.fromDate, e.toDate + 1)

/-- If no chunk has too many rows: a row fails that its chunk and the range compare with one row,
or else the rows that they compare with different rows fail in the range if and only if they do in
the chunks. If one has, no row fails in the range. -/
def SameFailures (env : AuditEnv) (db : AuditDb) (orgId : String) (e : ExportRequest) : Prop :=
  let rowsOf (c : ℕ × ℕ) := (db.ofOrg orgId).filter (inWindow c.1 c.2)
  let same (c : ℕ × ℕ) (row : AuditLogEntry) :=
    db.rowBefore orgId c row = db.rowBefore orgId e.range row
  ((∀ c ∈ e.chunks, (rowsOf c).length ≤ auditVerifyMaxRows) →
    (∃ c ∈ e.chunks, ∃ row ∈ rowsOf c, same c row ∧ FailsIn env db orgId c row) ∨
      ((∃ c ∈ e.chunks, ∃ row ∈ rowsOf c, ¬ same c row ∧ FailsIn env db orgId c row) ↔
        ∃ c ∈ e.chunks, ∃ row ∈ rowsOf c, ¬ same c row ∧ FailsIn env db orgId e.range row)) ∧
  ((∃ c ∈ e.chunks, auditVerifyMaxRows < (rowsOf c).length) →
    ∀ row ∈ rowsOf e.range, ¬ FailsIn env db orgId e.range row)

section Still

variable {env : AuditEnv} {db : AuditDb} {orgId : String} {e : ExportRequest}

lemma windowRows_eq_filter (h : InOrder (db.ofOrg orgId)) (window : ℕ × ℕ) :
    db.windowRows orgId window.1 window.2 =
      (db.ofOrg orgId).filter (inWindow window.1 window.2) :=
  sortAsc_eq_self _ (h.filter _)

/-- A walk over a window starts from the row before the first of its rows. -/
lemma walkRange_eq (h : InOrder (db.ofOrg orgId)) (window : ℕ × ℕ) :
    (walkRange env db orgId window).failedCount =
      (verifyRows (evaluateAuditRow env db) AuditLogEntry.hmac
        (tailHmac (Chain.beforeWindow (inWindow window.1 window.2) (db.ofOrg orgId)))
        ((db.ofOrg orgId).filter (inWindow window.1 window.2))).failedCount := by
  rw [walkRange, windowRows_eq_filter h]
  cases hfilter : (db.ofOrg orgId).filter (inWindow window.1 window.2) with
  | nil => rfl
  | cons a rows =>
    obtain ⟨rest, hsplit⟩ := Chain.eq_beforeWindow_append hfilter
    rw [List.head?_cons, Option.bind_some, predecessorHmac_eq h hsplit]

lemma walkRange_fails_iff (h : InOrder (db.ofOrg orgId)) (window : ℕ × ℕ) :
    0 < (walkRange env db orgId window).failedCount ↔
      ∃ row ∈ (db.ofOrg orgId).filter (inWindow window.1 window.2),
        FailsIn env db orgId window row := by
  have hbefore : ∀ before row after, db.ofOrg orgId = before ++ row :: after →
      db.rowBefore orgId window row = comparedWith (inWindow window.1 window.2) before := by
    intro before row after hsplit
    have hsorted := h
    rw [InOrder, hsplit] at hsorted
    rw [AuditDb.rowBefore, hsplit, filter_lt_eq_of_pairwise _ hsorted]
  rw [Nat.pos_iff_ne_zero, ← not_iff_comm, walkRange_eq h, failedCount_verifyRows_eq_zero_iff,
    tailHmac, passes_window_iff]
  constructor
  · intro hnone before row after hsplit hrow
    by_contra hfails
    refine hnone ⟨row, List.mem_filter.2 ⟨by simp [hsplit], hrow⟩, ?_⟩
    rwa [FailsIn, hbefore before row after hsplit]
  · rintro hpasses ⟨row, hrow, hfails⟩
    obtain ⟨hmem, hin⟩ := List.mem_filter.1 hrow
    obtain ⟨before, after, hsplit⟩ := List.append_of_mem hmem
    rw [FailsIn, hbefore before row after hsplit] at hfails
    exact hfails (hpasses before row after hsplit hin)

/-- On a log that stands still, a verification that answers is the walk over its window. -/
lemma verifyAuditRangeAt_walk {n : ℕ} {window : ℕ × ℕ} {v : Verified}
    (h : verifyAuditRangeAt env (fun _ => db) orgId n window = .ok v) :
    (db.windowRows orgId window.1 window.2).length ≤ auditVerifyMaxRows ∧
      v.result.failedCount = (walkRange env db orgId window).failedCount := by
  have hok : verifyAuditRange env db orgId window.1 window.2 = .ok v.result := by
    rw [← verifyAuditRangeAt_const n, h]
    rfl
  obtain ⟨hfrom, hspan, hrows⟩ := limits_of_verifyAuditRange hok
  refine ⟨hrows, ?_⟩
  rw [verifyAuditRange_eq_ok env db orgId hfrom hspan hrows] at hok
  rw [← Except.ok.inj hok]
  rfl

/-- It answers if its window does not have too many rows. -/
lemma exists_verifyAuditRangeAt {c : ℕ × ℕ} (hc : c ∈ e.chunks)
    (hrows : (db.windowRows orgId c.1 c.2).length ≤ auditVerifyMaxRows) (n : ℕ) :
    ∃ v, verifyAuditRangeAt env (fun _ => db) orgId n c = .ok v := by
  have hvalid := e.validateVerifyRange_chunk hc
  rw [validateVerifyRange] at hvalid
  split_ifs at hvalid with horder hspan
  have hconst : (verifyAuditRangeAt env (fun _ => db) orgId n c).map (·.result) =
      verifyAuditRange env db orgId c.1 c.2 :=
    verifyAuditRangeAt_const n c
  rw [verifyAuditRange_eq_ok env db orgId (not_lt.1 horder) (not_lt.1 hspan) hrows] at hconst
  cases hv : verifyAuditRangeAt env (fun _ => db) orgId n c with
  | ok v => exact ⟨v, rfl⟩
  | error err =>
    rw [hv] at hconst
    cases hconst

/-- The chunks report a failure exactly if none of them has too many rows and a row of one of them
fails. -/
lemma reportsFailure_iff (h : InOrder (db.ofOrg orgId)) :
    ReportsFailure env (fun _ => db) orgId e ↔
      (∀ c ∈ e.chunks,
        ((db.ofOrg orgId).filter (inWindow c.1 c.2)).length ≤ auditVerifyMaxRows) ∧
      ∃ c ∈ e.chunks, ∃ row ∈ (db.ofOrg orgId).filter (inWindow c.1 c.2),
        FailsIn env db orgId c row := by
  simp only [← walkRange_fails_iff h]
  simp only [← windowRows_eq_filter h]
  have hwalks : ∀ vs last, verifyChunks env (fun _ => db) orgId 0 e.chunks = .ok (vs, last) →
      vs.map (·.window) = e.chunks ∧ ∀ v ∈ vs,
        (db.windowRows orgId v.window.1 v.window.2).length ≤ auditVerifyMaxRows ∧
          v.result.failedCount = (walkRange env db orgId v.window).failedCount := by
    intro vs last hvs
    obtain ⟨hwindows, -, hall⟩ := verifyChunks_ok hvs
    exact ⟨hwindows, fun v hv => verifyAuditRangeAt_walk (hall v hv).2⟩
  have hpos : ∀ vs : List Verified, 0 < totalFailed vs ↔ ∃ v ∈ vs, 0 < v.result.failedCount := by
    intro vs
    rw [Nat.pos_iff_ne_zero, Ne, totalFailed_eq_zero_iff]
    simp [Nat.pos_iff_ne_zero]
  constructor
  · rintro ⟨vs, last, hvs, hfailed⟩
    obtain ⟨hwindows, hwalk⟩ := hwalks vs last hvs
    obtain ⟨v, hv, hvfailed⟩ := (hpos vs).1 hfailed
    rw [← hwindows]
    refine ⟨List.forall_mem_map.2 fun v hv => (hwalk v hv).1, v.window,
      List.mem_map_of_mem hv, ?_⟩
    rwa [← (hwalk v hv).2]
  · rintro ⟨hlimit, c, hc, hfailed⟩
    have hanswers : ∀ c ∈ e.chunks, ∀ m, ∃ v,
        verifyAuditRangeAt env (fun _ => db) orgId m c = .ok v :=
      fun c hc m => exists_verifyAuditRangeAt hc (hlimit c hc) m
    obtain ⟨vs, last, hvs⟩ := exists_verifyChunks (n := 0) hanswers
    obtain ⟨hwindows, hwalk⟩ := hwalks vs last hvs
    rw [← hwindows, List.mem_map] at hc
    obtain ⟨v, hv, rfl⟩ := hc
    refine ⟨vs, last, hvs, (hpos vs).2 ⟨v, hv, ?_⟩⟩
    rwa [(hwalk v hv).2]

lemma exists_chunk_iff {P : AuditLogEntry → Prop} :
    (∃ row ∈ (db.ofOrg orgId).filter (inWindow e.range.1 e.range.2), P row) ↔
      ∃ c ∈ e.chunks, ∃ row ∈ (db.ofOrg orgId).filter (inWindow c.1 c.2), P row := by
  simp only [List.mem_filter, inWindow, decide_eq_true_eq]
  constructor
  · rintro ⟨row, ⟨hrow, hfrom, hto⟩, hp⟩
    obtain ⟨c, hc, hin⟩ := e.tiles_chunks.exists_mem hfrom hto
    exact ⟨c, hc, row, ⟨hrow, hin⟩, hp⟩
  · rintro ⟨c, hc, row, ⟨hrow, hfrom, hto⟩, hp⟩
    have hbounds := e.tiles_chunks.bounds hc
    refine ⟨row, ⟨hrow, hbounds.1.trans hfrom, ?_⟩, hp⟩
    exact lt_of_lt_of_le hto hbounds.2.2

/-- The rows of the chunks, apart by what they are compared with. -/
lemma exists_chunk_split {cs : List (ℕ × ℕ)} {rowsOf : ℕ × ℕ → List AuditLogEntry}
    (S P : ℕ × ℕ → AuditLogEntry → Prop) :
    (∃ c ∈ cs, ∃ row ∈ rowsOf c, P c row) ↔
      (∃ c ∈ cs, ∃ row ∈ rowsOf c, S c row ∧ P c row) ∨
        ∃ c ∈ cs, ∃ row ∈ rowsOf c, ¬ S c row ∧ P c row := by
  simp only [← exists_or, ← and_or_left, ← or_and_right, em, true_and]

/-- The chunks report a failure exactly if the range does where the rows that are compared with
different rows make no difference. -/
lemma reportsFailure_iff_walkRange (h : InOrder (db.ofOrg orgId)) :
    (ReportsFailure env (fun _ => db) orgId e ↔
        0 < (walkRange env db orgId e.range).failedCount) ↔
      SameFailures env db orgId e := by
  rw [walkRange_fails_iff h, reportsFailure_iff h, SameFailures]
  dsimp only
  by_cases hlimit : ∀ c ∈ e.chunks,
      ((db.ofOrg orgId).filter (inWindow c.1 c.2)).length ≤ auditVerifyMaxRows
  · have hfew : ¬ ∃ c ∈ e.chunks,
        auditVerifyMaxRows < ((db.ofOrg orgId).filter (inWindow c.1 c.2)).length := by
      rintro ⟨c, hc, hmany⟩
      exact absurd (hlimit c hc) (not_le.2 hmany)
    have hor : ∀ S D R : Prop, ((S ∨ D) ↔ (S ∨ R)) ↔ (S ∨ (D ↔ R)) := by
      intro S D R
      tauto
    have hsame : ∀ c row, (db.rowBefore orgId c row = db.rowBefore orgId e.range row ∧
          FailsIn env db orgId e.range row) ↔
        (db.rowBefore orgId c row = db.rowBefore orgId e.range row ∧
          FailsIn env db orgId c row) := by
      intro c row
      refine and_congr_right fun heq => ?_
      rw [FailsIn, FailsIn, heq]
    rw [exists_chunk_iff,
      exists_chunk_split (fun c row => db.rowBefore orgId c row = db.rowBefore orgId e.range row)
        fun c row => FailsIn env db orgId c row,
      exists_chunk_split (fun c row => db.rowBefore orgId c row = db.rowBefore orgId e.range row)
        fun _ row => FailsIn env db orgId e.range row]
    simp only [hsame]
    rw [and_iff_right hlimit, hor]
    exact ⟨fun hiff => ⟨fun _ => hiff, fun hmany => absurd hmany hfew⟩, fun hall => hall.1 hlimit⟩
  · have hmany : ∃ c ∈ e.chunks,
        auditVerifyMaxRows < ((db.ofOrg orgId).filter (inWindow c.1 c.2)).length := by
      simpa only [not_forall, not_le, exists_prop] using hlimit
    have hnone : (¬ ∃ row ∈ (db.ofOrg orgId).filter (inWindow e.range.1 e.range.2),
          FailsIn env db orgId e.range row) ↔
        ∀ row ∈ (db.ofOrg orgId).filter (inWindow e.range.1 e.range.2),
          ¬ FailsIn env db orgId e.range row := by
      simp only [not_exists, not_and]
    have hsilent : ¬ ((∀ c ∈ e.chunks,
          ((db.ofOrg orgId).filter (inWindow c.1 c.2)).length ≤ auditVerifyMaxRows) ∧
        ∃ c ∈ e.chunks, ∃ row ∈ (db.ofOrg orgId).filter (inWindow c.1 c.2),
          FailsIn env db orgId c row) :=
      fun hboth => hlimit hboth.1
    rw [← hnone, iff_false_left hsilent]
    exact ⟨fun hclean => ⟨fun hall => absurd hall hlimit, fun _ => hclean⟩, fun hall => hall.2 hmany⟩

end Still

/-- A row of a chain, written at a time, after another one. -/
def chainRow (eventType : String) (prev : Option AuditLogEntry) (createdAt seq : ℕ) :
    AuditLogEntry :=
  (systemCall "a" eventType).storedRow plainEnv (prev.map (·.hmac)) ⟨⟨[]⟩, createdAt, createdAt, seq⟩

/-- The first five milliseconds. -/
def fewMillis : ExportRequest := ⟨0, 5, by decide, true⟩

/-- Rows that were written the given microseconds after their millisecond. -/
def microsPast (micros : Fin 1000) : ExportColumns := ⟨fun _ => micros, AuditLogEntry.chainSeq⟩

/-- One row, written in the last millisecond. -/
def lastRowLog : AuditDb := ⟨[chainRow "x" none 5 1]⟩

/-- The rows of `overtakenLog`. -/
def firstRow : AuditLogEntry := chainRow "x" none 5 1

def earlyRow : AuditLogEntry := chainRow "yy" (some firstRow) 3 2

def lastRow : AuditLogEntry := chainRow "zzz" (some earlyRow) 5 3

/-- The second row was written two milliseconds before its neighbours in the chain. -/
def overtakenLog : AuditDb := ⟨[firstRow, earlyRow, lastRow]⟩

/-- One row, committed after the third statement. -/
def lateLog : LogTimeline "a" where
  dbs n := if n < 3 then ⟨[]⟩ else ⟨[chainRow "x" none 4 1]⟩
  inOrder n := by
    split_ifs
    · exact List.Pairwise.nil
    · exact List.pairwise_singleton _ _
  grows n := by
    by_cases hlt : n + 1 < 3
    · rw [if_pos (by omega), if_pos hlt]
    · rw [if_neg hlt]
      split_ifs
      · exact List.nil_prefix
      · exact List.prefix_rfl

/-- The export that a run leaves behind, in numbers. -/
def exportCounts (run : Except VerifyError AuditExport) :
    Option (ExportStatus × Option ℕ × Option ℕ) :=
  run.toOption.map fun after =>
    (after.status, after.rowsChecked, after.fileContent.map (·.rows.length))

lemma exists_of_exportCounts {env : AuditEnv} {cols : ExportColumns} {dbs : ℕ → AuditDb}
    {orgId : String} {e : ExportRequest} {checked exported : ℕ}
    (h : exportCounts (runAuditExport env cols dbs orgId { request := e }) =
      some (.completed, some checked, some exported)) :
    ∃ vs last after, verifyChunks env dbs orgId 0 e.chunks = .ok (vs, last) ∧
      runAuditExport env cols dbs orgId { request := e } = .ok after ∧
      after.status = .completed ∧ (after.Exact cols vs → checked = exported) := by
  cases hrun : runAuditExport env cols dbs orgId { request := e } with
  | error err =>
    rw [hrun] at h
    cases h
  | ok after =>
    rw [hrun] at h
    obtain ⟨hstatus, hcounts⟩ := Prod.mk.inj (Option.some.inj h)
    obtain ⟨hchecked, hexported⟩ := Prod.mk.inj hcounts
    obtain ⟨vs, last, hvs, -⟩ := runAuditExport_completed.1 ⟨hrun, hstatus⟩
    refine ⟨vs, last, after, hvs, rfl, hstatus, ?_⟩
    rintro ⟨file, hfile, hlength, -⟩
    rw [hfile] at hexported
    rw [hchecked] at hlength
    exact (Option.some.inj hlength).trans (Option.some.inj hexported)

lemma ofOrg_overtakenLog : overtakenLog.ofOrg "a" = [firstRow, earlyRow, lastRow] := rfl

lemma inOrder_overtakenLog : InOrder (overtakenLog.ofOrg "a") := by
  rw [ofOrg_overtakenLog]
  simp [InOrder, firstRow, earlyRow, lastRow, chainRow]
  decide

lemma genuine_chainRow {eventType : String} (h : eventType ≠ retentionPurgeBoundary)
    (prev : Option AuditLogEntry) (createdAt seq : ℕ) :
    Genuine plainEnv (chainRow eventType prev createdAt seq) :=
  AuditCall.genuine (honestCalls_systemCall "a" h _ (List.mem_singleton_self _)).1 h _ _

/-- The rows of the log fail at their link only. -/
lemma evaluateAuditRow_overtakenLog {row : AuditLogEntry} (hrow : row ∈ overtakenLog.ofOrg "a")
    (expected : Option String) :
    evaluateAuditRow plainEnv overtakenLog expected row = none ↔
      row.previousEntryHmac = expected := by
  have hgenuine : ∀ e ∈ overtakenLog.ofOrg "a", Genuine plainEnv e ∧ e.orgId = "a" := by
    rw [ofOrg_overtakenLog]
    simp only [List.forall_mem_cons, List.not_mem_nil, IsEmpty.forall_iff, implies_true, and_true]
    exact ⟨⟨genuine_chainRow (by decide) none 5 1, rfl⟩,
      ⟨genuine_chainRow (by decide) (some firstRow) 3 2, rfl⟩,
      ⟨genuine_chainRow (by decide) (some earlyRow) 5 3, rfl⟩⟩
  refine (hgenuine row hrow).1.evaluateAuditRow_eq_none_iff ?_ expected
  rw [(hgenuine row hrow).2]
  exact fun e he => (hgenuine e he).1.eventType

/-- The second chunk of the log breaks, and the range does not. -/
lemma overtakenLog_apart :
    ¬ (ReportsFailure plainEnv (fun _ => overtakenLog) "a" fewMillis ↔
      0 < (walkRange plainEnv overtakenLog "a" fewMillis.range).failedCount) := by
  have hclean : (walkRange plainEnv overtakenLog "a" fewMillis.range).failedCount = 0 := by
    rw [walkRange_eq inOrder_overtakenLog, failedCount_verifyRows_eq_zero_iff,
      passes_iff_linked fun row hrow =>
        evaluateAuditRow_overtakenLog (List.mem_of_mem_filter hrow)]
    exact ⟨rfl, rfl, rfl, trivial⟩
  have hlast : lastRow ∈ overtakenLog.ofOrg "a" := by
    rw [ofOrg_overtakenLog]
    simp
  have hbreaks : ReportsFailure plainEnv (fun _ => overtakenLog) "a" fewMillis := by
    refine (reportsFailure_iff inOrder_overtakenLog).2 ⟨fun c _ => ?_, (5, 6), by decide, lastRow,
      List.mem_filter.2 ⟨hlast, rfl⟩, ?_⟩
    · refine (List.length_filter_le _ _).trans ?_
      rw [ofOrg_overtakenLog]
      decide
    · have hbefore : overtakenLog.rowBefore "a" (5, 6) lastRow = some firstRow := rfl
      have hne : earlyRow.hmac ≠ firstRow.hmac := by decide +kernel
      rw [FailsIn, ne_eq, evaluateAuditRow_overtakenLog hlast, hbefore]
      exact fun heq => hne (Option.some.inj heq)
  rw [hclean]
  exact fun hiff => absurd (hiff.1 hbreaks) (lt_irrefl 0)

end ProjectVault.Audit
