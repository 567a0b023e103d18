import ProjectVault.Audit.Verify

/-!
The export of a range of the audit log (`audit/export.ts`).
-/

namespace ProjectVault.Audit

open Js Db

/-! ### Chunks -/

/-- The loop of `chunkExportRange`. It ends after at most as many rounds as there are milliseconds
left, if the chunks are not empty. -/
def chunksFrom (msPerChunk stop : ℕ) : ℕ → ℕ → List (ℕ × ℕ)
  | 0, _ => []
  | rounds + 1, chunkStart =>
    if chunkStart < stop then
      (chunkStart, min (chunkStart + msPerChunk) stop) ::
        chunksFrom msPerChunk stop rounds (min (chunkStart + msPerChunk) stop)
    else []

/-- `chunkExportRange`. -/
def chunkExportRange (fromDate toDate maxDaysPerChunk : ℕ) : List (ℕ × ℕ) :=
  if fromDate ≥ toDate then [(fromDate, toDate)]
  else chunksFrom (maxDaysPerChunk * msPerDay) toDate (toDate - fromDate) fromDate

/-- The windows follow each other from the first time to the last. -/
def Tiles : List (ℕ × ℕ) → ℕ → ℕ → Prop
  | [], start, stop => start = stop
  | c :: cs, start, stop => c.1 = start ∧ c.1 ≤ c.2 ∧ Tiles cs c.2 stop

lemma Tiles.append {cs cs' : List (ℕ × ℕ)} {start mid stop : ℕ} (h : Tiles cs start mid)
    (h' : Tiles cs' mid stop) : Tiles (cs ++ cs') start stop := by
  induction cs generalizing start with
  | nil =>
    obtain rfl : start = mid := h
    exact h'
  | cons c cs ih => exact ⟨h.1, h.2.1, ih h.2.2⟩

lemma Tiles.le {cs : List (ℕ × ℕ)} {start stop : ℕ} (h : Tiles cs start stop) : start ≤ stop := by
  induction cs generalizing start with
  | nil =>
    have heq : start = stop := h
    exact heq.le
  | cons c cs ih => exact h.1.symm.le.trans (h.2.1.trans (ih h.2.2))

/-- A window of a tiling lies within its ends. -/
lemma Tiles.bounds {cs : List (ℕ × ℕ)} {start stop : ℕ} (h : Tiles cs start stop) {c : ℕ × ℕ}
    (hc : c ∈ cs) : start ≤ c.1 ∧ c.1 ≤ c.2 ∧ c.2 ≤ stop := by
  induction cs generalizing start with
  | nil => simp at hc
  | cons d cs ih =>
    obtain ⟨hstart, hle, hrest⟩ := h
    rcases List.mem_cons.1 hc with rfl | hc
    · exact ⟨hstart.symm.le, hle, hrest.le⟩
    · obtain ⟨hfrom, hbetween, hto⟩ := ih hrest hc
      exact ⟨hstart.symm.le.trans (hle.trans hfrom), hbetween, hto⟩

/-- Windows of a tiling do not overlap. -/
lemma Tiles.pairwise {cs : List (ℕ × ℕ)} {start stop : ℕ} (h : Tiles cs start stop) :
    cs.Pairwise fun c d => c.2 ≤ d.1 := by
  induction cs generalizing start with
  | nil => exact List.Pairwise.nil
  | cons c cs ih =>
    exact List.pairwise_cons.2 ⟨fun d hd => (h.2.2.bounds hd).1, ih h.2.2⟩

/-- Every time between the ends of a tiling lies in one of its windows. -/
lemma Tiles.exists_mem {cs : List (ℕ × ℕ)} {start stop t : ℕ} (h : Tiles cs start stop)
    (hfrom : start ≤ t) (hto : t < stop) : ∃ c ∈ cs, c.1 ≤ t ∧ t < c.2 := by
  induction cs generalizing start with
  | nil =>
    have : start = stop := h
    omega
  | cons c cs ih =>
    obtain ⟨hstart, -, hrest⟩ := h
    by_cases hlt : t < c.2
    · exact ⟨c, List.mem_cons_self, by omega, hlt⟩
    · obtain ⟨d, hd, hmem⟩ := ih hrest (by omega)
      exact ⟨d, List.mem_cons_of_mem c hd, hmem⟩

lemma tiles_chunksFrom {msPerChunk stop : ℕ} (hpos : 0 < msPerChunk) (rounds chunkStart : ℕ)
    (hle : chunkStart ≤ stop) (hrounds : stop - chunkStart ≤ rounds) :
    Tiles (chunksFrom msPerChunk stop rounds chunkStart) chunkStart stop := by
  induction rounds generalizing chunkStart with
  | zero =>
    have : chunkStart = stop := by omega
    exact this
  | succ rounds ih =>
    rw [chunksFrom]
    split_ifs with hlt
    · exact ⟨rfl, by simp only; omega, ih _ (by omega) (by omega)⟩
    · have : chunkStart = stop := by omega
      exact this

/-- No chunk is longer than the days it may have. -/
lemma chunksFrom_length_le {msPerChunk stop : ℕ} (rounds chunkStart : ℕ) {c : ℕ × ℕ}
    (hc : c ∈ chunksFrom msPerChunk stop rounds chunkStart) : c.2 - c.1 ≤ msPerChunk := by
  induction rounds generalizing chunkStart with
  | zero => simp [chunksFrom] at hc
  | succ rounds ih =>
    rw [chunksFrom] at hc
    split_ifs at hc with hlt
    · rcases List.mem_cons.1 hc with rfl | hc
      · simp only
        omega
      · exact ih _ hc
    · simp at hc

/-! ### Requests -/

/-- What a requested export asks for; the route refuses a range that ends before it starts. -/
structure ExportRequest where
  fromDate : ℕ
  toDate : ℕ
  ordered : fromDate ≤ toDate
  includeIntegrityReport : Bool

/-- The chunks of `runAuditExport`, with the boundary chunk. -/
def ExportRequest.chunks (e : ExportRequest) : List (ℕ × ℕ) :=
  chunkExportRange e.fromDate e.toDate auditVerifyMaxRangeDays ++ [(e.toDate, e.toDate + 1)]

/-- The chunks tile the range up to the end of its last millisecond. -/
lemma ExportRequest.tiles_chunks (e : ExportRequest) :
    Tiles e.chunks e.fromDate (e.toDate + 1) := by
  refine Tiles.append ?_ ⟨rfl, Nat.le_succ _, rfl⟩
  unfold chunkExportRange
  split_ifs with hempty
  · have heq : e.fromDate = e.toDate := le_antisymm e.ordered hempty
    exact ⟨rfl, e.ordered, rfl⟩
  · exact tiles_chunksFrom (by decide) _ _ e.ordered le_rfl

/-- Every chunk is a range that `verifyAuditRange` takes. -/
lemma ExportRequest.validateVerifyRange_chunk (e : ExportRequest) {c : ℕ × ℕ} (hc : c ∈ e.chunks) :
    validateVerifyRange c.1 c.2 auditVerifyMaxRangeDays = .ok () := by
  have hbounds := e.tiles_chunks.bounds hc
  have hspan : c.2 - c.1 ≤ auditVerifyMaxRangeDays * msPerDay := by
    rcases List.mem_append.1 hc with hc | hc
    · unfold chunkExportRange at hc
      split_ifs at hc with hempty
      · obtain rfl := List.mem_singleton.1 hc
        exact (Nat.sub_eq_zero_of_le hempty).le.trans (Nat.zero_le _)
      · exact chunksFrom_length_le _ _ hc
    · obtain rfl := List.mem_singleton.1 hc
      exact (Nat.add_sub_cancel_left e.toDate 1).le.trans (by decide)
  rw [validateVerifyRange, if_neg (by omega), if_neg (by omega)]

/-! ### Statements -/

/-- The columns that only the export reads: the microseconds of `created_at` past its millisecond,
and the place of `id` in its order. -/
structure ExportColumns where
  micros : AuditLogEntry → Fin 1000
  id : AuditLogEntry → ℕ

/-- `created_at` in microseconds. -/
def ExportColumns.createdMicros (cols : ExportColumns) (row : AuditLogEntry) : ℕ :=
  row.createdAt * 1000 + cols.micros row

/-- `created_at >= from AND created_at <= to`. -/
def ExportColumns.inRange (cols : ExportColumns) (fromDate toDate : ℕ) (row : AuditLogEntry) :
    Bool :=
  fromDate * 1000 ≤ cols.createdMicros row && cols.createdMicros row ≤ toDate * 1000

/-- `fetchExportRows`. -/
def fetchExportRows (cols : ExportColumns) (db : AuditDb) (orgId : String)
    (fromDate toDate : ℕ) : List AuditLogEntry :=
  sortAsc (fun row => toLex (cols.createdMicros row, cols.id row))
    ((db.ofOrg orgId).filter (cols.inRange fromDate toDate))

/-- The loop of `verifyAuditRange`: each row is one more statement, for its attested gap. -/
def verifyRowsAt (env : AuditEnv) (dbs : ℕ → AuditDb) :
    ℕ → Walk AuditLogEntry → List AuditLogEntry → Walk AuditLogEntry
  | _, walk, [] => walk
  | n, walk, row :: rows =>
    verifyRowsAt env dbs (n + 1)
      (walk.next (evaluateAuditRow env (dbs n)) AuditLogEntry.hmac row) rows

/-- A verification that has answered: its window, the statement that fetched its rows, these rows,
and the answer. -/
structure Verified where
  window : ℕ × ℕ
  statement : ℕ
  rows : List AuditLogEntry
  result : VerifyResult AuditLogEntry

/-- The statement after it. -/
def Verified.next (v : Verified) : ℕ := v.statement + 2 + v.rows.length

/-- `verifyAuditRange` from the `n`-th statement on: `dbs` is what the statements see. -/
def verifyAuditRangeAt (env : AuditEnv) (dbs : ℕ → AuditDb) (orgId : String) (n : ℕ)
    (window : ℕ × ℕ) : Except VerifyError Verified := do
  validateVerifyRange window.1 window.2 auditVerifyMaxRangeDays
  let rows := ((dbs n).windowRows orgId window.1 window.2).take (auditVerifyMaxRows + 1)
  if rows.length > auditVerifyMaxRows then throw (.rangeExceedsRows auditVerifyMaxRows)
  let expectedPreviousHmac := rows.head?.bind (dbs (n + 1)).predecessorHmac
  return ⟨window, n, rows, finalizeVerifyResult rows.length
    (verifyRowsAt env dbs (n + 2) ⟨expectedPreviousHmac, 0, 0, []⟩ rows)⟩

/-- The verifications of the chunks, and the statement after them. -/
def verifyChunks (env : AuditEnv) (dbs : ℕ → AuditDb) (orgId : String) :
    ℕ → List (ℕ × ℕ) → Except VerifyError (List Verified × ℕ)
  | n, [] => .ok ([], n)
  | n, c :: cs => do
      let v ← verifyAuditRangeAt env dbs orgId n c
      let (vs, last) ← verifyChunks env dbs orgId v.next cs
      return (v :: vs, last)

/-! ### The export -/

inductive ExportStatus where
  | pending | processing | completed | failed
  deriving DecidableEq

/-- `ExportIntegritySummary`. -/
structure ExportIntegritySummary where
  passed : ℕ
  failedCount : ℕ
  failed : List (AuditLogEntry × VerifyFailureReason)

/-- What `buildExportCsv` is given: the rows, and the counts of the summary line. -/
structure ExportFile where
  rows : List AuditLogEntry
  summary : Option (ℕ × ℕ × ℕ)

/-- A row of `audit_exports`. -/
structure AuditExport where
  request : ExportRequest
  status : ExportStatus := .pending
  errorReason : Option String := none
  rowsChecked : Option ℕ := none
  integritySummary : Option ExportIntegritySummary := none
  fileContent : Option ExportFile := none

/-- The rows the verifications have checked, taken together. -/
def totalChecked (vs : List Verified) : ℕ := (vs.map (·.result.rowsChecked)).sum

/-- The rows that failed, taken together. -/
def totalFailed (vs : List Verified) : ℕ := (vs.map (·.result.failedCount)).sum

/-- The aggregate of the verifications. -/
def summaryOf (vs : List Verified) : ExportIntegritySummary :=
  ⟨(vs.map (·.result.passed)).sum, totalFailed vs, (vs.flatMap (·.result.failed)).take 500⟩

/-- The update after a verification with failures. -/
def AuditExport.fail (row : AuditExport) (vs : List Verified) : AuditExport :=
  { row with
    status := .failed, errorReason := some "integrity_check_failed",
    rowsChecked := some (totalChecked vs), integritySummary := some (summaryOf vs) }

/-- The update after the query of the data. -/
def AuditExport.complete (row : AuditExport) (vs : List Verified)
    (dataRows : List AuditLogEntry) : AuditExport :=
  { row with
    status := .completed, rowsChecked := some (totalChecked vs),
    integritySummary := some (summaryOf vs),
    fileContent := some ⟨dataRows,
      if row.request.includeIntegrityReport then
        some (totalChecked vs, (summaryOf vs).passed, totalFailed vs)
      else none⟩ }

/-- `runAuditExport`: the row it leaves; an error rolls its transaction back. -/
def runAuditExport (env : AuditEnv) (cols : ExportColumns) (dbs : ℕ → AuditDb) (orgId : String)
    (row : AuditExport) : Except VerifyError AuditExport :=
  if row.status ≠ .pending then .ok row
  else do
    let (vs, last) ← verifyChunks env dbs orgId 0 row.request.chunks
    if totalFailed vs > 0 then return row.fail vs
    return row.complete vs
      (fetchExportRows cols (dbs last) orgId row.request.fromDate row.request.toDate)

/-- The log of an organization as the statements of a transaction see it one after the other, while
others append to its chain: `chain_seq` is unique, and drawn under the lock of the chain. -/
structure LogTimeline (orgId : String) where
  dbs : ℕ → AuditDb
  inOrder : ∀ n, InOrder ((dbs n).ofOrg orgId)
  grows : ∀ n, (dbs n).ofOrg orgId <+: (dbs (n + 1)).ofOrg orgId

/-- A log that stands still. -/
def LogTimeline.still {orgId : String} (db : AuditDb) (h : InOrder (db.ofOrg orgId)) :
    LogTimeline orgId where
  dbs _ := db
  inOrder _ := h
  grows _ := List.prefix_rfl

lemma LogTimeline.subset {orgId : String} (log : LogTimeline orgId) {m n : ℕ} (h : m ≤ n) :
    (log.dbs m).ofOrg orgId ⊆ (log.dbs n).ofOrg orgId := by
  induction n, h using Nat.le_induction with
  | base => exact List.Subset.refl _
  | succ n _ ih => exact List.Subset.trans ih (log.grows n).subset

lemma InOrder.nodup {es : List AuditLogEntry} (h : InOrder es) : es.Nodup :=
  h.imp fun hlt heq => absurd hlt (by rw [heq]; exact lt_irrefl _)

/-! ### What a verification has fetched -/

section Verified

variable {env : AuditEnv} {dbs : ℕ → AuditDb} {orgId : String} {n last : ℕ} {v : Verified}
  {vs : List Verified} {cs : List (ℕ × ℕ)}

/-- A verification that answers has fetched every row of its window its statement saw. -/
lemma verifyAuditRangeAt_ok {window : ℕ × ℕ}
    (h : verifyAuditRangeAt env dbs orgId n window = .ok v) :
    v.window = window ∧ v.statement = n ∧
      v.rows = (dbs n).windowRows orgId window.1 window.2 ∧
      v.result.rowsChecked = v.rows.length := by
  unfold verifyAuditRangeAt at h
  cases hvalid : validateVerifyRange window.1 window.2 auditVerifyMaxRangeDays with
  | error err => simp [hvalid, bind, Except.bind] at h
  | ok _ =>
    simp only [hvalid, bind, Except.bind] at h
    split_ifs at h with hlimit
    cases h
    refine ⟨rfl, rfl, List.take_of_length_le ?_, rfl⟩
    rw [List.length_take] at hlimit
    omega

/-- The verifications run one after the other, over the chunks. -/
lemma verifyChunks_ok (h : verifyChunks env dbs orgId n cs = .ok (vs, last)) :
    vs.map (·.window) = cs ∧ n ≤ last ∧
      ∀ v ∈ vs, v.statement ≤ last ∧
        verifyAuditRangeAt env dbs orgId v.statement v.window = .ok v := by
  induction cs generalizing n vs with
  | nil =>
    cases h
    exact ⟨rfl, le_rfl, nofun⟩
  | cons c cs ih =>
    simp only [verifyChunks, bind, Except.bind] at h
    cases hhead : verifyAuditRangeAt env dbs orgId n c with
    | error err => simp [hhead] at h
    | ok v =>
      simp only [hhead] at h
      cases htail : verifyChunks env dbs orgId v.next cs with
      | error err => simp [htail] at h
      | ok rest =>
        simp only [htail] at h
        cases h
        obtain ⟨rfl, rfl, -, -⟩ := verifyAuditRangeAt_ok hhead
        obtain ⟨hwindows, hle, hrest⟩ := ih htail
        have hfirst : v.statement ≤ rest.2 := by
          refine le_trans ?_ hle
          unfold Verified.next
          omega
        refine ⟨?_, hfirst, List.forall_mem_cons.2 ⟨⟨hfirst, hhead⟩, hrest⟩⟩
        rw [List.map_cons, hwindows]

/-- They all answer if each of them does wherever it starts. -/
lemma exists_verifyChunks (h : ∀ c ∈ cs, ∀ m, ∃ v, verifyAuditRangeAt env dbs orgId m c = .ok v)
    (n : ℕ) : ∃ vs last, verifyChunks env dbs orgId n cs = .ok (vs, last) := by
  induction cs generalizing n with
  | nil => exact ⟨[], n, rfl⟩
  | cons c cs ih =>
    obtain ⟨v, hv⟩ := h c List.mem_cons_self n
    obtain ⟨vs, last, hvs⟩ := ih (fun d hd => h d (List.mem_cons_of_mem c hd)) v.next
    refine ⟨v :: vs, last, ?_⟩
    simp only [verifyChunks, bind, Except.bind, hv, hvs]
    rfl

lemma mem_windowRows {db : AuditDb} {fromDate toDate : ℕ} {row : AuditLogEntry} :
    row ∈ db.windowRows orgId fromDate toDate ↔
      row ∈ db.ofOrg orgId ∧ inWindow fromDate toDate row = true := by
  rw [AuditDb.windowRows, mem_sortAsc, List.mem_filter]

end Verified

/-! ### A log that stands still -/

section Still

variable {env : AuditEnv} {db : AuditDb} {orgId : String}

lemma verifyRowsAt_const (n : ℕ) (walk : Walk AuditLogEntry) (rows : List AuditLogEntry) :
    verifyRowsAt env (fun _ => db) n walk rows =
      rows.foldl (Walk.next (evaluateAuditRow env db) AuditLogEntry.hmac) walk := by
  induction rows generalizing n walk with
  | nil => rfl
  | cons row rows ih => rw [verifyRowsAt, List.foldl_cons, ih]

/-- There the statements make up `verifyAuditRange`. -/
lemma verifyAuditRangeAt_const (n : ℕ) (window : ℕ × ℕ) :
    (verifyAuditRangeAt env (fun _ => db) orgId n window).map (·.result) =
      verifyAuditRange env db orgId window.1 window.2 := by
  unfold verifyAuditRangeAt verifyAuditRange
  cases validateVerifyRange window.1 window.2 auditVerifyMaxRangeDays with
  | error err => rfl
  | ok _ =>
    simp only [bind, Except.bind]
    split_ifs
    · rfl
    · simp only [verifyRowsAt_const]
      rfl

end Still

end ProjectVault.Audit
