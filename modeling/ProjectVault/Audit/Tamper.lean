import ProjectVault.Audit.Retention

/-!
What a clean verification says about a log that somebody may have changed.
-/

namespace ProjectVault.Audit

open Js Db

/-! ### What was ever written -/

section History

variable {R : Type}

/-- The rows that are or once were committed. -/
def written (w : AuditWorld R) (e : AuditLogEntry) : Prop :=
  e ∈ w.db.entries ∨ ∃ ev ∈ w.log, e ∈ ev.before.entries

/-- A row carries nothing, or the HMAC of a row of its organization that was drawn an
earlier `chain_seq`. -/
def Follows (p : AuditLogEntry → Prop) (e : AuditLogEntry) : Prop :=
  e.previousEntryHmac = none ∨ ∃ d, p d ∧ d.orgId = e.orgId ∧ d.chainSeq < e.chainSeq ∧
    e.previousEntryHmac = some d.hmac

/-- Every row was written with a computed HMAC, after one that was written before. -/
structure HistoryInv (w : AuditWorld R) : Prop where
  seq : ∀ e, written w e → e.chainSeq < w.seq
  hmac : ∀ e, written w e → ∃ m : Mac, e.hmac = m.hex
  follows : ∀ e, written w e → Follows (written w) e

lemma Follows.mono {p q : AuditLogEntry → Prop} (hpq : ∀ d, p d → q d) {e : AuditLogEntry}
    (h : Follows p e) : Follows q e := by
  cases h with
  | inl hnone => exact .inl hnone
  | inr hsome =>
    obtain ⟨d, hd, hrest⟩ := hsome
    exact .inr ⟨d, hpq d hd, hrest⟩

/-- What was written stays so. -/
lemma written_ended {w : AuditWorld R} {ev : Event AuditDb AuditLock R} {e : AuditLogEntry}
    (h : written w e) (hbefore : ev.before = w.db) : written (w.ended ev) e := by
  cases h with
  | inl hdb => exact .inr ⟨ev, List.mem_cons_self, hbefore ▸ hdb⟩
  | inr hlog =>
    obtain ⟨ev', hev', he⟩ := hlog
    exact .inr ⟨ev', List.mem_cons_of_mem _ hev', he⟩

lemma written_or_mem {w : AuditWorld R} {ev : Event AuditDb AuditLock R} {e : AuditLogEntry}
    (h : written (w.ended ev) e) (hbefore : ev.before = w.db) :
    written w e ∨ e ∈ ev.after.entries := by
  cases h with
  | inl hdb => exact .inr hdb
  | inr hlog =>
    obtain ⟨ev', hev', he⟩ := hlog
    cases List.mem_cons.1 hev' with
    | inl heq =>
      rw [heq, hbefore] at he
      exact .inl (.inl he)
    | inr hold => exact .inl (.inr ⟨ev', hold, he⟩)

/-- The protocol of the history: whatever a transaction does, the rows it leaves behind
follow written rows. -/
def historyProtocol : Protocol AuditDb AuditLock R where
  inv := HistoryInv
  move _ w ev := HistoryInv (w.ended ev)
  inv_move := fun _ _ _ hmove => hmove
  inv_later := by
    intro w n t h hn ht
    exact ⟨fun e he => (h.seq e he).trans_le hn, h.hmac, h.follows⟩

/-- A transaction that has added the rows `new` to the rows it keeps. -/
structure Adding (keep : AuditLogEntry → Bool) (new : List AuditLogEntry)
    (l : Local AuditDb AuditLock) (w : AuditWorld R) : Prop where
  pending : l.pending = fun db => (db.keep keep).append new
  seq : ∀ e ∈ new, e.chainSeq < w.seq
  hmac : ∀ e ∈ new, ∃ m : Mac, e.hmac = m.hex
  follows : ∀ e ∈ new, Follows (fun d => written w d ∨ d ∈ new) e

variable {keep : AuditLogEntry → Bool} {new : List AuditLogEntry} {l : Local AuditDb AuditLock}
  {w w' : AuditWorld R}

lemma written_of_rely {held : Set AuditLock} (hr : Rely (historyProtocol (R := R)) held w w')
    {e : AuditLogEntry} (h : written w e) : written w' e := by
  refine Rely.stable (A := fun v => written v e) ?_ ?_ hr h
  · exact fun other v ev _ _ hbefore _ _ _ hA => written_ended hA hbefore
  · exact fun v n t _ _ hA => hA

lemma Adding.rely {held : Set AuditLock} (h : Adding keep new l w)
    (hr : Rely (historyProtocol (R := R)) held w w') : Adding keep new l w' where
  pending := h.pending
  seq e he := (h.seq e he).trans_le hr.le.1
  hmac := h.hmac
  follows e he := (h.follows e he).mono fun _ hd => hd.imp (written_of_rely hr) id

/-- The transaction takes locks. -/
lemma Adding.wrote (h : Adding keep new l w) (keys : List AuditLock) :
    Adding keep new (l.wrote keys id) w :=
  ⟨by simpa [Local.wrote] using h.pending, h.seq, h.hmac, h.follows⟩

/-- The rows a transaction sees are written ones and its own. -/
lemma Adding.mem_view (h : Adding keep new l w) {d : AuditLogEntry}
    (hd : d ∈ (l.ctx w).view.entries) : written w d ∨ d ∈ new := by
  have hview : (l.ctx w).view = (w.db.keep keep).append new := by
    simp only [Local.ctx, h.pending]
  rw [hview] at hd
  cases List.mem_append.1 hd with
  | inl hkept => exact .inl (.inl (List.mem_of_mem_filter hkept))
  | inr hown => exact .inr hown

/-- An insert of a row that follows what the transaction knows. -/
lemma Adding.insert (h : Adding keep new l w) {e : AuditLogEntry} (hseq : e.chainSeq = w.seq)
    (hhmac : ∃ m : Mac, e.hmac = m.hex) (hfollows : Follows (fun d => written w d ∨ d ∈ new) e)
    (keys : List AuditLock) :
    Adding keep (new ++ [e]) (l.wrote keys fun db => db.insert e) w.bump where
  pending := by
    funext db
    simp only [Local.wrote, Function.comp_apply, h.pending, AuditDb.insert, AuditDb.append,
      List.append_assoc]
  seq d hd := by
    cases List.mem_append.1 hd with
    | inl hmem => exact (h.seq d hmem).trans (Nat.lt_succ_self _)
    | inr heq =>
      rw [List.mem_singleton.1 heq, hseq]
      exact Nat.lt_succ_self _
  hmac d hd := by
    cases List.mem_append.1 hd with
    | inl hmem => exact h.hmac d hmem
    | inr heq =>
      rw [List.mem_singleton.1 heq]
      exact hhmac
  follows d hd := by
    have hmono : ∀ x, written w x ∨ x ∈ new → written w.bump x ∨ x ∈ new ++ [e] :=
      fun x hx => hx.imp id (List.mem_append_left _)
    cases List.mem_append.1 hd with
    | inl hmem => exact (h.follows d hmem).mono hmono
    | inr heq =>
      rw [List.mem_singleton.1 heq]
      exact hfollows.mono hmono

/-- A writer only adds a row that follows the tail it has seen. -/
lemma wp_run_adding (env : AuditEnv) (call : AuditCall) (h : Adding keep new l w) :
    wp historyProtocol (call.toWrite.run env)
      (fun _ l' w' => ∃ new', Adding keep new' l' w') l w := by
  simp only [ChainedWrite.run, readAuditChainHead, getPreviousEntryHmac, wp_bind, wp_pure]
  refine wp_query fun w₁ hr₁ hi₁ => wp_lock fun w₂ hr₂ hi₂ => wp_query fun w₃ hr₃ hi₃ =>
    wp_update fun w₄ hr₄ hi₄ => ?_
  have hbump : ∀ v : AuditWorld R, Rely historyProtocol ∅ v v.bump := fun v => World.bump_rely v
  have h₂ := ((h.rely hr₁).rely (hbump _)).rely hr₂
  have h₃ := ((h₂.wrote [.chain call.toWrite.orgId]).rely (hbump _)).rely hr₃
  have hrely := (World.bump_rely w₃).trans hr₄
  refine ⟨_, (h₃.rely hrely).insert (e := call.storedRow env _ _) rfl
    ⟨_, call.hmac_storedRow env _ _⟩ ?_ _⟩
  -- the tail that was read, if there was one
  cases htail : (sortDesc AuditLogEntry.chainSeq
      (((l.wrote [.chain call.toWrite.orgId] id).ctx w₃).view.ofOrg call.toWrite.orgId)).head? with
  | none =>
    refine .inl ?_
    rw [call.previousEntryHmac_storedRow]
    rfl
  | some d =>
    have hmem := (mem_sortDesc _).1 (List.mem_of_head? htail)
    obtain ⟨hview, horg⟩ := List.mem_filter.1 hmem
    have hknown := h₃.mem_view hview
    refine .inr ⟨d, hknown.imp (written_of_rely hrely) id, ?_, ?_, ?_⟩
    · rw [call.orgId_storedRow]
      simpa using horg
    · have hseq : d.chainSeq < w₃.seq := by
        cases hknown with
        | inl hwritten => exact hi₃.seq d hwritten
        | inr hown => exact h₃.seq d hown
      exact hseq.trans_le hrely.le.1
    · rw [call.previousEntryHmac_storedRow]
      rfl

/-- What a transaction leaves behind. -/
lemma Adding.inv_ended (h : Adding keep new l w) (hinv : HistoryInv w) (r : R)
    (locked : AuditLock → Bool) : HistoryInv (w.ended ⟨w.db, r, l.pending w.db, locked⟩) := by
  have hcases : ∀ e, written (w.ended ⟨w.db, r, l.pending w.db, locked⟩) e →
      written w e ∨ e ∈ new := by
    intro e he
    cases written_or_mem he rfl with
    | inl hold => exact .inl hold
    | inr hafter => exact h.mem_view (l := l) hafter
  have hmono : ∀ d, written w d ∨ d ∈ new →
      written (w.ended ⟨w.db, r, l.pending w.db, locked⟩) d := by
    intro d hd
    cases hd with
    | inl hold => exact written_ended hold rfl
    | inr hown =>
      refine .inl ?_
      change d ∈ (l.pending w.db).entries
      rw [h.pending]
      exact List.mem_append_right _ hown
  constructor
  · intro e he
    cases hcases e he with
    | inl hold => exact hinv.seq e hold
    | inr hown => exact h.seq e hown
  · intro e he
    cases hcases e he with
    | inl hold => exact hinv.hmac e hold
    | inr hown => exact h.hmac e hown
  · intro e he
    cases hcases e he with
    | inl hold => exact (hinv.follows e hold).mono fun d hd => hmono d (.inl hd)
    | inr hown => exact (h.follows e hown).mono hmono

lemma deletionKeeps_adding (orgId : String) (cutoff : ℕ) :
    DeletionKeeps (R := R) historyProtocol orgId cutoff fun _ _ l w => ∃ keep, Adding keep [] l w := by
  rintro gone k n l w ⟨keep, h⟩ w' hr -
  refine ⟨fun e => keep e && survives orgId cutoff [n] e, ?_, by simp, by simp, by simp⟩
  funext db
  simp only [Local.wrote, Function.comp_apply, h.pending, AuditDb.append_nil, AuditDb.keep_keep]

lemma adding_start (t : ℕ) (w : AuditWorld R) : Adding keepAll [] ⟨t, ∅, id⟩ w := by
  refine ⟨?_, by simp, by simp, by simp⟩
  funext db
  simp

end History

/-- Writers and purges of any kind keep the history. -/
lemma keeps_history (env : AuditEnv) (toISOString : ℕ → String) :
    Keeps historyProtocol (auditJob env toISOString) fun _ => True := by
  intro job _ t w hinv
  cases job with
  | write calls =>
    simp only [auditJob, writeEntries, wp_bind]
    refine wp_beginTx fun w₁ hr₁ hi₁ => ?_
    refine wp.mono ?_ _ (wp_forEach (I := fun l w => ∃ new, Adding keepAll new l w) ?_
      ⟨[], adding_start w₁.clock w₁⟩)
    · rintro - l₂ w₂ ⟨new, h₂⟩
      refine wp_either fun b => ?_
      cases b with
      | true =>
        refine wp_commitTx fun w₃ locked hr₃ hi₃ _ => ⟨?_, trivial⟩
        exact (h₂.rely hr₃).inv_ended hi₃ _ _
      | false =>
        refine wp_rollbackTx fun w₃ locked hr₃ hi₃ _ => ⟨?_, trivial⟩
        exact (adding_start 0 w₃).inv_ended hi₃ _ _
    · rintro call - l w ⟨new, h⟩
      exact wp_run_adding env call h
  | prune orgId retentionDays =>
    cases retentionDays with
    | none =>
      simp only [auditJob, pruneOrg, wp_bind]
      refine wp_beginTx fun w₁ hr₁ hi₁ => wp_commitTx fun w₂ locked hr₂ hi₂ _ => ⟨?_, trivial⟩
      exact (adding_start 0 w₂).inv_ended hi₂ _ _
    | some days =>
      simp only [auditJob, pruneOrg, purgeExpiredAuditLogEntries, wp_bind, wp_pure]
      refine wp_beginTx fun w₁ hr₁ hi₁ => wp_query fun w₂ hr₂ hi₂ => wp_query fun w₃ hr₃ hi₃ =>
        wp_query fun w₄ hr₄ hi₄ => ?_
      refine wp.mono ?_ _ (wp_deleteRows (deletionKeeps_adding orgId _) _
        ⟨keepAll, adding_start w₁.clock w₄.bump⟩)
      rintro deleted l₅ w₅ ⟨keep, h₅⟩
      have hcommit : ∀ (trace : PurgeTrace) l w, (∃ new, Adding keep new l w) →
          wp historyProtocol (Prog.commitTx (AuditAnswer.purged trace))
            (fun _ _ _ => True) l w := by
        rintro trace l w ⟨new, h⟩
        refine wp_commitTx fun w₇ locked hr₇ hi₇ _ => ⟨?_, trivial⟩
        exact (h.rely hr₇).inv_ended hi₇ _ _
      refine wp.mono (fun _ l w => hcommit _ l w) _ ?_
      cases (oldestSurvivor _ _).bind AuditLogEntry.previousEntryHmac with
      | none => exact ⟨[], h₅⟩
      | some hash =>
        simp only [attestGap]
        split_ifs
        · exact wp_run_adding env _ h₅
        · exact ⟨[], h₅⟩

/-- The history of every run of writers and purges. -/
lemma historyInv_of_reaches {env : AuditEnv} {toISOString : ℕ → String}
    {s : State AuditDb AuditLock AuditAnswer}
    (h : (sessions (auditJob env toISOString) freshWorld).Reaches (fun _ _ => True) s) :
    HistoryInv s.world := by
  have hfresh : HistoryInv (freshWorld : AuditWorld AuditAnswer) := by
    constructor <;> simp [written, freshWorld]
  exact (Sound.of_reaches (keeps_history env toISOString) (fun _ _ _ _ => trivial) hfresh h
    fun _ _ => trivial).inv

/-! ### Genuine chains -/

section Tampering

variable {R : Type}

/-- Rows that were written, each after the one before it and the first one at the start
of the organization's chain. -/
structure GenuineChain (w : AuditWorld R) (orgId : String) (rows : List AuditLogEntry) : Prop where
  linked : LinkedFrom none rows
  genuine : ∀ g ∈ rows, written w g ∧ g.orgId = orgId

/-- The HMAC of the second row is computed from the covered fields of the first, which are
its own. -/
structure SameFields (env : AuditEnv) (e g : AuditLogEntry) : Prop where
  rebuilt : e.rebuilt = g.rebuilt
  hmac : g.hmac = computeAuditHmac env e.rebuilt

/-- Without the audit key: a row verifies only with the covered fields of a written
row. -/
def Unforged (env : AuditEnv) (w : AuditWorld R) (tampered : AuditDb) : Prop :=
  ∀ e ∈ tampered.entries, hmacMatches e.hmac (computeAuditHmac env e.rebuilt) = true →
    ∃ g, written w g ∧ SameFields env e g

/-- Rows with the covered fields of consecutive rows of a genuine chain; a gap before
the first of them is attested by one of them. -/
def Segment (env : AuditEnv) (w : AuditWorld R) (orgId : String) (rows : List AuditLogEntry) :
    Prop :=
  ∃ before genuine, GenuineChain w orgId (before ++ genuine) ∧
    List.Forall₂ (SameFields env) rows genuine ∧
    ∀ hash ∈ tailHmac before, ∃ e ∈ rows, Attests env hash e

/-- A row continues the one before it: the previous HMAC it carries is the one of that
row, as bytes. -/
def Continues (a b : AuditLogEntry) : Prop :=
  ∃ hash ∈ b.previousEntryHmac, hmacMatches a.hmac hash = true

/-- A genuine chain grows by a row that follows its last one. -/
lemma GenuineChain.snoc {w : AuditWorld R} {orgId : String} {rows : List AuditLogEntry}
    {d g : AuditLogEntry} (h : GenuineChain w orgId (rows ++ [d])) (hg : written w g)
    (horg : g.orgId = orgId) (hprev : g.previousEntryHmac = some d.hmac) :
    GenuineChain w orgId (rows ++ [d] ++ [g]) where
  linked := by
    refine Chain.linked_snoc.2 ⟨h.linked, ?_⟩
    rw [hprev]
    simp [Chain.lastHash]
  genuine x hx := by
    cases List.mem_append.1 hx with
    | inl hold => exact h.genuine x hold
    | inr heq =>
      rw [List.mem_singleton.1 heq]
      exact ⟨hg, horg⟩

/-- Every written row ends a genuine chain. -/
lemma HistoryInv.exists_genuineChain {w : AuditWorld R} (h : HistoryInv w) {orgId : String} :
    ∀ (n : ℕ) (g : AuditLogEntry), g.chainSeq = n → written w g → g.orgId = orgId →
      ∃ before, GenuineChain w orgId (before ++ [g]) := by
  intro n
  induction n using Nat.strong_induction_on with
  | _ n ih =>
    intro g hn hg horg
    cases h.follows g hg with
    | inl hnone =>
      exact ⟨[], ⟨hnone, trivial⟩, by simp [hg, horg]⟩
    | inr hsome =>
      obtain ⟨d, hd, horg', hseq, hprev⟩ := hsome
      obtain ⟨before, hchain⟩ := ih d.chainSeq (hn ▸ hseq) d rfl hd (horg'.trans horg)
      exact ⟨before ++ [d], hchain.snoc hg horg hprev⟩

/-! ### The walk over changed rows -/

/-- No row stands before the first one. -/
lemma predecessorHmac_head {db : AuditDb} {orgId : String} {a : AuditLogEntry}
    (h : (db.chainOf orgId).head? = some a) : db.predecessorHmac a = none := by
  have hmem : a ∈ db.ofOrg orgId := (mem_sortAsc _).1 (List.mem_of_head? h)
  have horg : a.orgId = orgId := by simpa using (List.mem_filter.1 hmem).2
  have hnone : ((db.ofOrg a.orgId).filter fun e => e.chainSeq < a.chainSeq) = [] := by
    rw [List.filter_eq_nil_iff, horg]
    intro e he
    cases hrows : db.chainOf orgId with
    | nil => simp [hrows] at h
    | cons b rest =>
      have hab : b = a := by simpa [hrows] using h
      have hsorted : (b :: rest).Pairwise fun x y => x.chainSeq ≤ y.chainSeq := by
        rw [← hrows]
        exact List.pairwise_insertionSort _ _
      have hle : a.chainSeq ≤ e.chainSeq := by
        have hmem' : e ∈ b :: rest := by
          rw [← hrows]
          exact (mem_sortAsc _).2 he
        cases List.mem_cons.1 hmem' with
        | inl heq => rw [heq, hab]
        | inr hrest => exact hab ▸ (List.pairwise_cons.1 hsorted).1 e hrest
      simpa using hle
  rw [AuditDb.predecessorHmac, hnone]
  rfl

/-- A clean verification of all rows has passed each of them where it stands. -/
lemma passes_of_clean {env : AuditEnv} {db : AuditDb} {orgId : String} {fromDate toDate : ℕ}
    (hall : ∀ e ∈ db.ofOrg orgId, inWindow fromDate toDate e = true)
    {r : VerifyResult AuditLogEntry}
    (hr : verifyAuditRange env db orgId fromDate toDate = .ok r) (hclean : r.failedCount = 0) :
    Passes (evaluateAuditRow env db) AuditLogEntry.hmac none (db.chainOf orgId) := by
  obtain ⟨hfrom, hspan, hrows⟩ := limits_of_verifyAuditRange hr
  have hwindow : db.windowRows orgId fromDate toDate = db.chainOf orgId := by
    rw [AuditDb.windowRows, List.filter_eq_self.2 hall, AuditDb.chainOf]
  have hok := verifyAuditRange_eq_ok env db orgId hfrom hspan hrows
  rw [hwindow] at hok
  have hnone : (db.chainOf orgId).head?.bind db.predecessorHmac = none := by
    cases hhead : (db.chainOf orgId).head? with
    | none => rfl
    | some a => exact predecessorHmac_head hhead
  rw [hnone] at hok
  obtain rfl := Except.ok.inj (hr.symm.trans hok)
  exact (failedCount_verifyRows_eq_zero_iff _ _).1 hclean

lemma Passes.append {ρ : Type} {evaluate : Option String → ρ → Option VerifyFailureReason}
    {hmac : ρ → String} {expected : Option String} {before after : List ρ} {row : ρ}
    (h : Passes evaluate hmac expected (before ++ row :: after)) :
    evaluate (Chain.lastHash hmac expected before) row = none := by
  induction before generalizing expected with
  | nil => exact h.1
  | cons b bs ih =>
    rw [Chain.lastHash_cons]
    exact ih h.2

/-- A row that passes verifies, and continues what is expected or an attested gap. -/
lemma of_evaluateAuditRow_eq_none {env : AuditEnv} {db : AuditDb} {expected : Option String}
    {row : AuditLogEntry} (h : evaluateAuditRow env db expected row = none) :
    hmacMatches row.hmac (computeAuditHmac env row.rebuilt) = true ∧
      (row.previousEntryHmac = expected ∨
        ∃ orphaned ∈ row.previousEntryHmac, hasAttestedGap env db row.orgId orphaned = true) := by
  simp only [evaluateAuditRow] at h
  split_ifs at h with hhmac _ hchain
  exact ⟨by simpa using hhmac, by simpa using hchain⟩

section Pairs

variable {env : AuditEnv} {w : AuditWorld R} {a b g g' : AuditLogEntry}

/-- A row that has the covered fields of a row after `hash` carries `hash` itself. -/
lemma SameFields.previousEntryHmac (h : SameFields env b g') {m : Mac}
    (hprev : g'.previousEntryHmac = some m.hex) : b.previousEntryHmac = some m.hex := by
  have hdigest : b.previousEntryHmac.getD genesisSentinel =
      g'.previousEntryHmac.getD genesisSentinel :=
    congrArg HmacFields.previousEntryHmac h.rebuilt
  rw [hprev, Option.getD_some] at hdigest
  cases hb : b.previousEntryHmac with
  | none =>
    rw [hb, Option.getD_none] at hdigest
    exact absurd hdigest.symm m.hex_ne_genesis
  | some hash =>
    rw [hb, Option.getD_some] at hdigest
    rw [hdigest]

/-- One verified row continues another if and only if the written rows do that have their
covered fields. -/
lemma continues_iff (hinv : HistoryInv w)
    (ha : hmacMatches a.hmac (computeAuditHmac env a.rebuilt) = true) (hag : SameFields env a g)
    (hg' : written w g') (hbg : SameFields env b g') :
    Continues a b ↔ g'.previousEntryHmac = some g.hmac := by
  have hmac : g.hmac = (env.hmacSha256 (canonical env a.rebuilt)).hex := hag.hmac
  have hbytes := (hmacMatches_hex _ _).1 ha
  constructor
  · rintro ⟨hash, hhash, hmatches⟩
    have hdigest : hash = g'.previousEntryHmac.getD genesisSentinel := by
      have := congrArg HmacFields.previousEntryHmac hbg.rebuilt
      simpa [AuditLogEntry.rebuilt, Option.mem_def.1 hhash] using this
    cases hinv.follows g' hg' with
    | inl hnone =>
      -- the sentinel spells no bytes
      rw [hnone, Option.getD_none] at hdigest
      have hempty : bufferFromHex hash.toList = [] := by rw [hdigest]; decide
      have hne : bufferFromHex a.hmac.toList ≠ [] := by
        rw [hbytes]
        intro hnil
        have := (env.hmacSha256 (canonical env a.rebuilt)).size
        simp [List.map_eq_nil_iff.1 hnil] at this
      simp only [hmacMatches, hempty, List.length_nil] at hmatches
      simp [hne] at hmatches
    | inr hsome =>
      obtain ⟨d, hd, -, -, hprev⟩ := hsome
      obtain ⟨m, hm⟩ := hinv.hmac d hd
      rw [hprev, Option.getD_some, hm] at hdigest
      rw [hdigest, hmacMatches_hex, hbytes] at hmatches
      rw [hprev, hm, hmac, Mac.ext_bytes hmatches]
  · intro hprev
    rw [hmac] at hprev
    refine ⟨_, hbg.previousEntryHmac hprev, ?_⟩
    exact (hmacMatches_hex _ _).2 hbytes

end Pairs

/-! ### Clean logs -/

section Clean

variable {env : AuditEnv} {w : AuditWorld R} {tampered : AuditDb} {orgId : String}

/-- A clean row and the written row it comes from. -/
lemma exists_sameFields (hforge : Unforged env w tampered)
    (hpasses : Passes (evaluateAuditRow env tampered) AuditLogEntry.hmac none
      (tampered.chainOf orgId)) {a : AuditLogEntry} (ha : a ∈ tampered.chainOf orgId) :
    hmacMatches a.hmac (computeAuditHmac env a.rebuilt) = true ∧
      ∃ g, written w g ∧ g.orgId = orgId ∧ SameFields env a g := by
  have hmem : a ∈ tampered.ofOrg orgId := (mem_sortAsc _).1 ha
  obtain ⟨hentry, horg⟩ := List.mem_filter.1 hmem
  obtain ⟨before, after, hsplit⟩ := List.append_of_mem ha
  rw [hsplit] at hpasses
  obtain ⟨hhmac, -⟩ := of_evaluateAuditRow_eq_none hpasses.append
  obtain ⟨g, hg, hag⟩ := hforge a hentry hhmac
  refine ⟨hhmac, g, hg, ?_, hag⟩
  have hsame : a.orgId = g.orgId := congrArg HmacFields.orgId hag.rebuilt
  exact hsame.symm.trans (by simpa using horg)

/-- Rows that continue each other are those of a genuine chain, up to the row the last one
comes from. -/
lemma exists_genuine_of_continues (hinv : HistoryInv w) (hforge : Unforged env w tampered)
    (hpasses : Passes (evaluateAuditRow env tampered) AuditLogEntry.hmac none
      (tampered.chainOf orgId)) (rows : List AuditLogEntry) :
    ∀ b g, List.IsChain Continues (rows ++ [b]) → (∀ a ∈ rows, a ∈ tampered.chainOf orgId) →
      written w g → g.orgId = orgId → SameFields env b g →
      ∃ before genuine, GenuineChain w orgId (before ++ genuine ++ [g]) ∧
        List.Forall₂ (SameFields env) rows genuine := by
  induction rows using List.reverseRecOn with
  | nil =>
    intro b g _ _ hg horg _
    obtain ⟨before, hchain⟩ := hinv.exists_genuineChain _ g rfl hg horg
    exact ⟨before, [], by simpa using hchain, .nil⟩
  | append_singleton rows a ih =>
    intro b g hcont hrows hg horg hbg
    obtain ⟨hhmac, g', hg', horg', hag⟩ :=
      exists_sameFields hforge hpasses (hrows a (by simp))
    rw [List.append_assoc, List.isChain_append] at hcont
    have hab : Continues a b := by
      simpa using hcont.2.1
    have hprefix : List.IsChain Continues (rows ++ [a]) := by
      rw [List.isChain_append]
      exact ⟨hcont.1, by simp, fun x hx y hy => hcont.2.2 x hx y (by simpa using hy)⟩
    obtain ⟨before, genuine, hchain, hfields⟩ :=
      ih a g' hprefix (fun x hx => hrows x (by simp [hx])) hg' horg' hag
    have hprev := (continues_iff hinv hhmac hag hg hbg).1 hab
    refine ⟨before, genuine ++ [g'], ?_, List.rel_append hfields (.cons hag .nil)⟩
    have := hchain.snoc hg horg hprev
    simpa using this

lemma attested_of_passes (hinv : HistoryInv w) {first : AuditLogEntry}
    {rest before genuine : List AuditLogEntry} {g : AuditLogEntry}
    (hrows : tampered.chainOf orgId = first :: rest)
    (hpasses : Passes (evaluateAuditRow env tampered) AuditLogEntry.hmac none
      (tampered.chainOf orgId)) (hchain : GenuineChain w orgId (before ++ g :: genuine))
    (hfirst : SameFields env first g) :
    ∀ hash ∈ tailHmac before, ∃ e ∈ tampered.chainOf orgId, Attests env hash e := by
  intro hash hhash
  have hprev : g.previousEntryHmac = some hash := by
    rw [← Option.mem_def.1 hhash]
    exact Chain.Linked.prev_eq hchain.linked
  -- the hash is the HMAC of a written row
  have hmac : ∃ m : Mac, hash = m.hex := by
    cases Chain.lastHash_none_eq AuditLogEntry.hmac before with
    | inl hnone => exact absurd ((Option.mem_def.1 hhash).symm.trans hnone) (by simp)
    | inr hsome =>
      obtain ⟨d, hd, heq⟩ := hsome
      obtain ⟨m, hm⟩ := hinv.hmac d (hchain.genuine d (List.mem_append_left _ hd)).1
      have : hash = d.hmac := Option.some.inj ((Option.mem_def.1 hhash).symm.trans heq)
      exact ⟨m, this.trans hm⟩
  obtain ⟨m, rfl⟩ := hmac
  have hcarries := hfirst.previousEntryHmac hprev
  rw [hrows] at hpasses
  obtain ⟨-, hok⟩ := of_evaluateAuditRow_eq_none hpasses.1
  rw [hcarries] at hok
  have hmem : first ∈ tampered.ofOrg orgId := (mem_sortAsc _).1 (hrows ▸ List.mem_cons_self)
  have horg : first.orgId = orgId := by simpa using (List.mem_filter.1 hmem).2
  cases hok with
  | inl hnone => simp at hnone
  | inr hgap =>
    obtain ⟨orphaned, heq, hattested⟩ := hgap
    obtain rfl : m.hex = orphaned := Option.some.inj heq
    rw [hasAttestedGap, horg, List.any_eq_true] at hattested
    obtain ⟨e, he, hattests⟩ := hattested
    exact ⟨e, (mem_sortAsc _).2 he, by simpa [Attests] using hattests⟩

/-- Clean rows that continue each other are a segment. -/
lemma segment_of_continues (hinv : HistoryInv w) (hforge : Unforged env w tampered)
    (hpasses : Passes (evaluateAuditRow env tampered) AuditLogEntry.hmac none
      (tampered.chainOf orgId)) (hcont : List.IsChain Continues (tampered.chainOf orgId)) :
    Segment env w orgId (tampered.chainOf orgId) := by
  cases hrows : tampered.chainOf orgId using List.reverseRecOn with
  | nil => exact ⟨[], [], ⟨trivial, by simp⟩, .nil, by simp [tailHmac]⟩
  | append_singleton rows b _ =>
    have hmem : ∀ a ∈ rows ++ [b], a ∈ tampered.chainOf orgId := fun a ha => hrows ▸ ha
    obtain ⟨-, g, hg, horg, hbg⟩ := exists_sameFields hforge hpasses (hmem b (by simp))
    obtain ⟨before, genuine, hchain, hfields⟩ := exists_genuine_of_continues hinv hforge hpasses
      rows b g (hrows ▸ hcont) (fun a ha => hmem a (by simp [ha])) hg horg hbg
    rw [List.append_assoc] at hchain
    have hall : List.Forall₂ (SameFields env) (rows ++ [b]) (genuine ++ [g]) :=
      List.rel_append hfields (.cons hbg .nil)
    refine ⟨before, genuine ++ [g], hchain, hall, ?_⟩
    rw [← hrows]
    cases hlist : rows ++ [b] with
    | nil => simp at hlist
    | cons first rest =>
      rw [hlist] at hall
      cases hgenuine : genuine ++ [g] with
      | nil => simp at hgenuine
      | cons g₁ genuine' =>
        rw [hgenuine] at hall hchain
        exact attested_of_passes hinv (hrows.trans hlist) hpasses hchain
          (List.forall₂_cons.1 hall).1

/-- Verified rows with the covered fields of linked written rows continue each other. -/
lemma isChain_continues_of_linked (hinv : HistoryInv w) {rows genuine : List AuditLogEntry}
    (hfields : List.Forall₂ (SameFields env) rows genuine)
    (hverified : ∀ a ∈ rows, hmacMatches a.hmac (computeAuditHmac env a.rebuilt) = true)
    (hwritten : ∀ g ∈ genuine, written w g) {expected : Option String}
    (hlinked : LinkedFrom expected genuine) : List.IsChain Continues rows := by
  induction hfields generalizing expected with
  | nil => simp
  | @cons a g rows genuine hag hfields ih =>
    have htail := ih (fun x hx => hverified x (by simp [hx]))
      (fun x hx => hwritten x (by simp [hx])) (Chain.linked_cons.1 hlinked).2
    cases hfields with
    | nil => simp
    | @cons b g' rows genuine hbg hfields =>
      refine List.isChain_cons_cons.2 ⟨?_, htail⟩
      refine (continues_iff hinv (hverified a (by simp)) hag (hwritten g' (by simp)) hbg).2 ?_
      exact hlinked.2.1

lemma Segment.continues (hinv : HistoryInv w) {rows : List AuditLogEntry}
    (hverified : ∀ a ∈ rows, hmacMatches a.hmac (computeAuditHmac env a.rebuilt) = true)
    (h : Segment env w orgId rows) : List.IsChain Continues rows := by
  obtain ⟨before, genuine, hchain, hfields, -⟩ := h
  exact isChain_continues_of_linked hinv hfields hverified
    (fun g hg => (hchain.genuine g (List.mem_append_right _ hg)).1)
    (Chain.linked_append.1 hchain.linked).2

end Clean

end Tampering

/-- Copies of written rows need no key. -/
lemma unforged_of_copies {R : Type} {env : AuditEnv} {w : AuditWorld R} (hinv : HistoryInv w)
    {tampered : AuditDb} (h : ∀ e ∈ tampered.entries, ∃ g, written w g ∧ e.rebuilt = g.rebuilt ∧
      e.hmac = g.hmac) : Unforged env w tampered := by
  intro e he hmatches
  obtain ⟨g, hg, hrebuilt, hhmac⟩ := h e he
  obtain ⟨m, hm⟩ := hinv.hmac g hg
  refine ⟨g, hg, hrebuilt, ?_⟩
  rw [hhmac, hm, computeAuditHmac, hmacMatches_hex, Mac.bufferFromHex_hex] at hmatches
  rw [hm, computeAuditHmac, Mac.ext_bytes hmatches]

instance (a b : AuditLogEntry) : Decidable (Continues a b) :=
  inferInstanceAs (Decidable (∃ hash ∈ b.previousEntryHmac, hmacMatches a.hmac hash = true))

/-- The first row once more, at the end. -/
def replayFirst (db : AuditDb) : AuditDb :=
  ⟨db.entries ++ (db.entries.take 1).map fun e => { e with chainSeq := e.chainSeq + 100 }⟩

/-- After `attestedPurge` the first surviving row can be appended again: its previous HMAC
is attested wherever it stands. -/
lemma exists_replayed :
    ∃ s r, (sessions (auditJob plainEnv plainISOString) freshWorld).Reaches (fun _ _ => True) s ∧
      Unforged plainEnv s.world (replayFirst s.world.db) ∧
      (∀ e ∈ (replayFirst s.world.db).ofOrg "a", inWindow msPerDay (2 * msPerDay) e = true) ∧
      verifyAuditRange plainEnv (replayFirst s.world.db) "a" msPerDay (2 * msPerDay) = .ok r ∧
      r.failedCount = 0 ∧ ¬ List.IsChain Continues ((replayFirst s.world.db).chainOf "a") := by
  obtain ⟨s, hs, ⟨hwindow, hcount⟩, hbroken⟩ := Run.System.exists_of_exec
    (sessions (auditJob plainEnv plainISOString) freshWorld) (fun _ _ => True)
    (State.fresh freshWorld) attestedPurge
    (fun s => ((∀ e ∈ (replayFirst s.world.db).ofOrg "a",
        inWindow msPerDay (2 * msPerDay) e = true) ∧
      (verifyAuditRange plainEnv (replayFirst s.world.db) "a" msPerDay (2 * msPerDay)).toOption.map
        (·.failedCount) = some 0) ∧
      ¬ List.IsChain Continues ((replayFirst s.world.db).chainOf "a")) (by decide +kernel)
  have hreach := Run.System.steps_of_exec hs
  have hforge : Unforged plainEnv s.world (replayFirst s.world.db) := by
    refine unforged_of_copies (historyInv_of_reaches hreach) fun e he => ?_
    cases List.mem_append.1 he with
    | inl hold => exact ⟨e, .inl hold, rfl, rfl⟩
    | inr hcopy =>
      obtain ⟨d, hd, rfl⟩ := List.mem_map.1 hcopy
      exact ⟨d, .inl (List.mem_of_mem_take hd), rfl, rfl⟩
  cases hr : verifyAuditRange plainEnv (replayFirst s.world.db) "a" msPerDay (2 * msPerDay) with
  | error e =>
    rw [hr] at hcount
    simp [Except.toOption] at hcount
  | ok r =>
    rw [hr] at hcount
    exact ⟨s, r, hreach, hforge, hwindow, hr, by simpa [Except.toOption] using hcount, hbroken⟩

end ProjectVault.Audit
