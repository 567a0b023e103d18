import ProjectVault.Js.Runtime
import ProjectVault.Audit.Verify

/-!
Retention purges among the writers (`workers/audit-retention-prune.ts` and
`purge_expired_audit_log_entries` of migration `0036`).
-/

namespace ProjectVault.Audit

open Js Db

/-! ### The job -/

/-- The rows a purge is after. -/
def isExpired (orgId : String) (cutoff : ℕ) (e : AuditLogEntry) : Bool :=
  e.orgId = orgId ∧ e.createdAt < cutoff

/-- What a purge has read: the rows of the organization when it looked for the survivor,
and the rows its `DELETE` found. -/
structure PurgeTrace where
  orgId : String
  cutoff : ℕ
  seen : List AuditLogEntry
  doomed : List ℕ

/-- How a transaction ends. -/
inductive AuditAnswer where
  | done (committed : Bool)
  | purged (trace : PurgeTrace)

/-- The oldest row that a purge leaves. -/
def oldestSurvivor (cutoff : ℕ) (rows : List AuditLogEntry) : Option AuditLogEntry :=
  (sortAsc AuditLogEntry.chainSeq (rows.filter fun e => cutoff ≤ e.createdAt)).head?

/-- The rows that are left when the expired rows of the given positions are deleted. -/
def survives (orgId : String) (cutoff : ℕ) (gone : List ℕ) (e : AuditLogEntry) : Bool :=
  !(isExpired orgId cutoff e && gone.contains e.chainSeq)

/-- The rows a `DELETE` goes through: each is locked, looked at again, and removed if it
is still there; the result is `ROW_COUNT`. -/
def deleteRows {R : Type} (orgId : String) (cutoff : ℕ) : List ℕ → AuditProg R ℕ
  | [] => pure 0
  | n :: ns => do
      let one ← Prog.update (fun _ => [.row n]) (fun _ db => db.keep (survives orgId cutoff [n]))
        fun c => if c.view.entries.any fun e => isExpired orgId cutoff e ∧ e.chainSeq = n
          then 1 else 0
      let rest ← deleteRows orgId cutoff ns
      return one + rest

/-- `purge_expired_audit_log_entries`: the rows the statement found, and how many of them it
deleted. -/
def purgeExpiredAuditLogEntries {R : Type} (orgId : String) (cutoff : ℕ) :
    AuditProg R (List ℕ × ℕ) := do
  let doomed ← Prog.query fun c =>
    (c.view.entries.filter (isExpired orgId cutoff)).map AuditLogEntry.chainSeq
  let deleted ← deleteRows orgId cutoff doomed
  return (doomed, deleted)

/-- The fields of the boundary entry. -/
def boundaryFields (toISOString : ℕ → String) (orgId : String)
    (retentionDays cutoff deleted : ℕ) (expectedGapHash : String) : SystemAuditFields where
  orgId := orgId
  eventType := retentionPurgeBoundary
  resourceId := none
  resourceType := none
  payload :=
    { members := [("retentionDays", .num (.ofNat retentionDays)), ("cutoff", .str (toISOString cutoff)),
        ("deletedCount", .num (.ofNat deleted)), ("attestedGapHash", .str expectedGapHash)]
      distinct := by simp [Json.Distinct, Json.DistinctMembers] }

/-- The boundary entry, when rows were deleted and a hash is orphaned. -/
def attestGap {R : Type} (env : AuditEnv) (toISOString : ℕ → String) (orgId : String)
    (retentionDays cutoff deleted : ℕ) : Option String → AuditProg R Unit
  | some expectedGapHash =>
    if deleted > 0 then
      (AuditCall.system (boundaryFields toISOString orgId retentionDays cutoff deleted
        expectedGapHash)).toWrite.run env
    else pure ()
  | none => pure ()

/-- The transaction of `pruneExpiredAuditLogEntries` for one organization with the
retention it has configured. -/
def pruneOrg (env : AuditEnv) (toISOString : ℕ → String) (orgId : String) :
    Option ℕ → AuditProg AuditAnswer Unit
  | none => do
      Prog.beginTx
      Prog.commitTx (.done true)
  | some retentionDays => do
      Prog.beginTx
      let cutoff ← Prog.query fun c => c.clock - retentionDays * msPerDay
      let seen ← Prog.query fun c => c.view.ofOrg orgId
      let expectedGapHash := (oldestSurvivor cutoff seen).bind AuditLogEntry.previousEntryHmac
      let (doomed, deleted) ← purgeExpiredAuditLogEntries orgId cutoff
      attestGap env toISOString orgId retentionDays cutoff deleted expectedGapHash
      Prog.commitTx (.purged ⟨orgId, cutoff, seen, doomed⟩)

/-- A transaction on the audit log. -/
inductive AuditJob where
  | write (calls : List AuditCall)
  | prune (orgId : String) (retentionDays : Option ℕ)

/-- The code of a transaction. -/
def auditJob (env : AuditEnv) (toISOString : ℕ → String) : AuditJob → AuditProg AuditAnswer Unit
  | .write calls => do
      Prog.beginTx
      writeEntries env calls
      if ← Prog.either then Prog.commitTx (.done true) else Prog.rollbackTx (.done false)
  | .prune orgId retentionDays => pruneOrg env toISOString orgId retentionDays

/-! ### Orderly purges -/

/-- What a purge has to find at its commit, if it deletes anything: its `DELETE` has seen
every expired row, the expired rows come first in the chain, the survivor it has read
carries what the first of the others carries, and if there is no other nobody is writing. -/
structure OrderlyPurge (ev : Event AuditDb AuditLock AuditAnswer) (trace : PurgeTrace) : Prop where
  complete : ∀ e ∈ ev.before.ofOrg trace.orgId, e.createdAt < trace.cutoff →
    e.chainSeq ∈ trace.doomed
  first : ∀ a ∈ ev.before.ofOrg trace.orgId, ∀ b ∈ ev.before.ofOrg trace.orgId,
    a.chainSeq < b.chainSeq → b.createdAt < trace.cutoff → a.createdAt < trace.cutoff
  survivor : (oldestSurvivor trace.cutoff trace.seen).map (·.previousEntryHmac) =
    (oldestSurvivor trace.cutoff (ev.before.ofOrg trace.orgId)).map (·.previousEntryHmac)
  quiet : (oldestSurvivor trace.cutoff (ev.before.ofOrg trace.orgId)).isNone = true →
    ev.locked (.chain trace.orgId) = false

/-- A purge deletes a row. -/
def PurgeTrace.Deletes (trace : PurgeTrace) (db : AuditDb) : Prop :=
  ∃ e ∈ db.ofOrg trace.orgId, e.createdAt < trace.cutoff ∧ e.chainSeq ∈ trace.doomed

/-- The ends of transactions that purges cannot spoil. -/
def Orderly (ev : Event AuditDb AuditLock AuditAnswer) : Prop :=
  match ev.answer with
  | .done _ => True
  | .purged trace => trace.Deletes ev.before → OrderlyPurge ev trace

instance (trace : PurgeTrace) (db : AuditDb) : Decidable (trace.Deletes db) :=
  inferInstanceAs (Decidable (∃ e ∈ db.ofOrg trace.orgId, _))

instance (ev : Event AuditDb AuditLock AuditAnswer) (trace : PurgeTrace) :
    Decidable (OrderlyPurge ev trace) :=
  decidable_of_iff
    ((∀ e ∈ ev.before.ofOrg trace.orgId, e.createdAt < trace.cutoff → e.chainSeq ∈ trace.doomed) ∧
      (∀ a ∈ ev.before.ofOrg trace.orgId, ∀ b ∈ ev.before.ofOrg trace.orgId,
        a.chainSeq < b.chainSeq → b.createdAt < trace.cutoff → a.createdAt < trace.cutoff) ∧
      (oldestSurvivor trace.cutoff trace.seen).map (·.previousEntryHmac) =
        (oldestSurvivor trace.cutoff (ev.before.ofOrg trace.orgId)).map (·.previousEntryHmac) ∧
      ((oldestSurvivor trace.cutoff (ev.before.ofOrg trace.orgId)).isNone = true →
        ev.locked (.chain trace.orgId) = false))
    ⟨fun h => ⟨h.1, h.2.1, h.2.2.1, h.2.2.2⟩,
      fun h => ⟨h.complete, h.first, h.survivor, h.quiet⟩⟩

instance : DecidablePred Orderly := fun ev =>
  match h : ev.answer with
  | .done _ => isTrue (by rw [Orderly, h]; trivial)
  | .purged trace =>
    decidable_of_iff (trace.Deletes ev.before → OrderlyPurge ev trace) (by rw [Orderly, h])

/-- A boundary entry of a chain. -/
def Attests (env : AuditEnv) (hash : String) (e : AuditLogEntry) : Prop :=
  e.eventType = retentionPurgeBoundary ∧
    payloadText env e.payload "attestedGapHash" = some hash

/-- A chain that starts at its first row, or after a gap that one of its rows attests. -/
def AttestedChain (env : AuditEnv) (es : List AuditLogEntry) : Prop :=
  ∃ expected, LinkedFrom expected es ∧ ∀ hash ∈ expected, ∃ e ∈ es, Attests env hash e

/-- The obligations of writers and purges. -/
def attestedSpec (env : AuditEnv) : ChainSpec AuditAnswer where
  good _ := True
  kept := AttestedChain env
  kept_nil := ⟨none, trivial, by simp⟩
  kept_append := by
    rintro es new ⟨expected, hlinked, hattested⟩ hnew
    cases es with
    | nil => exact ⟨none, hnew, by simp⟩
    | cons e es =>
      refine ⟨expected, hlinked.append (by simp) hnew, ?_⟩
      intro hash hhash
      obtain ⟨b, hb, hatt⟩ := hattested hash hhash
      exact ⟨b, List.mem_append_left _ hb, hatt⟩
  admits := Orderly

/-- The row of the boundary entry attests the hash it was given. -/
lemma attests_boundary (env : AuditEnv) (toISOString : ℕ → String) (orgId : String)
    (retentionDays cutoff deleted : ℕ) (hash : String) (prev : Option String) (c : Ctx AuditDb) :
    Attests env hash ((AuditCall.system
      (boundaryFields toISOString orgId retentionDays cutoff deleted hash)).storedRow env prev c) := by
  refine ⟨rfl, ?_⟩
  set fields := boundaryFields toISOString orgId retentionDays cutoff deleted hash
  have hperm : (storedPayload fields.payload.members).Perm (storedMembers fields.payload.members) :=
    (perm_ownPropertyOrder _).trans (List.perm_insertionSort _ _)
  have hkeys : ((storedPayload fields.payload.members).map Prod.fst).Nodup := by
    rw [(hperm.map Prod.fst).nodup_iff]
    simp [fields, boundaryFields, storedMembers]
  have hget : (Json.obj (storedPayload fields.payload.members)).get? "attestedGapHash" =
      some (.str hash) := by
    rw [Json.get?_eq_some_iff hkeys, hperm.mem_iff]
    simp [fields, boundaryFields, storedMembers, storedJson]
  change payloadText env (storedPayload fields.payload.members) "attestedGapHash" = some hash
  rw [payloadText, hget]

/-! ### What a purge leaves -/

section Rows

variable {es : List AuditLogEntry} {cutoff : ℕ}

/-- The rows a purge leaves when the expired ones come first. -/
lemma filter_eq_fromWindow (hsorted : InOrder es)
    (hfirst : ∀ a ∈ es, ∀ b ∈ es, a.chainSeq < b.chainSeq → b.createdAt < cutoff →
      a.createdAt < cutoff) :
    es.filter (fun e => cutoff ≤ e.createdAt) =
      Chain.fromWindow (fun e => cutoff ≤ e.createdAt) es := by
  rw [← Chain.filter_fromWindow, List.filter_eq_self]
  cases hfrom : Chain.fromWindow (fun e => cutoff ≤ e.createdAt) es with
  | nil => simp
  | cons a rest =>
    have ha : cutoff ≤ a.createdAt := by simpa using Chain.head_fromWindow hfrom
    have hsplit := Chain.beforeWindow_append_fromWindow (fun e => cutoff ≤ e.createdAt) es
    rw [hfrom] at hsplit
    rw [InOrder, ← hsplit] at hsorted
    have hafter := (List.pairwise_cons.1 (List.pairwise_append.1 hsorted).2.1).1
    intro b hb
    cases List.mem_cons.1 hb with
    | inl heq => simpa [heq] using ha
    | inr hmem =>
      by_contra hexpired
      have hold : b.createdAt < cutoff := by simpa using hexpired
      have := hfirst a (by rw [← hsplit]; simp) b (by rw [← hsplit]; simp [hmem])
        (hafter b hmem) hold
      omega

lemma oldestSurvivor_eq (hsorted : InOrder es) :
    oldestSurvivor cutoff es = (es.filter fun e => cutoff ≤ e.createdAt).head? := by
  rw [oldestSurvivor, sortAsc_eq_self _ (hsorted.filter _)]

/-- Of a chain whose expired rows come first, the rest is a chain from the hash its first
row carries; that hash is there if anything was deleted. -/
lemma LinkedFrom.survivors {expected : Option String} (h : LinkedFrom expected es)
    (hsorted : InOrder es)
    (hfirst : ∀ a ∈ es, ∀ b ∈ es, a.chainSeq < b.chainSeq → b.createdAt < cutoff →
      a.createdAt < cutoff) {s : AuditLogEntry} (hs : oldestSurvivor cutoff es = some s) :
    LinkedFrom s.previousEntryHmac (es.filter fun e => cutoff ≤ e.createdAt) ∧
      ((∃ e ∈ es, e.createdAt < cutoff) → ∃ hash, s.previousEntryHmac = some hash) := by
  have hfilter := filter_eq_fromWindow hsorted hfirst
  rw [oldestSurvivor_eq hsorted, hfilter] at hs
  obtain ⟨rest, hfrom⟩ : ∃ rest,
      Chain.fromWindow (fun e => decide (cutoff ≤ e.createdAt)) es = s :: rest := by
    cases hfrom : Chain.fromWindow (fun e => decide (cutoff ≤ e.createdAt)) es with
    | nil => simp [hfrom] at hs
    | cons a rest => exact ⟨rest, by simpa [hfrom] using hs⟩
  have hsplit := Chain.beforeWindow_append_fromWindow (fun e => decide (cutoff ≤ e.createdAt)) es
  rw [LinkedFrom, ← hsplit, hfrom] at h
  obtain ⟨hprev, hrest⟩ := (Chain.linked_append.1 h).2
  rw [hfilter, hfrom]
  refine ⟨⟨rfl, hrest⟩, ?_⟩
  rintro ⟨e, he, hexpired⟩
  rw [hprev]
  -- an expired row stands before the survivor
  have hmem : e ∈ Chain.beforeWindow (fun e => decide (cutoff ≤ e.createdAt)) es := by
    rw [← hsplit, List.mem_append] at he
    cases he with
    | inl hbefore => exact hbefore
    | inr hafter =>
      rw [← hfilter] at hafter
      have : cutoff ≤ e.createdAt := by simpa using (List.mem_filter.1 hafter).2
      omega
  rw [Chain.lastHash_of_ne_nil (List.ne_nil_of_mem hmem) expected none]
  cases Chain.lastHash_none_eq AuditLogEntry.hmac
      (Chain.beforeWindow (fun e => decide (cutoff ≤ e.createdAt)) es) with
  | inl hnone =>
    have hlast := Option.or_eq_none_iff.1 hnone
    simp [List.ne_nil_of_mem hmem] at hlast
  | inr hsome =>
    obtain ⟨d, -, heq⟩ := hsome
    exact ⟨_, heq⟩

end Rows

/-! ### The statements of a purge -/

lemma survives_append (orgId : String) (cutoff : ℕ) (gone gone' : List ℕ) (e : AuditLogEntry) :
    survives orgId cutoff (gone ++ gone') e =
      (survives orgId cutoff gone e && survives orgId cutoff gone' e) := by
  simp only [survives, List.contains_eq_mem, List.mem_append]
  cases isExpired orgId cutoff e <;> simp

lemma AuditDb.keep_keep (db : AuditDb) (p q : AuditLogEntry → Bool) :
    (db.keep p).keep q = db.keep fun e => p e && q e := by
  simp only [AuditDb.keep, List.filter_filter, Bool.and_comm]

lemma survives_nil (orgId : String) (cutoff : ℕ) : survives orgId cutoff [] = keepAll := by
  funext e
  simp [survives, keepAll]

section DeleteRows

variable {R : Type} {P : Protocol AuditDb AuditLock R} {orgId : String} {cutoff : ℕ}
  {I : List ℕ → ℕ → Local AuditDb AuditLock → AuditWorld R → Prop}

/-- What one deletion keeps: the rows gone so far, their count, and the session. -/
def DeletionKeeps (P : Protocol AuditDb AuditLock R) (orgId : String) (cutoff : ℕ)
    (I : List ℕ → ℕ → Local AuditDb AuditLock → AuditWorld R → Prop) : Prop :=
  ∀ gone k n l w, I gone k l w → ∀ w', Rely P l.held w w' → P.inv w' →
    I (gone ++ [n])
      (k + if (l.ctx w').view.entries.any fun e => isExpired orgId cutoff e ∧ e.chainSeq = n
        then 1 else 0)
      (l.wrote [.row n] fun db => db.keep (survives orgId cutoff [n])) w'.bump

lemma wp_deleteRows_from (hround : DeletionKeeps P orgId cutoff I) (ns : List ℕ) {gone : List ℕ}
    {k : ℕ} {l : Local AuditDb AuditLock} {w : AuditWorld R} (h : I gone k l w) :
    wp P (deleteRows orgId cutoff ns) (fun k' => I (gone ++ ns) (k + k')) l w := by
  induction ns generalizing gone k l w with
  | nil => simpa [deleteRows] using h
  | cons n ns ih =>
    simp only [deleteRows, wp_bind, wp_pure]
    refine wp_update fun w' hr hi => ?_
    refine wp.mono ?_ _ (ih (hround gone k n l w h w' hr hi))
    intro k' l' w'' h'
    simpa [Nat.add_assoc] using h'

/-- The rule for `deleteRows`: what every deletion keeps holds after the last one. -/
lemma wp_deleteRows (hround : DeletionKeeps P orgId cutoff I) (ns : List ℕ)
    {l : Local AuditDb AuditLock} {w : AuditWorld R} (h : I [] 0 l w) :
    wp P (deleteRows orgId cutoff ns) (fun k => I ns k) l w := by
  refine wp.mono ?_ _ (wp_deleteRows_from hround ns h)
  intro k l' w' h'
  simpa using h'

end DeleteRows

section Purge

variable {w w' : AuditWorld AuditAnswer} {new : List AuditLogEntry} {l : Local AuditDb AuditLock}
  {trace : PurgeTrace}

/-- The rows of a purge are locked as it goes through them, and it counts those that were
still there. -/
structure Purging (env : AuditEnv) (orgId : String) (cutoff : ℕ) (gone : List ℕ) (deleted : ℕ)
    (l : Local AuditDb AuditLock) (w : AuditWorld AuditAnswer) : Prop where
  writing : Writing (attestedSpec env) (survives orgId cutoff gone) [] l w
  unchained : ∀ o, AuditLock.chain o ∉ l.held
  locked : ∀ n ∈ gone, AuditLock.row n ∈ l.held
  count : deleted = 0 ↔ ∀ e ∈ w.db.entries, isExpired orgId cutoff e = true → e.chainSeq ∉ gone

variable {env : AuditEnv}

/-- Rows that are locked are neither added nor removed. -/
lemma forall_notMem_iff_of_rely {held : Set AuditLock}
    (hr : Rely (chainProtocol (attestedSpec env)) held w w') {gone : List ℕ}
    (hlocked : ∀ n ∈ gone, AuditLock.row n ∈ held) (p : AuditLogEntry → Prop) :
    (∀ e ∈ w'.db.entries, p e → e.chainSeq ∉ gone) ↔
      ∀ e ∈ w.db.entries, p e → e.chainSeq ∉ gone := by
  constructor
  · intro h e he hp hgone
    exact h e ((mem_entries_iff_of_rely hr (hlocked _ hgone)).2 he) hp hgone
  · intro h e he hp hgone
    exact h e ((mem_entries_iff_of_rely hr (hlocked _ hgone)).1 he) hp hgone

lemma Purging.rely {orgId : String} {cutoff : ℕ} {gone : List ℕ} {deleted : ℕ}
    (h : Purging env orgId cutoff gone deleted l w)
    (hr : Rely (chainProtocol (attestedSpec env)) l.held w w') :
    Purging env orgId cutoff gone deleted l w' where
  writing := h.writing.rely hr
  unchained := h.unchained
  locked := h.locked
  count := h.count.trans (forall_notMem_iff_of_rely hr h.locked _).symm

/-- One more row. -/
lemma Purging.next {orgId : String} {cutoff n : ℕ} {gone : List ℕ} {deleted : ℕ}
    (h : Purging env orgId cutoff gone deleted l w) :
    Purging env orgId cutoff (gone ++ [n])
      (deleted + if (l.ctx w).view.entries.any fun e => isExpired orgId cutoff e ∧ e.chainSeq = n
        then 1 else 0)
      (l.wrote [.row n] fun db => db.keep (survives orgId cutoff [n])) w.bump where
  writing :=
    { pending := by
        funext db
        have hkeep : survives orgId cutoff (gone ++ [n]) =
            fun e => survives orgId cutoff gone e && survives orgId cutoff [n] e :=
          funext fun e => survives_append orgId cutoff gone [n] e
        simp only [Local.wrote, Function.comp_apply, h.writing.pending, AuditDb.append_nil,
          AuditDb.keep_keep, hkeep]
      locked := by simp
      rows := by simp
      sorted := fun o ho => absurd ho (by simpa [Local.wrote] using h.unchained o)
      linked := fun o ho => absurd ho (by simpa [Local.wrote] using h.unchained o) }
  unchained o := by simpa [Local.wrote] using h.unchained o
  locked m hm := by
    cases List.mem_append.1 hm with
    | inl hold => exact Or.inl (h.locked m hold)
    | inr heq => exact Or.inr (by simp [List.mem_singleton.1 heq])
  count := by
    have hview : (l.ctx w).view = w.db.keep (survives orgId cutoff gone) := by
      simp only [Local.ctx, h.writing.pending, AuditDb.append_nil]
    rw [hview, Nat.add_eq_zero_iff, h.count, ite_eq_right_iff]
    simp only [Nat.one_ne_zero, imp_false, List.any_eq_true, not_exists, not_and, decide_eq_true_eq]
    constructor
    · rintro ⟨hold, hnew⟩ e he hexpired hgone
      cases List.mem_append.1 hgone with
      | inl hmem => exact hold e he hexpired hmem
      | inr heq =>
        -- the row has not been removed before, so the statement sees it
        refine hnew e (List.mem_filter.2 ⟨he, ?_⟩) hexpired (List.mem_singleton.1 heq)
        simpa [survives, hexpired] using hold e he hexpired
    · intro hall
      refine ⟨fun e he hexpired hmem => hall e he hexpired (List.mem_append_left _ hmem), ?_⟩
      intro e he hexpired heq
      exact hall e (List.mem_of_mem_filter he) hexpired (by simp [heq])

/-- The end of a purge: it has removed the rows it went through, and if there was a hash
to attest it has added a row that does so. -/
structure Purged (env : AuditEnv) (trace : PurgeTrace) (new : List AuditLogEntry)
    (l : Local AuditDb AuditLock) (w : AuditWorld AuditAnswer) : Prop where
  writing : Writing (attestedSpec env) (survives trace.orgId trace.cutoff trace.doomed) new l w
  locked : ∀ n ∈ trace.doomed, AuditLock.row n ∈ l.held
  own : ∀ e ∈ new, e.orgId = trace.orgId
  attested : trace.Deletes w.db → ∀ s, oldestSurvivor trace.cutoff trace.seen = some s →
    ∀ hash, s.previousEntryHmac = some hash →
      AuditLock.chain trace.orgId ∈ l.held ∧ ∃ e ∈ new, Attests env hash e

lemma PurgeTrace.deletes_iff_not_forall (trace : PurgeTrace) (db : AuditDb) :
    trace.Deletes db ↔ ¬ ∀ e ∈ db.entries, isExpired trace.orgId trace.cutoff e = true →
      e.chainSeq ∉ trace.doomed := by
  simp only [PurgeTrace.Deletes, AuditDb.ofOrg, List.mem_filter, isExpired, decide_eq_true_eq,
    not_forall, not_not]
  constructor
  · rintro ⟨e, ⟨he, horg⟩, hold, hdoomed⟩
    exact ⟨e, he, ⟨horg, hold⟩, hdoomed⟩
  · rintro ⟨e, he, ⟨horg, hold⟩, hdoomed⟩
    exact ⟨e, ⟨he, horg⟩, hold, hdoomed⟩

lemma Purged.rely (h : Purged env trace new l w)
    (hr : Rely (chainProtocol (attestedSpec env)) l.held w w') : Purged env trace new l w' where
  writing := h.writing.rely hr
  locked := h.locked
  own := h.own
  attested hdeletes := by
    rw [PurgeTrace.deletes_iff_not_forall, forall_notMem_iff_of_rely hr h.locked,
      ← PurgeTrace.deletes_iff_not_forall] at hdeletes
    exact h.attested hdeletes

lemma Purged.filter_own (h : Purged env trace new l w) :
    (new.filter fun e => e.orgId = trace.orgId) = new := by
  rw [List.filter_eq_self]
  exact fun e he => by simpa using h.own e he

/-- The new rows continue what is left of the chain. -/
lemma Purged.linkedFrom (h : Purged env trace new l w)
    (hlock : AuditLock.chain trace.orgId ∈ l.held) :
    LinkedFrom (tailHmac ((w.db.ofOrg trace.orgId).filter
      (survives trace.orgId trace.cutoff trace.doomed))) new := by
  have := h.writing.linked _ hlock
  rwa [AuditDb.ofOrg_keep, h.filter_own] at this

lemma Purged.eq_nil (h : Purged env trace new l w) (hlock : AuditLock.chain trace.orgId ∉ l.held) :
    new = [] := by
  rw [List.eq_nil_iff_forall_not_mem]
  exact fun e he => h.writing.forall_ne hlock e he (h.own e he)

/-- The rows of other organizations survive. -/
lemma filter_survives_of_ne (trace : PurgeTrace) (db : AuditDb) {orgId : String}
    (h : orgId ≠ trace.orgId) :
    (db.ofOrg orgId).filter (survives trace.orgId trace.cutoff trace.doomed) = db.ofOrg orgId := by
  rw [List.filter_eq_self]
  intro e he
  have horg : e.orgId = orgId := by simpa using (List.mem_filter.1 he).2
  simp [survives, isExpired, horg, h]

/-- A purge that deletes nothing leaves its own rows alone, too. -/
lemma filter_survives_of_not_deletes {db : AuditDb} (h : ¬ trace.Deletes db) :
    (db.ofOrg trace.orgId).filter (survives trace.orgId trace.cutoff trace.doomed) =
      db.ofOrg trace.orgId := by
  rw [List.filter_eq_self]
  intro e he
  by_contra hgone
  simp only [survives, isExpired, Bool.not_eq_true', Bool.not_eq_false, Bool.and_eq_true,
    decide_eq_true_eq, List.contains_eq_mem] at hgone
  exact h ⟨e, he, hgone.1.2, hgone.2⟩

/-- An orderly purge leaves the rows that are not expired. -/
lemma OrderlyPurge.filter_survives {ev : Event AuditDb AuditLock AuditAnswer}
    (h : OrderlyPurge ev trace) :
    (ev.before.ofOrg trace.orgId).filter (survives trace.orgId trace.cutoff trace.doomed) =
      (ev.before.ofOrg trace.orgId).filter fun e => trace.cutoff ≤ e.createdAt := by
  refine List.filter_congr fun e he => ?_
  have horg : e.orgId = trace.orgId := by simpa using (List.mem_filter.1 he).2
  have hdoomed := h.complete e he
  by_cases hold : e.createdAt < trace.cutoff
  · simp [survives, isExpired, horg, hold, hdoomed hold]
  · simp [survives, isExpired, horg, hold, not_lt.1 hold]

/-- An orderly purge leaves a chain that starts at its first row or after a gap that it
has attested. -/
lemma Purged.attestedChain (h : Purged env trace new l w) (hinv : AuditInv (attestedSpec env) w)
    {ev : Event AuditDb AuditLock AuditAnswer} (hbefore : ev.before = w.db)
    (horderly : OrderlyPurge ev trace) (hdeletes : trace.Deletes w.db) :
    AttestedChain env ((w.db.ofOrg trace.orgId).filter
      (survives trace.orgId trace.cutoff trace.doomed) ++ new) ∧
    (AuditLock.chain trace.orgId ∈ l.held ∨ ev.locked (.chain trace.orgId) = false) := by
  obtain ⟨expected, hlinked, -⟩ := hinv.kept trace.orgId
  have hsorted := hinv.sorted trace.orgId
  have hcontinues := h.linkedFrom
  have hfilter := horderly.filter_survives
  have hsurvivor := horderly.survivor
  have hfirst := horderly.first
  have hquiet := horderly.quiet
  rw [hbefore] at hfilter hsurvivor hfirst hquiet
  rw [hfilter] at hcontinues ⊢
  cases hold : oldestSurvivor trace.cutoff (w.db.ofOrg trace.orgId) with
  | none =>
    -- nothing is left, and nobody is about to continue what is gone
    have hnil : ((w.db.ofOrg trace.orgId).filter fun e => trace.cutoff ≤ e.createdAt) = [] := by
      rw [oldestSurvivor_eq hsorted] at hold
      exact List.head?_eq_none_iff.1 hold
    rw [hnil] at hcontinues ⊢
    refine ⟨?_, .inr (hquiet (by rw [hold]; rfl))⟩
    rw [List.nil_append]
    by_cases hlock : AuditLock.chain trace.orgId ∈ l.held
    · exact ⟨none, hcontinues hlock, by simp⟩
    · exact ⟨none, by rw [h.eq_nil hlock]; trivial, by simp⟩
  | some s =>
    obtain ⟨hlink, hgap⟩ := hlinked.survivors hsorted hfirst hold
    obtain ⟨hash, hhash⟩ := hgap (hdeletes.imp fun e he => ⟨he.1, he.2.1⟩)
    rw [hold, Option.map_some] at hsurvivor
    obtain ⟨s', hs', hprev⟩ := Option.map_eq_some_iff.1 hsurvivor
    obtain ⟨hlock, b, hb, hattests⟩ := h.attested hdeletes s' hs' hash (hprev.trans hhash)
    have hne : ((w.db.ofOrg trace.orgId).filter fun e => trace.cutoff ≤ e.createdAt) ≠ [] := by
      intro hnil
      rw [oldestSurvivor_eq hsorted, hnil] at hold
      simp at hold
    refine ⟨⟨s.previousEntryHmac, hlink.append hne (hcontinues hlock), ?_⟩, .inl hlock⟩
    intro hash' hhash'
    obtain rfl : hash = hash' := Option.some.inj (hhash.symm.trans hhash')
    exact ⟨b, List.mem_append_right _ hb, hattests⟩

/-- A purge may commit. -/
lemma Purged.move (h : Purged env trace new l w) (hinv : AuditInv (attestedSpec env) w)
    {locked : AuditLock → Bool} (hadm : Orderly ⟨w.db, .purged trace, l.pending w.db, locked⟩) :
    AuditMove (attestedSpec env) l.held w ⟨w.db, .purged trace, l.pending w.db, locked⟩ := by
  have hpending : l.pending w.db =
      (w.db.keep (survives trace.orgId trace.cutoff trace.doomed)).append new := by
    rw [h.writing.pending]
  have hown : ∀ orgId, orgId ≠ trace.orgId → ∀ e ∈ new, e.orgId ≠ orgId := by
    intro orgId hne e he heq
    exact hne (heq.symm.trans (h.own e he))
  have hother : ∀ orgId, orgId ≠ trace.orgId →
      ((w.db.keep (survives trace.orgId trace.cutoff trace.doomed)).append new).ofOrg orgId =
        w.db.ofOrg orgId := by
    intro orgId hne
    rw [AuditDb.ofOrg_append_of_forall_ne (hown orgId hne), AuditDb.ofOrg_keep,
      filter_survives_of_ne trace w.db hne]
  have hmine : ((w.db.keep (survives trace.orgId trace.cutoff trace.doomed)).append new).ofOrg
      trace.orgId = (w.db.ofOrg trace.orgId).filter
        (survives trace.orgId trace.cutoff trace.doomed) ++ new := by
    rw [AuditDb.ofOrg_append, AuditDb.ofOrg_keep, h.filter_own]
  -- the chain of the organization, whether the purge deletes anything or not
  have hchain : AttestedChain env ((w.db.ofOrg trace.orgId).filter
      (survives trace.orgId trace.cutoff trace.doomed) ++ new) ∧
      (((w.db.ofOrg trace.orgId).filter (survives trace.orgId trace.cutoff trace.doomed) ++ new =
        w.db.ofOrg trace.orgId) ∨ AuditLock.chain trace.orgId ∈ l.held ∨
        locked (.chain trace.orgId) = false) := by
    by_cases hdeletes : trace.Deletes w.db
    · have horderly : OrderlyPurge _ trace := hadm hdeletes
      obtain ⟨hattested, hlock⟩ := h.attestedChain hinv rfl horderly hdeletes
      exact ⟨hattested, .inr hlock⟩
    · have hsame := filter_survives_of_not_deletes hdeletes
      by_cases hlock : AuditLock.chain trace.orgId ∈ l.held
      · refine ⟨?_, .inr (.inl hlock)⟩
        refine (attestedSpec env).kept_append ?_ (h.linkedFrom hlock)
        rw [hsame]
        exact hinv.kept trace.orgId
      · rw [h.eq_nil hlock, hsame, List.append_nil]
        exact ⟨hinv.kept trace.orgId, .inl rfl⟩
  rw [hpending]
  constructor
  · refine h.writing.inv_ended hinv ?_ _ locked
    intro orgId
    by_cases horg : orgId = trace.orgId
    · rw [horg, hmine]
      exact hchain.1
    · rw [hother orgId horg]
      exact hinv.kept orgId
  · intro orgId
    by_cases horg : orgId = trace.orgId
    · rw [horg, hmine]
      exact hchain.2
    · exact .inl (hother orgId horg)
  · intro e he
    have hnew : e ∉ new := fun hmem => he (h.writing.locked e hmem).2
    have hstays : survives trace.orgId trace.cutoff trace.doomed e = true := by
      have : e.chainSeq ∉ trace.doomed := fun hdoomed => he (h.locked _ hdoomed)
      simp [survives, this]
    simp [AuditDb.append, AuditDb.keep, hnew, hstays]

/-- The boundary entry, if there is a hash to attest. -/
lemma Purging.wp_attestGap (toISOString : ℕ → String) (retentionDays : ℕ) (trace : PurgeTrace)
    {deleted : ℕ} (h : Purging env trace.orgId trace.cutoff trace.doomed deleted l w) :
    wp (chainProtocol (attestedSpec env))
      (attestGap env toISOString trace.orgId retentionDays trace.cutoff deleted
        ((oldestSurvivor trace.cutoff trace.seen).bind AuditLogEntry.previousEntryHmac))
      (fun _ l' w' => ∃ new, Purged env trace new l' w') l w := by
  have hunattested : ∀ (hnone : trace.Deletes w.db → ∀ s,
      oldestSurvivor trace.cutoff trace.seen = some s → ∀ hash, s.previousEntryHmac ≠ some hash),
      ∃ new, Purged env trace new l w := by
    intro hnone
    refine ⟨[], h.writing, h.locked, by simp, ?_⟩
    intro hdeletes s hs hash hhash
    exact absurd hhash (hnone hdeletes s hs hash)
  cases hgap : (oldestSurvivor trace.cutoff trace.seen).bind AuditLogEntry.previousEntryHmac with
  | none =>
    simp only [attestGap, wp_pure]
    refine hunattested ?_
    intro _ s hs hash hhash
    rw [hs, Option.bind_some, hhash] at hgap
    simp at hgap
  | some hash =>
    simp only [attestGap]
    split_ifs with hdeleted
    · refine wp.mono ?_ _ (wp_run env (fun _ _ => trivial) h.writing)
      rintro - l' w' ⟨prev, c, hwriting, hheld⟩
      refine ⟨_, hwriting, fun n hn => hheld (h.locked n hn), ?_, ?_⟩
      · intro e he
        rw [List.mem_singleton.1 he]
        rfl
      · intro _ s hs hash' hhash'
        rw [hs, Option.bind_some, hhash'] at hgap
        obtain rfl : hash' = hash := Option.some.inj hgap
        exact ⟨(hwriting.locked _ (List.mem_singleton.2 rfl)).1, _, List.mem_singleton.2 rfl,
          attests_boundary _ _ _ _ _ _ _ _ _⟩
    · simp only [wp_pure]
      refine hunattested ?_
      intro hdeletes
      rw [PurgeTrace.deletes_iff_not_forall] at hdeletes
      exact absurd (h.count.1 (by omega)) hdeletes

/-- Writers and purges keep the protocol, in runs whose purges are orderly. -/
lemma keeps_auditJob (env : AuditEnv) (toISOString : ℕ → String) :
    Keeps (chainProtocol (attestedSpec env)) (auditJob env toISOString) fun _ => True := by
  intro job _ t w hinv
  cases job with
  | write calls =>
    simp only [auditJob, wp_bind]
    refine wp_beginTx fun w₁ hr₁ hi₁ => ?_
    refine wp.mono ?_ _ (wp_writeEntries env (fun _ _ _ _ => trivial)
      (writing_start (attestedSpec env) w₁.clock w₁))
    rintro - l₂ w₂ ⟨new, h₂⟩
    refine wp_either fun b => ?_
    cases b with
    | true =>
      refine wp_commitTx fun w₃ locked hr₃ hi₃ _ => ⟨?_, trivial⟩
      exact (h₂.rely hr₃).move hi₃ _ locked
    | false =>
      refine wp_rollbackTx fun w₃ locked hr₃ hi₃ _ => ⟨?_, trivial⟩
      exact hi₃.move_rolledBack _ _ _
  | prune orgId retentionDays =>
    cases retentionDays with
    | none =>
      simp only [auditJob, pruneOrg, wp_bind]
      refine wp_beginTx fun w₁ hr₁ hi₁ => wp_commitTx fun w₂ locked hr₂ hi₂ _ => ⟨?_, trivial⟩
      exact hi₂.move_rolledBack _ _ _
    | some days =>
      simp only [auditJob, pruneOrg, purgeExpiredAuditLogEntries, wp_bind, wp_pure]
      refine wp_beginTx fun w₁ hr₁ hi₁ => wp_query fun w₂ hr₂ hi₂ => wp_query fun w₃ hr₃ hi₃ =>
        wp_query fun w₄ hr₄ hi₄ => ?_
      have hstart : ∀ orgId cutoff, Purging env orgId cutoff [] 0 ⟨w₁.clock, ∅, id⟩ w₄.bump := by
        intro orgId cutoff
        refine ⟨?_, by simp, by simp, by simp⟩
        rw [survives_nil]
        exact writing_start _ _ _
      refine wp.mono ?_ _ (wp_deleteRows (I := Purging env orgId _)
        (fun gone k n l w h w' hr hi => (h.rely hr).next) _ (hstart _ _))
      intro deleted l₅ w₅ h₅
      refine wp.mono ?_ _ (h₅.wp_attestGap toISOString days ⟨orgId, _, _, _⟩)
      rintro - l₆ w₆ ⟨new, h₆⟩
      refine wp_commitTx fun w₇ locked hr₇ hi₇ hadm => ⟨?_, trivial⟩
      exact (h₆.rely hr₇).move hi₇ hadm

end Purge

/-! ### Runs -/

/-- A row of an attested chain is not reported as a break of the chain. -/
lemma AttestedChain.evaluateAuditRow_ne {env : AuditEnv} {db : AuditDb} {orgId : String}
    (h : AttestedChain env (db.ofOrg orgId)) {before after : List AuditLogEntry}
    {row : AuditLogEntry} (hsplit : db.ofOrg orgId = before ++ row :: after) :
    evaluateAuditRow env db (tailHmac before) row ≠ some .chainBreak := by
  obtain ⟨expected, hlinked, hattested⟩ := h
  have horg : row.orgId = orgId := by
    have hmem : row ∈ db.ofOrg orgId := by simp [hsplit]
    simpa using (List.mem_filter.1 hmem).2
  have hok : row.previousEntryHmac = tailHmac before ∨
      ∃ orphaned ∈ row.previousEntryHmac, hasAttestedGap env db row.orgId orphaned = true := by
    rw [hsplit] at hlinked
    have hprev : row.previousEntryHmac = Chain.lastHash AuditLogEntry.hmac expected before :=
      Chain.Linked.prev_eq hlinked
    cases before with
    | nil =>
      cases hexpected : expected with
      | none => exact .inl (by rw [hprev, hexpected]; rfl)
      | some hash =>
        obtain ⟨e, he, hevent, hpayload⟩ := hattested hash hexpected
        refine .inr ⟨hash, by rw [hprev, hexpected]; rfl, ?_⟩
        rw [hasAttestedGap, horg, List.any_eq_true]
        exact ⟨e, he, by simpa using ⟨hevent, hpayload⟩⟩
    | cons b bs =>
      refine .inl ?_
      rw [hprev, tailHmac, Chain.lastHash_of_ne_nil (by simp) expected none]
  simp only [evaluateAuditRow, hok, not_true, if_false]
  split_ifs <;> simp

/-- A stand-in for the text of an instant. -/
def plainISOString (t : ℕ) : String := toString t

/-- A row is written and expires; while another write is under way, a purge finds no
survivor and deletes it without attesting anything. -/
def racingPurge : List (Label AuditJob) :=
  [[.opens 0 (.write [systemCall "a" "x"])], Label.runsFor 0 7, [.tick (msPerDay + 1)],
   [.opens 1 (.write [systemCall "a" "yy"])], Label.runsFor 1 5,
   [.opens 2 (.prune "a" (some 1))], Label.runsFor 2 6, Label.runsFor 1 2].flatten

/-- Two rows are written, the first one expires and is purged. -/
def attestedPurge : List (Label AuditJob) :=
  [[.opens 0 (.write [systemCall "a" "x"])], Label.runsFor 0 7, [.tick (msPerDay + 1)],
   [.opens 1 (.write [systemCall "a" "yy"])], Label.runsFor 1 7,
   [.opens 2 (.prune "a" (some 1))], Label.runsFor 2 10].flatten

end ProjectVault.Audit
