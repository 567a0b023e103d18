import ProjectVault.Chain.Linked
import ProjectVault.Audit.Entry

/-!
The chain of every organization under concurrent writers.
-/

namespace ProjectVault.Audit

open Db

/-- The writers of a transaction, one after the other. -/
def writeEntries {R : Type} (env : AuditEnv) (calls : List AuditCall) : AuditProg R Unit :=
  Prog.forEach calls fun call => call.toWrite.run env

/-- A transaction that writes audit entries, for one organization or several. -/
def auditTransaction (env : AuditEnv) (calls : List AuditCall) : AuditProg Bool Unit := do
  Prog.beginTx
  writeEntries env calls
  if ← Prog.either then Prog.commitTx true else Prog.rollbackTx false

/-- The rows of an organization as the verifier walks them. -/
def AuditDb.chainOf (db : AuditDb) (orgId : String) : List AuditLogEntry :=
  sortAsc AuditLogEntry.chainSeq (db.ofOrg orgId)

/-- The order of `chain_seq`. -/
def InOrder (es : List AuditLogEntry) : Prop := es.Pairwise fun a b => a.chainSeq < b.chainSeq

/-- Every row carries the HMAC of the row before, the first one `expected`. -/
def LinkedFrom (expected : Option String) (es : List AuditLogEntry) : Prop :=
  Chain.Linked AuditLogEntry.previousEntryHmac AuditLogEntry.hmac expected es

/-- The HMAC of the last row. -/
def tailHmac (es : List AuditLogEntry) : Option String :=
  Chain.lastHash AuditLogEntry.hmac none es

/-- Rows that stand in the order of `chain_seq` and carry each the HMAC of the row
before, the first one none. -/
structure Chained (es : List AuditLogEntry) : Prop where
  sorted : InOrder es
  linked : LinkedFrom none es

/-- The tail that `getPreviousEntryHmac` reads. -/
lemma InOrder.head?_sortDesc {es : List AuditLogEntry} (h : InOrder es) :
    (sortDesc AuditLogEntry.chainSeq es).head?.map (·.hmac) = tailHmac es := by
  rw [head?_sortDesc_eq_getLast? _ h]
  simp [tailHmac, Chain.lastHash]

/-- Rows that continue the tail of a chain belong to it. -/
lemma LinkedFrom.append {expected : Option String} {es new : List AuditLogEntry}
    (h : LinkedFrom expected es) (hne : es ≠ []) (hnew : LinkedFrom (tailHmac es) new) :
    LinkedFrom expected (es ++ new) := by
  refine Chain.linked_append.2 ⟨h, ?_⟩
  rw [Chain.lastHash_of_ne_nil hne expected none]
  exact hnew

/-! ### Added and removed rows -/

/-- Adds rows. -/
def AuditDb.append (db : AuditDb) (new : List AuditLogEntry) : AuditDb := ⟨db.entries ++ new⟩

/-- Leaves the rows that are kept. -/
def AuditDb.keep (db : AuditDb) (kept : AuditLogEntry → Bool) : AuditDb := ⟨db.entries.filter kept⟩

/-- No row is removed. -/
def keepAll (_ : AuditLogEntry) : Bool := true

@[simp] lemma AuditDb.append_nil (db : AuditDb) : db.append [] = db := by
  simp [AuditDb.append]

@[simp] lemma AuditDb.keep_keepAll (db : AuditDb) : db.keep keepAll = db := by
  have hall : db.entries.filter keepAll = db.entries := List.filter_eq_self.2 fun _ _ => rfl
  rw [AuditDb.keep, hall]

lemma AuditDb.append_append (db : AuditDb) (new new' : List AuditLogEntry) :
    (db.append new).append new' = db.append (new ++ new') := by
  simp [AuditDb.append]

lemma AuditDb.ofOrg_append (db : AuditDb) (new : List AuditLogEntry) (orgId : String) :
    (db.append new).ofOrg orgId = db.ofOrg orgId ++ new.filter fun e => e.orgId = orgId := by
  simp [AuditDb.append, AuditDb.ofOrg]

lemma AuditDb.ofOrg_keep (db : AuditDb) (kept : AuditLogEntry → Bool) (orgId : String) :
    (db.keep kept).ofOrg orgId = (db.ofOrg orgId).filter kept := by
  simp only [AuditDb.keep, AuditDb.ofOrg, List.filter_filter, Bool.and_comm]

/-- Rows of other organizations do not show. -/
lemma AuditDb.ofOrg_append_of_forall_ne {db : AuditDb} {new : List AuditLogEntry} {orgId : String}
    (h : ∀ e ∈ new, e.orgId ≠ orgId) : (db.append new).ofOrg orgId = db.ofOrg orgId := by
  rw [AuditDb.ofOrg_append, List.filter_eq_nil_iff.2 (by simpa using h), List.append_nil]

lemma AuditCall.orgId_storedRow (env : AuditEnv) (call : AuditCall) (prev : Option String)
    (c : Ctx AuditDb) : (call.storedRow env prev c).orgId = call.toWrite.orgId := by
  cases call <;> rfl

lemma AuditCall.previousEntryHmac_storedRow (env : AuditEnv) (call : AuditCall)
    (prev : Option String) (c : Ctx AuditDb) :
    (call.storedRow env prev c).previousEntryHmac = prev := by
  cases call <;> rfl

lemma AuditCall.hmac_storedRow (env : AuditEnv) (call : AuditCall) (prev : Option String)
    (c : Ctx AuditDb) : (call.storedRow env prev c).hmac =
      computeAuditHmac env (call.toWrite.digest env.keyVersion prev) := by
  cases call <;> rfl

/-! ### The protocol -/

section Protocol

variable {R : Type}

/-- The worlds of the audit log. -/
abbrev AuditWorld (R : Type) := World AuditDb AuditLock R

/-- What the sessions see to: of each row when it is written, and of the rows of an
organization between transactions; and the ends of transactions of the runs. -/
structure ChainSpec (R : Type) where
  good : AuditLogEntry → Prop
  kept : List AuditLogEntry → Prop
  kept_nil : kept []
  kept_append : ∀ {es new}, kept es → LinkedFrom (tailHmac es) new → kept (es ++ new)
  admits : Event AuditDb AuditLock R → Prop

variable (spec : ChainSpec R)

/-- The committed rows between transactions. -/
structure AuditInv (w : AuditWorld R) : Prop where
  sorted : ∀ orgId, InOrder (w.db.ofOrg orgId)
  kept : ∀ orgId, spec.kept (w.db.ofOrg orgId)
  rows : ∀ e ∈ w.db.entries, e.chainSeq < w.seq ∧ spec.good e

/-- The protocol: the rows of an organization change under the lock of its chain, or
while nobody holds that lock, and a row comes or goes under its own lock. -/
structure AuditMove (held : Set AuditLock) (w : AuditWorld R) (ev : Event AuditDb AuditLock R) :
    Prop where
  inv : AuditInv spec (w.ended ev)
  chain : ∀ orgId, ev.after.ofOrg orgId = w.db.ofOrg orgId ∨ AuditLock.chain orgId ∈ held ∨
    ev.locked (.chain orgId) = false
  row : ∀ e, AuditLock.row e.chainSeq ∉ held → (e ∈ ev.after.entries ↔ e ∈ w.db.entries)

/-- The protocol of the audit log. -/
def chainProtocol : Protocol AuditDb AuditLock R where
  inv := AuditInv spec
  move := AuditMove spec
  admits := spec.admits
  inv_move := fun _ _ _ hmove => hmove.inv
  inv_later := by
    intro w n t h hn ht
    exact ⟨h.sorted, h.kept, fun e he => ⟨(h.rows e he).1.trans_le hn, (h.rows e he).2⟩⟩

/-- A transaction that has added the rows `new` to the rows it keeps: they are under
locks it holds, and continue the tails of their chains. -/
structure Writing (keep : AuditLogEntry → Bool) (new : List AuditLogEntry)
    (l : Local AuditDb AuditLock) (w : AuditWorld R) : Prop where
  pending : l.pending = fun db => (db.keep keep).append new
  locked : ∀ e ∈ new, AuditLock.chain e.orgId ∈ l.held ∧ AuditLock.row e.chainSeq ∈ l.held
  rows : ∀ e ∈ new, e.chainSeq < w.seq ∧ spec.good e
  sorted : ∀ orgId, AuditLock.chain orgId ∈ l.held → InOrder ((w.db.append new).ofOrg orgId)
  linked : ∀ orgId, AuditLock.chain orgId ∈ l.held →
    LinkedFrom (tailHmac ((w.db.keep keep).ofOrg orgId)) (new.filter fun e => e.orgId = orgId)

variable {spec}

/-- Nobody else can move a chain that is locked. -/
lemma ofOrg_eq_of_rely {held : Set AuditLock} {w w' : AuditWorld R}
    (hr : Rely (chainProtocol spec) held w w') {orgId : String}
    (horg : AuditLock.chain orgId ∈ held) : w'.db.ofOrg orgId = w.db.ofOrg orgId := by
  refine Rely.stable (A := fun v => v.db.ofOrg orgId = w.db.ofOrg orgId) ?_ ?_ hr rfl
  · intro other v ev hdisj hlocked _ _ _ hmove hsame
    cases hmove.chain orgId with
    | inl heq => exact heq.trans hsame
    | inr hlock =>
      cases hlock with
      | inl hother => exact absurd hother (Set.disjoint_left.1 hdisj horg)
      | inr hfree =>
        rw [hlocked _ horg] at hfree
        simp at hfree
  · exact fun v n t _ _ hsame => hsame

/-- Nobody else can add or remove a row that is locked. -/
lemma mem_entries_iff_of_rely {held : Set AuditLock} {w w' : AuditWorld R}
    (hr : Rely (chainProtocol spec) held w w') {e : AuditLogEntry}
    (he : AuditLock.row e.chainSeq ∈ held) : e ∈ w'.db.entries ↔ e ∈ w.db.entries := by
  refine Rely.stable (A := fun v => e ∈ v.db.entries ↔ e ∈ w.db.entries) ?_ ?_ hr Iff.rfl
  · intro other v ev hdisj _ _ _ _ hmove hsame
    exact (hmove.row e (Set.disjoint_left.1 hdisj he)).trans hsame
  · exact fun v n t _ _ hsame => hsame

variable {keep : AuditLogEntry → Bool} {new : List AuditLogEntry} {l : Local AuditDb AuditLock}
  {w w' : AuditWorld R}

lemma Writing.rely (h : Writing spec keep new l w) (hr : Rely (chainProtocol spec) l.held w w') :
    Writing spec keep new l w' where
  pending := h.pending
  locked := h.locked
  rows e he := ⟨(h.rows e he).1.trans_le hr.le.1, (h.rows e he).2⟩
  sorted orgId horg := by
    have := h.sorted orgId horg
    rw [AuditDb.ofOrg_append] at this ⊢
    rwa [ofOrg_eq_of_rely hr horg]
  linked orgId horg := by
    have := h.linked orgId horg
    rw [AuditDb.ofOrg_keep] at this ⊢
    rwa [ofOrg_eq_of_rely hr horg]

/-- A chain without the lock has no new rows. -/
lemma Writing.forall_ne (h : Writing spec keep new l w) {orgId : String}
    (horg : AuditLock.chain orgId ∉ l.held) : ∀ e ∈ new, e.orgId ≠ orgId := by
  intro e he heq
  exact horg (heq ▸ (h.locked e he).1)

/-- After the lock, the chain of the organization is in order as the transaction sees
it, whether the lock is new or not. -/
lemma Writing.lock (h : Writing spec keep new l w) (hinv : AuditInv spec w) (orgId : String) :
    Writing spec keep new (l.wrote [.chain orgId] id) w.bump where
  pending := by simpa [Local.wrote] using h.pending
  locked e he := ⟨Or.inl (h.locked e he).1, Or.inl (h.locked e he).2⟩
  rows e he := ⟨(h.rows e he).1.trans (Nat.lt_succ_self _), (h.rows e he).2⟩
  sorted o ho := by
    by_cases hold : AuditLock.chain o ∈ l.held
    · exact h.sorted o hold
    · rw [World.bump, AuditDb.ofOrg_append_of_forall_ne (h.forall_ne hold)]
      exact hinv.sorted o
  linked o ho := by
    by_cases hold : AuditLock.chain o ∈ l.held
    · exact h.linked o hold
    · have hnone : (new.filter fun e => e.orgId = o) = [] :=
        List.filter_eq_nil_iff.2 (by simpa using h.forall_ne hold)
      rw [hnone]
      trivial

lemma Writing.insert (h : Writing spec keep new l w) (hinv : AuditInv spec w) {e : AuditLogEntry}
    (hlock : AuditLock.chain e.orgId ∈ l.held) (hseq : e.chainSeq = w.seq) (hgood : spec.good e)
    (hprev : e.previousEntryHmac = tailHmac (((w.db.keep keep).append new).ofOrg e.orgId)) :
    Writing spec keep (new ++ [e]) (l.wrote [.row w.seq] fun db => db.insert e) w.bump where
  pending := by
    funext db
    simp only [Local.wrote, Function.comp_apply, h.pending, AuditDb.insert, AuditDb.append,
      List.append_assoc]
  locked d hd := by
    cases List.mem_append.1 hd with
    | inl hmem => exact ⟨Or.inl (h.locked d hmem).1, Or.inl (h.locked d hmem).2⟩
    | inr heq =>
      rw [List.mem_singleton.1 heq]
      exact ⟨Or.inl hlock, Or.inr (by simp [hseq])⟩
  rows d hd := by
    cases List.mem_append.1 hd with
    | inl hmem => exact ⟨(h.rows d hmem).1.trans (Nat.lt_succ_self _), (h.rows d hmem).2⟩
    | inr heq =>
      rw [List.mem_singleton.1 heq, hseq]
      exact ⟨Nat.lt_succ_self _, hgood⟩
  sorted orgId horg := by
    have hold : AuditLock.chain orgId ∈ l.held := by simpa [Local.wrote] using horg
    have hsorted := h.sorted orgId hold
    rw [World.bump, ← AuditDb.append_append, AuditDb.ofOrg_append (w.db.append new)]
    by_cases horg' : e.orgId = orgId
    · subst horg'
      simp only [decide_true, List.filter_cons_of_pos, List.filter_nil]
      refine List.pairwise_append.2 ⟨hsorted, List.pairwise_singleton _ _, ?_⟩
      intro d hd x hx
      rw [List.mem_singleton.1 hx, hseq]
      have hmem : d ∈ w.db.entries ++ new := List.mem_of_mem_filter hd
      cases List.mem_append.1 hmem with
      | inl hcommitted => exact (hinv.rows d hcommitted).1
      | inr hown => exact (h.rows d hown).1
    · simpa [horg'] using hsorted
  linked orgId horg := by
    have hold : AuditLock.chain orgId ∈ l.held := by simpa [Local.wrote] using horg
    have hlinked := h.linked orgId hold
    rw [World.bump, List.filter_append]
    by_cases horg' : e.orgId = orgId
    · subst horg'
      simp only [decide_true, List.filter_cons_of_pos, List.filter_nil]
      refine Chain.linked_snoc.2 ⟨hlinked, ?_⟩
      rw [hprev, AuditDb.ofOrg_append, tailHmac, Chain.lastHash_append]
      rfl
    · simpa [horg'] using hlinked

/-- A writer of rows that are good keeps its transaction in order, and adds one row. -/
lemma wp_run (env : AuditEnv) {call : AuditCall}
    (hgood : ∀ prev (c : Ctx AuditDb), spec.good (call.storedRow env prev c))
    (h : Writing spec keep new l w) :
    wp (chainProtocol spec) (call.toWrite.run env)
      (fun _ l' w' => ∃ prev c, Writing spec keep (new ++ [call.storedRow env prev c]) l' w' ∧
        l.held ⊆ l'.held) l w := by
  simp only [ChainedWrite.run, readAuditChainHead, getPreviousEntryHmac, wp_bind, wp_pure]
  refine wp_query fun w₁ hr₁ hi₁ => wp_lock fun w₂ hr₂ hi₂ => wp_query fun w₃ hr₃ hi₃ =>
    wp_update fun w₄ hr₄ hi₄ => ?_
  -- the rows before the lock, under the lock, at the read and at the insert
  have h₁ := (h.rely hr₁).rely (World.bump_rely _)
  have h₂ := (h₁.rely hr₂).lock hi₂ call.toWrite.orgId
  have h₃ := h₂.rely hr₃
  have hrely := (World.bump_rely w₃).trans hr₄
  have h₄ := h₃.rely hrely
  have hlock : AuditLock.chain call.toWrite.orgId ∈
      (l.wrote [.chain call.toWrite.orgId] id).held := by
    simp [Local.wrote]
  refine ⟨_, _, h₄.insert hi₄ ?_ rfl (hgood _ _) ?_, fun k hk => Or.inl (Or.inl hk)⟩
  · rw [call.orgId_storedRow]
    exact hlock
  · have hview : (l.wrote [.chain call.toWrite.orgId] id).ctx w₃ =
        ⟨(w₃.db.keep keep).append new, l.start, w₃.clock, w₃.seq⟩ := by
      rw [Local.ctx, h₃.pending]
      rfl
    have hsorted : InOrder (((w₃.db.keep keep).append new).ofOrg call.toWrite.orgId) := by
      refine (h₃.sorted _ hlock).sublist ?_
      rw [AuditDb.ofOrg_append, AuditDb.ofOrg_append, AuditDb.ofOrg_keep]
      exact List.filter_sublist.append (List.Sublist.refl _)
    rw [call.orgId_storedRow, call.previousEntryHmac_storedRow, hview, hsorted.head?_sortDesc,
      AuditDb.ofOrg_append, AuditDb.ofOrg_append, AuditDb.ofOrg_keep, AuditDb.ofOrg_keep,
      ofOrg_eq_of_rely hrely hlock]

/-- A transaction may commit what it has added and removed if that keeps the chains in
the shape the sessions have agreed on. -/
lemma Writing.inv_ended (h : Writing spec keep new l w) (hinv : AuditInv spec w)
    (hkept : ∀ orgId, spec.kept (((w.db.keep keep).append new).ofOrg orgId)) (r : R)
    (locked : AuditLock → Bool) :
    AuditInv spec (w.ended ⟨w.db, r, (w.db.keep keep).append new, locked⟩) where
  sorted orgId := by
    change InOrder (((w.db.keep keep).append new).ofOrg orgId)
    by_cases horg : AuditLock.chain orgId ∈ l.held
    · refine (h.sorted orgId horg).sublist ?_
      rw [AuditDb.ofOrg_append, AuditDb.ofOrg_append, AuditDb.ofOrg_keep]
      exact List.filter_sublist.append (List.Sublist.refl _)
    · rw [AuditDb.ofOrg_append_of_forall_ne (h.forall_ne horg), AuditDb.ofOrg_keep]
      exact (hinv.sorted orgId).filter _
  kept := hkept
  rows e he := by
    cases List.mem_append.1 he with
    | inl hold => exact hinv.rows e (List.mem_of_mem_filter hold)
    | inr hown => exact h.rows e hown

/-- A rollback keeps everything. -/
lemma AuditInv.move_rolledBack (hinv : AuditInv spec w) (held : Set AuditLock) (r : R)
    (locked : AuditLock → Bool) : AuditMove spec held w ⟨w.db, r, w.db, locked⟩ :=
  ⟨⟨hinv.sorted, hinv.kept, hinv.rows⟩, fun _ => .inl rfl, fun _ _ => Iff.rfl⟩

/-- What a transaction has only added may be committed. -/
lemma Writing.move (h : Writing spec keepAll new l w) (hinv : AuditInv spec w) (r : R)
    (locked : AuditLock → Bool) : AuditMove spec l.held w ⟨w.db, r, l.pending w.db, locked⟩ := by
  have hpending : l.pending w.db = (w.db.keep keepAll).append new := by rw [h.pending]
  rw [hpending]
  constructor
  · refine h.inv_ended hinv ?_ r locked
    intro orgId
    by_cases horg : AuditLock.chain orgId ∈ l.held
    · rw [AuditDb.ofOrg_append]
      refine spec.kept_append ?_ (h.linked orgId horg)
      rw [AuditDb.keep_keepAll]
      exact hinv.kept orgId
    · rw [AuditDb.ofOrg_append_of_forall_ne (h.forall_ne horg), AuditDb.keep_keepAll]
      exact hinv.kept orgId
  · intro orgId
    by_cases horg : AuditLock.chain orgId ∈ l.held
    · exact .inr (.inl horg)
    · refine .inl ?_
      rw [AuditDb.ofOrg_append_of_forall_ne (h.forall_ne horg), AuditDb.keep_keepAll]
  · intro e he
    rw [AuditDb.keep_keepAll]
    have hnew : e ∉ new := fun hmem => he (h.locked e hmem).2
    simp [AuditDb.append, hnew]

/-- The start of a transaction. -/
lemma writing_start (spec : ChainSpec R) (t : ℕ) (w : AuditWorld R) :
    Writing spec keepAll [] ⟨t, ∅, id⟩ w := by
  refine ⟨?_, by simp, by simp, by simp, by simp⟩
  funext db
  simp

/-- The writers of a transaction keep it in order. -/
lemma wp_writeEntries (env : AuditEnv) {calls : List AuditCall}
    (hgood : ∀ call ∈ calls, ∀ prev (c : Ctx AuditDb), spec.good (call.storedRow env prev c))
    (h : Writing spec keepAll new l w) :
    wp (chainProtocol spec) (writeEntries env calls)
      (fun _ l w => ∃ new, Writing spec keepAll new l w) l w := by
  refine wp_forEach (I := fun l w => ∃ new, Writing spec keepAll new l w) ?_ ⟨new, h⟩
  rintro call hcall l w ⟨new, h⟩
  refine wp.mono ?_ _ (wp_run env (hgood call hcall) h)
  rintro - l' w' ⟨prev, c, h', -⟩
  exact ⟨_, h'⟩

lemma keeps_auditTransaction {spec : ChainSpec Bool} (env : AuditEnv)
    {allowed : List AuditCall → Prop}
    (hgood : ∀ calls, allowed calls → ∀ call ∈ calls, ∀ prev (c : Ctx AuditDb),
      spec.good (call.storedRow env prev c)) :
    Keeps (chainProtocol spec) (auditTransaction env) allowed := by
  intro calls hallowed t w hinv
  simp only [auditTransaction, wp_bind]
  refine wp_beginTx fun w₁ hr₁ hi₁ => ?_
  refine wp.mono ?_ _ (wp_writeEntries env (hgood calls hallowed) (writing_start spec w₁.clock w₁))
  rintro - l₂ w₂ ⟨new, h₂⟩
  refine wp_either fun b => ?_
  cases b with
  | true =>
    refine wp_commitTx fun w₃ locked hr₃ hi₃ _ => ⟨?_, trivial⟩
    exact (h₂.rely hr₃).move hi₃ true locked
  | false =>
    refine wp_rollbackTx fun w₃ locked hr₃ hi₃ _ => ⟨?_, trivial⟩
    exact hi₃.move_rolledBack _ _ _

end Protocol

/-! ### Runs -/

/-- An empty log to start from. -/
def freshWorld {R : Type} : AuditWorld R := ⟨⟨[]⟩, 0, 0, []⟩

lemma auditInv_freshWorld {R : Type} (spec : ChainSpec R) : AuditInv spec freshWorld where
  sorted _ := List.Pairwise.nil
  kept _ := spec.kept_nil
  rows := by simp [freshWorld]

/-- Rows are only added, so every chain starts with its first row. -/
def appendOnly (good : AuditLogEntry → Prop) : ChainSpec Bool where
  good := good
  kept := LinkedFrom none
  kept_nil := trivial
  kept_append := fun h hnew => Chain.linked_append.2 ⟨h, hnew⟩
  admits _ := True

lemma AuditInv.chained {good : AuditLogEntry → Prop} {w : AuditWorld Bool}
    (h : AuditInv (appendOnly good) w) (orgId : String) : Chained (w.db.ofOrg orgId) :=
  ⟨h.sorted orgId, h.kept orgId⟩

/-- A system event of an organization, without a resource. -/
def systemCall (orgId eventType : String) : AuditCall :=
  .system ⟨orgId, eventType, none, none, ⟨[], by simp [Js.Json.Distinct, Js.Json.DistinctMembers]⟩⟩

/-- Two sessions that write to one chain at the same time, and to another one: the second
session waits for the first. -/
def racingWrites : List (Label (List AuditCall)) :=
  [[.opens 0 [systemCall "a" "x", systemCall "b" "y"], .opens 1 [systemCall "a" "z"],
    .runs 0 true, .runs 1 true, .runs 0 true, .runs 1 true],
   Label.runsFor 0 9, Label.runsFor 1 5].flatten

end ProjectVault.Audit
