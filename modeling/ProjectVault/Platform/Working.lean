import ProjectVault.Platform.Protocol

/-!
An open transaction on the platform audit log.
-/

namespace ProjectVault.Platform

open Js Db Audit

variable {env : PlatformEnv}
variable {receipt : ℕ → Receipt}

/-! ### Open transactions -/

/-- The events of a transaction continue the chain it has locked. -/
structure Inserted (spec : EntrySpec env) (eff : Effect) (held : Set PlatformLock)
    (w : PlatformWorld) : Prop where
  chain : eff.new ≠ [] → .chain ∈ held
  sorted : .chain ∈ held → (w.db.events ++ eff.new).Pairwise fun a b => a.chainSeq < b.chainSeq
  linked : .chain ∈ held → Chain.Linked PlatformAuditEvent.previousEntryHmac PlatformAuditEvent.hmac
    (Chain.lastHash PlatformAuditEvent.hmac none w.db.events) eff.new
  rows : ∀ e ∈ eff.new, e.chainSeq < w.seq ∧ spec.good e

/-- The numbers a transaction has drawn are its own, and its moves lose no entry. -/
structure Drawn (eff : Effect) (held : Set PlatformLock) (w : PlatformWorld) : Prop where
  own : ∀ r ∈ eff.own, .row r.number ∈ held ∧ r.number < w.seq ∧ r.number ∉ w.db.numbers
  nodup : (eff.own.map Receipt.number).Nodup
  balance : (eff.new.map PlatformAuditEvent.receipt ++
      (eff.apply w.db).pending.map PendingEntry.receipt).Perm
    (w.db.pending.map PendingEntry.receipt ++ eff.own)

/-- The queue and the flag change under the lock of the state. A transaction that does not
deactivate by force empties the queue before it switches the mode off. -/
structure Switched (spec : EntrySpec env) (forced : Bool) (eff : Effect) (warned : List ℕ)
    (held : Set PlatformLock) (w : PlatformWorld) : Prop where
  state : .state ∈ held ∨ eff.Quiet
  queueable : ∀ p ∈ eff.queued, spec.Queueable p
  ordered : .state ∈ held → Ordered (fun n => Warned w n ∨ n ∈ warned) (eff.apply w.db)
  calm : forced = false → .state ∈ held → Calm w.db → Calm (eff.apply w.db)
  active : forced = false → eff.flag = some false → Calm w.db → w.db.active = true
  activated : eff.flag = some true → w.db.active = false

/-- An open transaction that has had the effect `eff` and has warned about the pending
entries `warned`. -/
structure Working (spec : EntrySpec env) (forced : Bool) (eff : Effect) (warned : List ℕ)
    (l : Local PlatformDb PlatformLock) (w : PlatformWorld) : Prop where
  pending : l.pending = eff.apply
  inserted : Inserted spec eff l.held w
  drawn : Drawn eff l.held w
  switched : Switched spec forced eff warned l.held w

variable {spec : EntrySpec env} {forced : Bool} {eff : Effect} {warned : List ℕ}
  {held held' : Set PlatformLock} {l : Local PlatformDb PlatformLock} {w w' : PlatformWorld}

/-- The start of a transaction. -/
lemma working_start (spec : EntrySpec env) (forced : Bool) (t : ℕ) (w : PlatformWorld) :
    Working spec forced .none [] ⟨t, ∅, id⟩ w where
  pending := by
    funext db
    simp
  inserted := ⟨by simp [Effect.none], by simp, by simp, by simp [Effect.none]⟩
  drawn := ⟨by simp [Effect.none, Effect.own], by simp [Effect.none, Effect.own],
    by simp [Effect.none, Effect.own, Effect.apply, drainedNumbers]⟩
  switched := ⟨.inr ⟨rfl, rfl, rfl⟩, by simp [Effect.none], by simp, by simp,
    by simp [Effect.none], by simp [Effect.none]⟩

/-! ### What the others do -/

lemma Inserted.rely (h : Inserted spec eff held w) (hr : Rely (platformProtocol spec) held w w') :
    Inserted spec eff held w' where
  chain := h.chain
  sorted hchain := by
    rw [events_eq_of_rely hr hchain]
    exact h.sorted hchain
  linked hchain := by
    rw [events_eq_of_rely hr hchain]
    exact h.linked hchain
  rows e he := ⟨(h.rows e he).1.trans_le hr.le.1, (h.rows e he).2⟩

/-- Under the lock of the state the others leave the queue as it is. -/
lemma apply_pending_of_rely (hr : Rely (platformProtocol spec) held w w') (h : .state ∈ held)
    (eff : Effect) : (eff.apply w'.db).pending = (eff.apply w.db).pending := by
  simp only [Effect.apply, (state_eq_of_rely hr h).1]

lemma apply_active_of_rely (hr : Rely (platformProtocol spec) held w w') (h : .state ∈ held)
    (eff : Effect) : (eff.apply w'.db).active = (eff.apply w.db).active := by
  simp only [Effect.apply, (state_eq_of_rely hr h).2.1]

/-- The moves of a quiet transaction are balanced. -/
lemma Effect.Quiet.balance (h : eff.Quiet) (db : PlatformDb) :
    (eff.new.map PlatformAuditEvent.receipt ++
      (eff.apply db).pending.map PendingEntry.receipt).Perm
    (db.pending.map PendingEntry.receipt ++ eff.own) := by
  rw [h.own_eq, h.apply_pending]
  exact List.perm_append_comm

lemma Drawn.rely (h : Drawn eff held w) (hstate : .state ∈ held ∨ eff.Quiet)
    (hr : Rely (platformProtocol spec) held w w') : Drawn eff held w' where
  own r hmem := by
    obtain ⟨hrow, hlt, hnot⟩ := h.own r hmem
    exact ⟨hrow, hlt.trans_le hr.le.1, notMem_numbers_of_rely hr hrow hnot⟩
  nodup := h.nodup
  balance := by
    cases hstate with
    | inl hheld =>
      rw [apply_pending_of_rely hr hheld, (state_eq_of_rely hr hheld).1]
      exact h.balance
    | inr hquiet => exact hquiet.balance _

lemma Switched.rely (h : Switched spec forced eff warned held w)
    (hr : Rely (platformProtocol spec) held w w') : Switched spec forced eff warned held w' where
  state := h.state
  queueable := h.queueable
  ordered hheld := by
    have hmono := (h.ordered hheld).mono fun n hn => hn.imp_left (Warned.rely hr)
    refine hmono.congr ?_ (apply_pending_of_rely hr hheld eff)
    simp only [Effect.apply, drainedNumbers_append, (state_eq_of_rely hr hheld).2.2]
  calm hforced hheld hcalm := by
    obtain ⟨hpending, hactive, -⟩ := state_eq_of_rely hr hheld
    have := h.calm hforced hheld (by rwa [Calm, ← hpending, ← hactive])
    rwa [Calm, apply_pending_of_rely hr hheld, apply_active_of_rely hr hheld]
  active hforced hflag hcalm := by
    cases h.state with
    | inl hheld =>
      obtain ⟨hpending, hactive, -⟩ := state_eq_of_rely hr hheld
      rw [hactive]
      exact h.active hforced hflag (by rwa [Calm, ← hpending, ← hactive])
    | inr hquiet => simp [hquiet.flag] at hflag
  activated hflag := by
    cases h.state with
    | inl hheld =>
      rw [(state_eq_of_rely hr hheld).2.1]
      exact h.activated hflag
    | inr hquiet => simp [hquiet.flag] at hflag

lemma Working.rely (h : Working spec forced eff warned l w)
    (hr : Rely (platformProtocol spec) l.held w w') : Working spec forced eff warned l w' where
  pending := h.pending
  inserted := h.inserted.rely hr
  drawn := h.drawn.rely h.switched.state hr
  switched := h.switched.rely hr

lemma Working.bump (h : Working spec forced eff warned l w) :
    Working spec forced eff warned l w.bump :=
  h.rely (World.bump_rely w)

/-! ### Locks -/

lemma Working.view (h : Working spec forced eff warned l w) : (l.ctx w).view = eff.apply w.db := by
  rw [Local.ctx, h.pending]

/-- The lock of the chain shows its tail. -/
lemma Working.lockChain (h : Working spec forced eff warned l w) (hinv : PlatformInv spec w) :
    Working spec forced eff warned (l.wrote [.chain] id) w where
  pending := by simpa [Local.wrote] using h.pending
  inserted := by
    by_cases hold : .chain ∈ l.held
    · exact ⟨fun _ => Or.inl hold, fun _ => h.inserted.sorted hold, fun _ => h.inserted.linked hold,
        h.inserted.rows⟩
    · have hnil : eff.new = [] := by
        by_contra hne
        exact hold (h.inserted.chain hne)
      refine ⟨fun hne => absurd hnil hne, fun _ => ?_, fun _ => ?_, h.inserted.rows⟩
      · rw [hnil, List.append_nil]
        exact hinv.chain.sorted
      · rw [hnil]
        trivial
  drawn := ⟨fun r hr => ⟨Or.inl (h.drawn.own r hr).1, (h.drawn.own r hr).2⟩, h.drawn.nodup,
    h.drawn.balance⟩
  switched := by
    have hiff : PlatformLock.state ∈ (l.wrote [.chain] id).held ↔ .state ∈ l.held := by
      simp [Local.wrote]
    refine ⟨?_, h.switched.queueable, ?_, ?_, h.switched.active, h.switched.activated⟩
    · rw [hiff]
      exact h.switched.state
    · rw [hiff]
      exact h.switched.ordered
    · rw [hiff]
      exact h.switched.calm

/-- The lock of the state shows the queue and the flag. -/
lemma Working.lockState (h : Working spec forced eff warned l w) (hinv : PlatformInv spec w) :
    Working spec forced eff warned (l.wrote [.state] id) w where
  pending := by simpa [Local.wrote] using h.pending
  inserted := by
    have hiff : PlatformLock.chain ∈ (l.wrote [.state] id).held ↔ .chain ∈ l.held := by
      simp [Local.wrote]
    refine ⟨?_, ?_, ?_, h.inserted.rows⟩
    · rw [hiff]
      exact h.inserted.chain
    · rw [hiff]
      exact h.inserted.sorted
    · rw [hiff]
      exact h.inserted.linked
  drawn := ⟨fun r hr => ⟨Or.inl (h.drawn.own r hr).1, (h.drawn.own r hr).2⟩, h.drawn.nodup,
    h.drawn.balance⟩
  switched := by
    refine ⟨Or.inl (Or.inr (by simp)), h.switched.queueable, ?_, ?_, h.switched.active,
      h.switched.activated⟩
    · intro _
      cases h.switched.state with
      | inl hold => exact h.switched.ordered hold
      | inr hquiet =>
        refine (hinv.ordered.mono fun n hn => Or.inl hn).congr ?_ (hquiet.apply_pending _)
        exact hquiet.drainedNumbers_apply _
    · intro hforced _ hcalm
      cases h.switched.state with
      | inl hold => exact h.switched.calm hforced hold hcalm
      | inr hquiet =>
        rw [Calm, hquiet.apply_pending, hquiet.apply_active]
        exact hcalm

/-! ### Numbers -/

/-- The receipts after the transaction are those before it, and its own. -/
lemma Drawn.receipts_apply (h : Drawn eff held w) :
    (eff.apply w.db).receipts.Perm (w.db.receipts ++ eff.own) := by
  have := h.balance.append_left (w.db.events.map PlatformAuditEvent.receipt)
  simpa [PlatformDb.receipts, Effect.apply] using this

lemma Drawn.nodup_apply (h : Drawn eff held w) (hinv : PlatformInv spec w) :
    (eff.apply w.db).numbers.Nodup := by
  have hperm := h.receipts_apply.map Receipt.number
  rw [PlatformDb.numbers, hperm.nodup_iff, List.map_append, List.nodup_append]
  refine ⟨hinv.nodup, h.nodup, ?_⟩
  rintro a ha b hb rfl
  obtain ⟨r, hr, hra⟩ := List.mem_map.1 hb
  exact (h.own r hr).2.2 (hra ▸ ha)

lemma Drawn.mem_numbers_apply (h : Drawn eff held w) {n : ℕ} :
    n ∈ (eff.apply w.db).numbers ↔ n ∈ w.db.numbers ∨ n ∈ eff.own.map Receipt.number := by
  have hperm := h.receipts_apply.map Receipt.number
  rw [PlatformDb.numbers, hperm.mem_iff, List.map_append, List.mem_append]
  exact Iff.rfl

lemma Drawn.lt_of_mem_numbers (h : Drawn eff held w) (hinv : PlatformInv spec w) {n : ℕ}
    (hn : n ∈ (eff.apply w.db).numbers) : n < w.seq := by
  cases h.mem_numbers_apply.1 hn with
  | inl hold => exact hinv.fresh n hold
  | inr hown =>
    obtain ⟨r, hr, rfl⟩ := List.mem_map.1 hown
    exact (h.own r hr).2.1

lemma mem_numbers_of_mem_events {db : PlatformDb} {e : PlatformAuditEvent} (he : e ∈ db.events) :
    e.receipt.number ∈ db.numbers :=
  List.mem_map_of_mem (List.mem_append_left _ (List.mem_map_of_mem he))

lemma PlatformDb.nodup_sequenceNum {db : PlatformDb} (h : db.numbers.Nodup) :
    (db.pending.map PendingEntry.sequenceNum).Nodup := by
  rw [PlatformDb.numbers, PlatformDb.receipts, List.map_append] at h
  have hpending := (List.nodup_append.1 h).2.1
  rwa [List.map_map] at hpending

lemma mem_numbers_of_mem_drainedNumbers {db : PlatformDb} {n : ℕ}
    (h : n ∈ drainedNumbers db.events) : n ∈ db.numbers := by
  obtain ⟨e, he, hn⟩ := List.mem_filterMap.1 h
  have hnumber : e.receipt.number = n := by simp [PlatformAuditEvent.receipt, hn]
  exact hnumber ▸ mem_numbers_of_mem_events he

/-- An entry of a list without repeated keys, taken out of it. -/
lemma perm_cons_filter {α : Type} {key : α → ℕ} {xs : List α} (h : (xs.map key).Nodup) {x : α}
    (hx : x ∈ xs) : xs.Perm (x :: xs.filter fun y => some (key x) ≠ some (key y)) := by
  induction xs with
  | nil => simp at hx
  | cons y ys ih =>
    rw [List.map_cons, List.nodup_cons] at h
    cases List.mem_cons.1 hx with
    | inl heq =>
      subst heq
      have hkeep : ys.filter (fun z => some (key x) ≠ some (key z)) = ys := by
        refine List.filter_eq_self.2 fun z hz => ?_
        have hne : key x ≠ key z := fun heq => h.1 (heq ▸ List.mem_map_of_mem hz)
        simpa using hne
      rw [List.filter_cons_of_neg (by simp), hkeep]
    | inr hmem =>
      have hne : key x ≠ key y := fun heq => h.1 (heq ▸ List.mem_map_of_mem hmem)
      rw [List.filter_cons_of_pos (by simpa using hne)]
      exact ((ih h.2 hmem).cons y).trans (List.Perm.swap x y _)

/-! ### Inserts -/

/-- A pending entry that a transaction may move next: those before it were warned about. -/
structure Movable (eff : Effect) (warned : List ℕ) (held : Set PlatformLock) (w : PlatformWorld)
    (p : PendingEntry) : Prop where
  state : .state ∈ held
  mem : p ∈ (eff.apply w.db).pending
  first : ∀ q ∈ (eff.apply w.db).pending, q.sequenceNum < p.sequenceNum → q.sequenceNum ∈ warned

lemma Movable.rely {p : PendingEntry} (h : Movable eff warned held w p)
    (hr : Rely (platformProtocol spec) held w w') : Movable eff warned held w' p := by
  have heq := apply_pending_of_rely hr h.state eff
  exact ⟨h.state, heq ▸ h.mem, heq ▸ h.first⟩

/-- Where an event comes from: it is new, or it replaces a pending entry. -/
def Sourced (eff : Effect) (warned : List ℕ) (held : Set PlatformLock) (w : PlatformWorld)
    (receipt : ℕ → Receipt) (drainedFrom : Option ℕ) : Prop :=
  ∀ m, drainedFrom = some m → ∃ p, Movable eff warned held w p ∧ p.sequenceNum = m ∧
    p.receipt = receipt m

lemma Sourced.rely {drainedFrom : Option ℕ} (h : Sourced eff warned held w receipt drainedFrom)
    (hr : Rely (platformProtocol spec) held w w') :
    Sourced eff warned held w' receipt drainedFrom := by
  intro m hm
  obtain ⟨p, hp, hrest⟩ := h m hm
  exact ⟨p, hp.rely hr, hrest⟩

lemma Sourced.held_mono {drainedFrom : Option ℕ} (h : Sourced eff warned held w receipt drainedFrom)
    (hsub : held ⊆ held') :
    Sourced eff warned held' w receipt drainedFrom := by
  intro m hm
  obtain ⟨p, hp, hrest⟩ := h m hm
  exact ⟨p, ⟨hsub hp.state, hp.mem, hp.first⟩, hrest⟩

variable {e : PlatformAuditEvent}

/-- What an insert writes. -/
def insertion (e : PlatformAuditEvent) (db : PlatformDb) : PlatformDb :=
  PlatformDb.take { db with events := db.events ++ [e] } e.drainedFrom

lemma Inserted.insert (h : Inserted spec eff held w) (hinv : PlatformInv spec w)
    (hchain : .chain ∈ held) (hseq : e.chainSeq = w.seq) (hgood : spec.good e)
    (hprev : e.previousEntryHmac =
      Chain.lastHash PlatformAuditEvent.hmac none (w.db.events ++ eff.new)) (hsub : held ⊆ held') :
    Inserted spec (eff.insert e) held' w.bump where
  chain _ := hsub hchain
  sorted _ := by
    change (w.db.events ++ (eff.new ++ [e])).Pairwise _
    rw [← List.append_assoc]
    refine List.pairwise_append.2 ⟨h.sorted hchain, List.pairwise_singleton _ _, ?_⟩
    intro d hd x hx
    rw [List.mem_singleton.1 hx, hseq]
    cases List.mem_append.1 hd with
    | inl hcommitted => exact hinv.seqs d hcommitted
    | inr hown => exact (h.rows d hown).1
  linked _ := by
    refine Chain.linked_snoc.2 ⟨h.linked hchain, ?_⟩
    rw [hprev, Chain.lastHash_append]
    rfl
  rows d hd := by
    cases List.mem_append.1 hd with
    | inl hmem => exact ⟨(h.rows d hmem).1.trans (Nat.lt_succ_self _), (h.rows d hmem).2⟩
    | inr heq =>
      rw [List.mem_singleton.1 heq, hseq]
      exact ⟨Nat.lt_succ_self _, hgood⟩

/-- The receipt of the new entry is drawn now. -/
lemma own_snoc (h : Drawn eff held w) (hinv : PlatformInv spec w) {r : Receipt}
    (hr : r.number = w.seq) (hsub : held ⊆ held') (hrow : .row w.seq ∈ held') :
    (∀ s ∈ eff.own ++ [r], .row s.number ∈ held' ∧ s.number < w.bump.seq ∧
      s.number ∉ w.db.numbers) ∧ ((eff.own ++ [r]).map Receipt.number).Nodup := by
  constructor
  · intro s hs
    cases List.mem_append.1 hs with
    | inl hmem =>
      obtain ⟨hheld, hlt, hnot⟩ := h.own s hmem
      exact ⟨hsub hheld, hlt.trans (Nat.lt_succ_self _), hnot⟩
    | inr heq =>
      rw [List.mem_singleton.1 heq, hr]
      exact ⟨hrow, Nat.lt_succ_self _, fun hmem => (hinv.fresh _ hmem).ne rfl⟩
  · rw [List.map_append, List.nodup_append]
    refine ⟨h.nodup, List.nodup_singleton _, ?_⟩
    rintro a ha b hb rfl
    obtain ⟨s, hs, rfl⟩ := List.mem_map.1 ha
    have heq : s.number = r.number := by simpa using hb
    exact (h.own s hs).2.1.ne (heq.trans hr)

lemma Drawn.insert (h : Drawn eff held w) (hinv : PlatformInv spec w) (hseq : e.chainSeq = w.seq)
    (hsource : Sourced eff warned held w receipt e.drainedFrom)
    (hreceipt : ∀ m, e.drainedFrom = some m → e.receipt = receipt m) (hsub : held ⊆ held')
    (hrow : .row w.seq ∈ held') : Drawn (eff.insert e) held' w.bump := by
  cases hfrom : e.drainedFrom with
  | none =>
    have hnumber : e.receipt.number = w.seq := by simp [PlatformAuditEvent.receipt, hfrom, hseq]
    have hperm : (eff.insert e).own.Perm (eff.own ++ [e.receipt]) :=
      Effect.own_insert_direct hfrom
    obtain ⟨hown, hnodup⟩ := own_snoc h hinv hnumber hsub hrow
    refine ⟨fun s hs => hown s (hperm.mem_iff.1 hs), (hperm.map _).nodup_iff.2 hnodup, ?_⟩
    rw [Effect.apply_insert, hfrom, PlatformDb.take_none]
    refine List.Perm.trans ?_ (hperm.append_left _).symm
    have hswap : ((eff.insert e).new.map PlatformAuditEvent.receipt ++
        (eff.apply w.db).pending.map PendingEntry.receipt).Perm
        ((eff.new.map PlatformAuditEvent.receipt ++
          (eff.apply w.db).pending.map PendingEntry.receipt) ++ [e.receipt]) := by
      simp only [Effect.insert, List.map_append, List.append_assoc]
      exact List.Perm.append_left _ List.perm_append_comm
    refine hswap.trans ?_
    rw [← List.append_assoc]
    exact h.balance.append_right _
  | some m =>
    obtain ⟨p, hp, hpm, hpr⟩ := hsource m hfrom
    have hown : (eff.insert e).own = eff.own := Effect.own_insert_drained hfrom
    rw [← hreceipt m hfrom] at hpr
    refine ⟨?_, ?_, ?_⟩
    · rw [hown]
      intro s hs
      obtain ⟨hheld, hlt, hnot⟩ := h.own s hs
      exact ⟨hsub hheld, hlt.trans (Nat.lt_succ_self _), hnot⟩
    · rw [hown]
      exact h.nodup
    · -- the receipt of the event is the one of the entry it replaces
      have htaken := perm_cons_filter (PlatformDb.nodup_sequenceNum (h.nodup_apply hinv)) hp.mem
      rw [hown, Effect.apply_insert, hfrom]
      refine List.Perm.trans ?_ h.balance
      simp only [Effect.insert, List.map_append, List.append_assoc, PlatformDb.take, ← hpm]
      refine List.Perm.append_left _ ?_
      have hmap := (htaken.map PendingEntry.receipt).symm
      simpa [hpr, World.bump] using hmap

lemma Switched.insert (h : Switched spec forced eff warned held w)
    (hsource : Sourced eff warned held w receipt e.drainedFrom) (hsub : held ⊆ held')
    (hstate : .state ∈ held' → .state ∈ held) :
    Switched spec forced (eff.insert e) warned held' w.bump where
  state := by
    cases hfrom : e.drainedFrom with
    | none =>
      refine h.state.imp (fun hs => hsub hs) fun hquiet => ⟨hquiet.queued, hquiet.flag, ?_⟩
      simp [Effect.insert, drainedNumbers_append, hquiet.drained, drainedNumbers_singleton, hfrom]
    | some m =>
      obtain ⟨p, hp, -⟩ := hsource m hfrom
      exact Or.inl (hsub hp.state)
  queueable := h.queueable
  ordered hheld := by
    have hordered := h.ordered (hstate hheld)
    change Ordered _ ((eff.insert e).apply w.db)
    rw [Effect.apply_insert]
    cases hfrom : e.drainedFrom with
    | none =>
      rw [PlatformDb.take_none]
      refine hordered.congr ?_ rfl
      simp [drainedNumbers_append, drainedNumbers_singleton, hfrom]
    | some m =>
      obtain ⟨p, hp, hpm, -⟩ := hsource m hfrom
      constructor
      · simp only [PlatformDb.take, drainedNumbers_append, drainedNumbers_singleton, hfrom,
          Option.toList_some]
        refine List.pairwise_append.2 ⟨hordered.moved, List.pairwise_singleton _ _, ?_⟩
        intro a ha b hb hlt
        rw [List.mem_singleton.1 hb, ← hpm] at hlt ⊢
        exact hordered.waiting a ha p hp.mem hlt
      · intro a ha q hq hlt
        have hq' := List.mem_of_mem_filter hq
        simp only [PlatformDb.take, drainedNumbers_append, drainedNumbers_singleton, hfrom,
          Option.toList_some] at ha
        cases List.mem_append.1 ha with
        | inl hold => exact hordered.waiting a hold q hq' hlt
        | inr heq =>
          rw [List.mem_singleton.1 heq, ← hpm] at hlt
          exact Or.inr (hp.first q hq' hlt)
  calm hforced hheld hcalm := by
    change Calm ((eff.insert e).apply w.db)
    rw [Effect.apply_insert]
    intro hactive
    have hnil := h.calm hforced (hstate hheld) hcalm hactive
    simp [PlatformDb.take, hnil]
  active := h.active
  activated := h.activated

/-- An insert that carries the tail of the chain. -/
lemma Working.insert (h : Working spec forced eff warned l w) (hinv : PlatformInv spec w)
    (hchain : .chain ∈ l.held) (hseq : e.chainSeq = w.seq) (hgood : spec.good e)
    (hprev : e.previousEntryHmac =
      Chain.lastHash PlatformAuditEvent.hmac none (w.db.events ++ eff.new))
    (hsource : Sourced eff warned l.held w receipt e.drainedFrom)
    (hreceipt : ∀ m, e.drainedFrom = some m → e.receipt = receipt m) :
    Working spec forced (eff.insert e) warned (l.wrote [.row w.seq] (insertion e)) w.bump where
  pending := by
    funext db
    rw [Effect.apply_insert, ← h.pending]
    rfl
  inserted := h.inserted.insert hinv hchain hseq hgood hprev fun _ hk => Or.inl hk
  drawn := h.drawn.insert hinv hseq hsource hreceipt (fun _ hk => Or.inl hk) (Or.inr (by simp))
  switched := by
    refine h.switched.insert hsource (fun _ hk => Or.inl hk) ?_
    simp [Local.wrote]

/-! ### The queue and the flag -/

/-- A pending entry is added while the mode is active. -/
lemma Working.queue (h : Working spec forced eff warned l w) (hinv : PlatformInv spec w)
    (hstate : .state ∈ l.held) {p : PendingEntry} (hseq : p.sequenceNum = w.seq)
    (hqueueable : spec.Queueable p) (hactive : (eff.apply w.db).active = true) :
    Working spec forced (eff.queue p) warned
      (l.wrote [.row w.seq] fun db => { db with pending := db.pending ++ [p] }) w.bump := by
  have hnot : p.sequenceNum ∉ drainedNumbers eff.new := by
    intro hmem
    have hdrained : p.sequenceNum ∈ drainedNumbers (eff.apply w.db).events := by
      simp only [Effect.apply, drainedNumbers_append]
      exact List.mem_append_right _ hmem
    have hlt := h.drawn.lt_of_mem_numbers hinv (mem_numbers_of_mem_drainedNumbers hdrained)
    omega
  have happly := Effect.apply_queue hnot
  constructor
  · funext db
    rw [happly, ← h.pending]
    rfl
  · have hiff : PlatformLock.chain ∈ (l.wrote [.row w.seq] fun db : PlatformDb =>
        { db with pending := db.pending ++ [p] }).held ↔ .chain ∈ l.held := by
      simp [Local.wrote]
    refine ⟨?_, ?_, ?_, ?_⟩
    · rw [hiff]
      exact h.inserted.chain
    · rw [hiff]
      exact h.inserted.sorted
    · rw [hiff]
      exact h.inserted.linked
    · exact fun e he => ⟨(h.inserted.rows e he).1.trans (Nat.lt_succ_self _),
        (h.inserted.rows e he).2⟩
  · have hown := Effect.own_queue eff p
    obtain ⟨hmine, hnodup⟩ := own_snoc (r := p.receipt) h.drawn hinv hseq (fun _ hk => Or.inl hk)
      (Or.inr (by simp) : .row w.seq ∈ (l.wrote [.row w.seq] fun db : PlatformDb =>
        { db with pending := db.pending ++ [p] }).held)
    refine ⟨?_, ?_, ?_⟩
    · rw [hown]
      exact hmine
    · rw [hown]
      exact hnodup
    · change (eff.new.map PlatformAuditEvent.receipt ++
        ((eff.queue p).apply w.db).pending.map PendingEntry.receipt).Perm
          (w.db.pending.map PendingEntry.receipt ++ (eff.queue p).own)
      rw [happly, hown, List.map_append, ← List.append_assoc, ← List.append_assoc]
      exact h.drawn.balance.append_right _
  · refine ⟨Or.inl (Or.inl hstate), ?_, ?_, ?_, h.switched.active, h.switched.activated⟩
    · intro q hq
      cases List.mem_append.1 hq with
      | inl hmem => exact h.switched.queueable q hmem
      | inr heq =>
        rw [List.mem_singleton.1 heq]
        exact hqueueable
    · intro _
      have hordered := h.switched.ordered hstate
      change Ordered _ ((eff.queue p).apply w.db)
      rw [happly]
      refine ⟨hordered.moved, ?_⟩
      intro a ha q hq hlt
      cases List.mem_append.1 hq with
      | inl hmem => exact hordered.waiting a ha q hmem hlt
      | inr heq =>
        have hlt' := h.drawn.lt_of_mem_numbers hinv (mem_numbers_of_mem_drainedNumbers ha)
        rw [List.mem_singleton.1 heq] at hlt
        omega
    · intro _ _ _
      change Calm ((eff.queue p).apply w.db)
      rw [happly]
      intro hinactive
      exact absurd (hactive.symm.trans hinactive) (by simp)

/-- The flag is set: off only when nothing is pending, or by force. -/
lemma Working.switch (h : Working spec forced eff warned l w) (hinv : PlatformInv spec w)
    (active : Bool)
    (hoff : active = false → forced = false →
      (eff.apply w.db).pending = [] ∧ (Calm w.db → w.db.active = true))
    (hon : active = true → w.db.active = false) :
    Working spec forced (eff.switch active) warned
      (l.wrote [.state] fun db => { db with active := active }) w.bump := by
  have hlocked := (h.lockState hinv).switched
  have hstate : PlatformLock.state ∈ (l.wrote [.state] (id : PlatformDb → PlatformDb)).held :=
    Or.inr (by simp)
  constructor
  · funext db
    change PlatformDb.mk _ _ _ = _
    rw [h.pending]
    rfl
  · have hiff : PlatformLock.chain ∈ (l.wrote [.state] fun db : PlatformDb =>
        { db with active := active }).held ↔ .chain ∈ l.held := by
      simp [Local.wrote]
    refine ⟨?_, ?_, ?_, ?_⟩
    · rw [hiff]
      exact h.inserted.chain
    · rw [hiff]
      exact h.inserted.sorted
    · rw [hiff]
      exact h.inserted.linked
    · exact fun e he => ⟨(h.inserted.rows e he).1.trans (Nat.lt_succ_self _),
        (h.inserted.rows e he).2⟩
  · exact ⟨fun r hr => ⟨Or.inl (h.drawn.own r hr).1,
      (h.drawn.own r hr).2.1.trans (Nat.lt_succ_self _), (h.drawn.own r hr).2.2⟩, h.drawn.nodup,
      h.drawn.balance⟩
  · refine ⟨Or.inl hstate, h.switched.queueable, ?_, ?_, ?_, ?_⟩
    · exact fun _ => (hlocked.ordered hstate).congr rfl rfl
    · intro hforced _ _ hinactive
      exact (hoff hinactive hforced).1
    · intro hforced hflag hcalm
      exact (hoff (Option.some.inj hflag) hforced).2 hcalm
    · exact fun hflag => hon (Option.some.inj hflag)

lemma Working.warn (h : Working spec forced eff warned l w) (more : List ℕ) :
    Working spec forced eff (warned ++ more) l w := by
  refine ⟨h.pending, h.inserted, h.drawn, h.switched.state, h.switched.queueable, ?_,
    h.switched.calm, h.switched.active, h.switched.activated⟩
  exact fun hheld => (h.switched.ordered hheld).mono fun n hn =>
    hn.imp_right (List.mem_append_left more)

end ProjectVault.Platform
