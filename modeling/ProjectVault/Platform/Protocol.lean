import ProjectVault.Platform.Maintenance

/-!
What the transactions of the platform audit log owe each other.
-/

namespace ProjectVault.Platform

open Js Db Audit

/-! ### Tables -/

/-- The receipt of an event: a drained one keeps the number of its pending entry. -/
def PlatformAuditEvent.receipt (e : PlatformAuditEvent) : Receipt where
  number := e.drainedFrom.getD e.chainSeq
  operatorId := e.operatorId
  actionType := e.actionType
  targetOrgId := e.targetOrgId
  targetUserId := e.targetUserId

/-- The receipt of a pending entry. -/
def PendingEntry.receipt (p : PendingEntry) : Receipt := p.fields.receipt p.sequenceNum

/-- The receipts of all stored entries. -/
def PlatformDb.receipts (db : PlatformDb) : List Receipt :=
  db.events.map PlatformAuditEvent.receipt ++ db.pending.map PendingEntry.receipt

/-- The numbers of all stored entries. -/
def PlatformDb.numbers (db : PlatformDb) : List ℕ := db.receipts.map Receipt.number

/-- The numbers of the entries that were moved out of the queue, in the order of the
moves. -/
def drainedNumbers (events : List PlatformAuditEvent) : List ℕ :=
  events.filterMap PlatformAuditEvent.drainedFrom

/-- Entries are moved in the order of their numbers, except those somebody has been warned
about. -/
structure Ordered (warned : ℕ → Prop) (db : PlatformDb) : Prop where
  moved : (drainedNumbers db.events).Pairwise fun a b => b < a → warned b
  waiting : ∀ a ∈ drainedNumbers db.events, ∀ p ∈ db.pending, p.sequenceNum < a →
    warned p.sequenceNum

/-- Nothing is pending while maintenance mode is inactive. -/
def Calm (db : PlatformDb) : Prop := db.active = false → db.pending = []

/-- The event of a deactivation. -/
def PlatformAuditEvent.IsDeactivation (e : PlatformAuditEvent) : Prop :=
  e.actionType = maintenanceModeDeactivated

instance : DecidablePred PlatformAuditEvent.IsDeactivation :=
  fun _ => inferInstanceAs (Decidable (_ = _))

/-- The number of deactivation events. -/
def deactivations (events : List PlatformAuditEvent) : ℕ :=
  (events.filter fun e => e.IsDeactivation).length

/-- The events in the order of their chain. -/
structure EventChain (events : List PlatformAuditEvent) : Prop where
  sorted : events.Pairwise fun a b => a.chainSeq < b.chainSeq
  linked : Chain.Linked PlatformAuditEvent.previousEntryHmac PlatformAuditEvent.hmac none events

/-- The pending entry that an event replaces is gone. -/
def PlatformDb.take (db : PlatformDb) (drainedFrom : Option ℕ) : PlatformDb :=
  { db with pending := db.pending.filter fun p => drainedFrom ≠ some p.sequenceNum }

@[simp] lemma PlatformDb.take_none (db : PlatformDb) : db.take none = db := by
  simp [PlatformDb.take]

lemma PlatformDb.delete_eq_take (n : ℕ) :
    (fun db : PlatformDb => db.delete n) = fun db => db.take (some n) := by
  funext db
  simp [PlatformDb.delete, PlatformDb.take, eq_comm]

lemma drainedNumbers_append (events events' : List PlatformAuditEvent) :
    drainedNumbers (events ++ events') = drainedNumbers events ++ drainedNumbers events' := by
  simp [drainedNumbers]

lemma drainedNumbers_singleton (e : PlatformAuditEvent) :
    drainedNumbers [e] = e.drainedFrom.toList := by
  cases h : e.drainedFrom <;> simp [drainedNumbers, h]

lemma deactivations_append (events events' : List PlatformAuditEvent) :
    deactivations (events ++ events') = deactivations events + deactivations events' := by
  simp [deactivations]

lemma Ordered.mono {warned warned' : ℕ → Prop} (hw : ∀ n, warned n → warned' n) {db : PlatformDb}
    (h : Ordered warned db) : Ordered warned' db where
  moved := h.moved.imp fun hab hlt => hw _ (hab hlt)
  waiting a ha p hp hlt := hw _ (h.waiting a ha p hp hlt)

/-- The order of the moves depends on the moves and the queue only. -/
lemma Ordered.congr {warned : ℕ → Prop} {db db' : PlatformDb} (h : Ordered warned db)
    (hdrained : drainedNumbers db'.events = drainedNumbers db.events)
    (hpending : db'.pending = db.pending) : Ordered warned db' where
  moved := hdrained ▸ h.moved
  waiting := by
    rw [hdrained, hpending]
    exact h.waiting

/-! ### Effects -/

/-- What a transaction has done. -/
structure Effect where
  new : List PlatformAuditEvent
  queued : List PendingEntry
  flag : Option Bool

/-- Nothing yet. -/
def Effect.none : Effect := ⟨[], [], Option.none⟩

/-- The tables after what a transaction has done. -/
def Effect.apply (eff : Effect) (db : PlatformDb) : PlatformDb where
  events := db.events ++ eff.new
  pending := (db.pending ++ eff.queued).filter fun p => p.sequenceNum ∉ drainedNumbers eff.new
  active := eff.flag.getD db.active

/-- One more event. -/
def Effect.insert (eff : Effect) (e : PlatformAuditEvent) : Effect :=
  { eff with new := eff.new ++ [e] }

/-- One more pending entry. -/
def Effect.queue (eff : Effect) (p : PendingEntry) : Effect :=
  { eff with queued := eff.queued ++ [p] }

/-- The flag is set. -/
def Effect.switch (eff : Effect) (active : Bool) : Effect := { eff with flag := some active }

/-- The receipts of the entries that a transaction stores for the first time. -/
def Effect.own (eff : Effect) : List Receipt :=
  (eff.new.filter fun e => e.drainedFrom.isNone).map PlatformAuditEvent.receipt ++
    eff.queued.map PendingEntry.receipt

/-- Neither the queue nor the flag is touched. -/
structure Effect.Quiet (eff : Effect) : Prop where
  queued : eff.queued = []
  flag : eff.flag = Option.none
  drained : drainedNumbers eff.new = []

@[simp] lemma Effect.apply_none (db : PlatformDb) : Effect.none.apply db = db := by
  cases db
  simp [Effect.none, Effect.apply, drainedNumbers]

lemma Effect.apply_insert (eff : Effect) (e : PlatformAuditEvent) (db : PlatformDb) :
    (eff.insert e).apply db = PlatformDb.take { eff.apply db with
      events := (eff.apply db).events ++ [e] } e.drainedFrom := by
  simp only [Effect.apply, Effect.insert, PlatformDb.take, drainedNumbers_append,
    drainedNumbers_singleton, List.append_assoc, List.filter_filter, PlatformDb.mk.injEq, true_and,
    and_true]
  refine List.filter_congr fun p _ => ?_
  cases e.drainedFrom <;> simp [eq_comm, and_comm]

lemma Effect.apply_queue {eff : Effect} {p : PendingEntry}
    (h : p.sequenceNum ∉ drainedNumbers eff.new) (db : PlatformDb) :
    (eff.queue p).apply db = { eff.apply db with pending := (eff.apply db).pending ++ [p] } := by
  have hp : [p].filter (fun q => q.sequenceNum ∉ drainedNumbers eff.new) = [p] := by simp [h]
  simp only [Effect.apply, Effect.queue, ← List.append_assoc, List.filter_append]
  exact congrArg (PlatformDb.mk _ · _) (congrArg _ hp)

lemma Effect.Quiet.apply_pending {eff : Effect} (h : eff.Quiet) (db : PlatformDb) :
    (eff.apply db).pending = db.pending := by
  simp [Effect.apply, h.queued, h.drained]

lemma Effect.Quiet.apply_active {eff : Effect} (h : eff.Quiet) (db : PlatformDb) :
    (eff.apply db).active = db.active := by
  simp [Effect.apply, h.flag]

lemma Effect.Quiet.drainedNumbers_apply {eff : Effect} (h : eff.Quiet) (db : PlatformDb) :
    drainedNumbers (eff.apply db).events = drainedNumbers db.events := by
  simp [Effect.apply, drainedNumbers_append, h.drained]

/-- A quiet transaction has stored exactly the events it has inserted. -/
lemma Effect.Quiet.own_eq {eff : Effect} (h : eff.Quiet) :
    eff.own = eff.new.map PlatformAuditEvent.receipt := by
  have hnone : ∀ e ∈ eff.new, e.drainedFrom.isNone = true := by
    intro e he
    have := List.filterMap_eq_nil_iff.1 h.drained e he
    simp [this]
  rw [Effect.own, h.queued, List.filter_eq_self.2 hnone, List.map_nil, List.append_nil]

/-- A direct insert stores an entry for the first time. -/
lemma Effect.own_insert_direct {eff : Effect} {e : PlatformAuditEvent}
    (he : e.drainedFrom = Option.none) : (eff.insert e).own.Perm (eff.own ++ [e.receipt]) := by
  simp only [Effect.own, Effect.insert, List.filter_append, List.map_append, List.append_assoc]
  refine List.Perm.append_left _ ?_
  have hswap : ([e.receipt] ++ eff.queued.map PendingEntry.receipt).Perm
      (eff.queued.map PendingEntry.receipt ++ [e.receipt]) := List.perm_append_comm
  simpa [he] using hswap

lemma Effect.own_insert_drained {eff : Effect} {e : PlatformAuditEvent} {m : ℕ}
    (he : e.drainedFrom = some m) : (eff.insert e).own = eff.own := by
  simp [Effect.own, Effect.insert, he]

@[simp] lemma Effect.new_switch (eff : Effect) (active : Bool) :
    (eff.switch active).new = eff.new := rfl

@[simp] lemma Effect.own_switch (eff : Effect) (active : Bool) :
    (eff.switch active).own = eff.own := rfl

lemma Effect.own_queue (eff : Effect) (p : PendingEntry) :
    (eff.queue p).own = eff.own ++ [p.receipt] := by
  simp [Effect.own, Effect.queue]

/-! ### The invariant -/

/-- The worlds of the platform audit log. -/
abbrev PlatformWorld := World PlatformDb PlatformLock PlatformAnswer

/-- The ends of its transactions. -/
abbrev PlatformEnd := Event PlatformDb PlatformLock PlatformAnswer

/-- Somebody was warned about a pending entry. -/
def Warned (w : PlatformWorld) (n : ℕ) : Prop := ∃ ev ∈ w.log, n ∈ ev.answer.warned

/-- The caller asks for the commit, and the server grants it. -/
def Committed (ev : PlatformEnd) : Prop := ev.answer.wanted = true ∧ ev.answer.aborted = false

/-- A deactivation by force that commits finds nothing pending. -/
def QuietEnd (ev : PlatformEnd) : Prop :=
  ev.answer.forced = true → Committed ev → ev.before.pending = []

/-- The number of deactivation events of a transaction. -/
def recordedBy (ev : PlatformEnd) : ℕ :=
  deactivations (ev.after.events.drop ev.before.events.length)

/-- A transaction switches maintenance mode off. -/
def Deactivates (ev : PlatformEnd) : Prop := ev.before.active = true ∧ ev.after.active = false

/-- A transaction that commits has swallowed no error after it switched the flag, and
deactivates by force only while the mode is active. -/
def Undisturbed (ev : PlatformEnd) : Prop :=
  Committed ev → ev.answer.swallowed = false ∧ (ev.answer.forced = true → ev.before.active = true)

/-- A transaction switches the mode off if and only if it inserts exactly one event of
it. -/
def Recorded (ev : PlatformEnd) : Prop := Deactivates ev ↔ recordedBy ev = 1

/-- When the caller asks for the commit, the entries whose drain failed are there. -/
def Kept (ev : PlatformEnd) : Prop :=
  ev.answer.wanted = true → ∀ n ∈ ev.answer.disturbed, ∃ e ∈ ev.after.events, e.receipt.number = n

/-- No statement outside the savepoints has failed in a drain. -/
def Unaborted (ev : PlatformEnd) : Prop :=
  ev.answer.wanted = true → ev.answer.disturbed ≠ [] → ev.answer.aborted = false

/-- What is seen to of the entries that are written, and of the operators who deactivate. -/
structure EntrySpec (env : PlatformEnv) where
  entry : PlatformAuditFields → Prop
  operator : UuidText → Prop
  good : PlatformAuditEvent → Prop
  operator_of_entry : ∀ fields, entry fields → operator fields.operatorId
  good_direct : ∀ fields payload prev t n,
    (entry fields ∨ ∃ operatorId, operator operatorId ∧ fields = deactivatedFields operatorId) →
      redactPlatformAuditPayload env fields.payload = some payload →
        good (fields.row env payload prev t n none)
  good_drained : ∀ fields payload payload' prev t n m, entry fields →
    redactPlatformAuditPayload env fields.payload = some payload →
      redactPlatformAuditPayload env (retroactivePayload payload) = some payload' →
        good (fields.row env payload' prev t n (some m))

/-- A pending entry holds the fields of a call, redacted and stored. -/
def EntrySpec.Queueable {env : PlatformEnv} (spec : EntrySpec env) (p : PendingEntry) : Prop :=
  ∃ fields payload, spec.entry fields ∧
    redactPlatformAuditPayload env fields.payload = some payload ∧
      p.fields = { fields with payload := storedPayload payload }

section Protocol

variable {env : PlatformEnv} (spec : EntrySpec env)

/-- The calls do not write the event of a deactivation themselves. -/
def EntrySpec.Ordinary : Prop := ∀ fields, spec.entry fields →
  fields.actionType ≠ maintenanceModeDeactivated

/-- The committed tables between transactions, and the answers so far. -/
structure PlatformInv (w : PlatformWorld) : Prop where
  chain : EventChain w.db.events
  seqs : ∀ e ∈ w.db.events, e.chainSeq < w.seq
  good : ∀ e ∈ w.db.events, spec.good e
  queueable : ∀ p ∈ w.db.pending, spec.Queueable p
  nodup : w.db.numbers.Nodup
  fresh : ∀ n ∈ w.db.numbers, n < w.seq
  stored : w.db.receipts.Perm (w.log.flatMap fun ev => ev.answer.reported)
  ordered : Ordered (Warned w) w.db
  calm : (∀ ev ∈ w.log, QuietEnd ev) → Calm w.db ∧ ∀ ev ∈ w.log, Calm ev.after
  quiet : ∀ ev ∈ w.log, Calm ev.after → QuietEnd ev
  recorded : spec.Ordinary → ∀ ev ∈ w.log, Calm ev.before → (Recorded ev ↔ Undisturbed ev)
  kept : ∀ ev ∈ w.log, Kept ev ↔ Unaborted ev

/-- What a transaction may do. -/
structure PlatformMove (held : Set PlatformLock) (w : PlatformWorld) (ev : PlatformEnd) : Prop where
  inv : PlatformInv spec (w.ended ev)
  events : ∃ new, ev.after.events = w.db.events ++ new ∧ (new ≠ [] → .chain ∈ held) ∧
    (drainedNumbers new ≠ [] → .state ∈ held)
  state : .state ∉ held → ev.after.pending = w.db.pending ∧ ev.after.active = w.db.active
  row : ∀ n ∈ ev.after.numbers, n ∉ w.db.numbers → .row n ∈ held

/-- The protocol of the platform audit log. -/
def platformProtocol : Protocol PlatformDb PlatformLock PlatformAnswer where
  inv := PlatformInv spec
  move := PlatformMove spec
  inv_move := fun _ _ _ hmove => hmove.inv
  inv_later := by
    intro w n t h hn ht
    exact ⟨h.chain, fun e he => (h.seqs e he).trans_le hn, h.good, h.queueable, h.nodup,
      fun m hm => (h.fresh m hm).trans_le hn, h.stored, h.ordered, h.calm, h.quiet, h.recorded,
      h.kept⟩

variable {spec}

section Stable

variable {held : Set PlatformLock} {w w' : PlatformWorld}

/-- Nobody else can add events under the lock of the chain. -/
lemma events_eq_of_rely (hr : Rely (platformProtocol spec) held w w') (h : .chain ∈ held) :
    w'.db.events = w.db.events := by
  refine Rely.stable (A := fun v => v.db.events = w.db.events) ?_ ?_ hr rfl
  · intro other v ev hdisj _ _ _ _ hmove hsame
    obtain ⟨new, hnew, hchain, -⟩ := hmove.events
    have hnil : new = [] := by
      by_contra hne
      exact Set.disjoint_left.1 hdisj h (hchain hne)
    change ev.after.events = _
    rw [hnew, hnil, List.append_nil, hsame]
  · exact fun v n t _ _ hsame => hsame

/-- Nobody else can touch the queue or the flag under the lock of the maintenance state,
nor move an entry. -/
lemma state_eq_of_rely (hr : Rely (platformProtocol spec) held w w') (h : .state ∈ held) :
    w'.db.pending = w.db.pending ∧ w'.db.active = w.db.active ∧
      drainedNumbers w'.db.events = drainedNumbers w.db.events := by
  refine Rely.stable (A := fun v => v.db.pending = w.db.pending ∧ v.db.active = w.db.active ∧
    drainedNumbers v.db.events = drainedNumbers w.db.events) ?_ ?_ hr ⟨rfl, rfl, rfl⟩
  · intro other v ev hdisj _ _ _ _ hmove hsame
    have hstate := Set.disjoint_left.1 hdisj h
    obtain ⟨hpending, hactive⟩ := hmove.state hstate
    obtain ⟨new, hnew, -, hdrained⟩ := hmove.events
    have hnil : drainedNumbers new = [] := by
      by_contra hne
      exact hstate (hdrained hne)
    refine ⟨hpending.trans hsame.1, hactive.trans hsame.2.1, ?_⟩
    change drainedNumbers ev.after.events = _
    rw [hnew, drainedNumbers_append, hnil, List.append_nil, hsame.2.2]
  · exact fun v n t _ _ hsame => hsame

/-- Nobody else can store an entry under a number that is locked. -/
lemma notMem_numbers_of_rely (hr : Rely (platformProtocol spec) held w w') {n : ℕ}
    (h : .row n ∈ held) (hn : n ∉ w.db.numbers) : n ∉ w'.db.numbers := by
  refine Rely.stable (A := fun v => n ∉ v.db.numbers) ?_ ?_ hr hn
  · intro other v ev hdisj _ _ _ _ hmove hout hin
    exact Set.disjoint_left.1 hdisj h (hmove.row n hin hout)
  · exact fun v n t _ _ hout => hout

lemma Warned.rely (hr : Rely (platformProtocol spec) held w w') {n : ℕ} (h : Warned w n) :
    Warned w' n := by
  refine Rely.stable (A := fun v => Warned v n) ?_ ?_ hr h
  · rintro other v ev - - - - - - ⟨ev', hev', hn⟩
    exact ⟨ev', List.mem_cons_of_mem _ hev', hn⟩
  · exact fun v n t _ _ hwarned => hwarned

end Stable

end Protocol

end ProjectVault.Platform
