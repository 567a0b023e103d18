import ProjectVault.Audit.Forwarding
import ProjectVault.Run.System
import Mathlib.Data.List.TakeWhile

/-!
Webhook ticks over a fixed set of audit rows (`audit/forwarding.ts`).
-/

namespace ProjectVault.Audit

open Db

/-! ### Ticks -/

/-- The rows of an organization, with different ids. -/
structure ForwardLog where
  rows : List ForwardRow
  nodup : (rows.map (·.id)).Nodup

/-- A tick that has been committed: what had been acknowledged before it, the configuration it has
read, how its deliveries end, and what it has done. -/
structure Tick where
  acknowledged : List ForwardRow
  config : ForwardingConfig
  deliver : ForwardRow → Bool
  delivery : Delivery

/-- The configuration, the rows acknowledged so far, and the ticks, the newest first. -/
structure TickState where
  config : ForwardingConfig
  acknowledged : List ForwardRow
  ticks : List Tick

/-- One tick. -/
def TickState.tick (log : ForwardLog) (s : TickState) (deliver : ForwardRow → Bool) : TickState :=
  let delivery := processOrgWebhookTick deliver s.config (webhookBatch log.rows s.config) s.config
  { config := delivery.config
    acknowledged := delivery.delivered ++ s.acknowledged
    ticks := ⟨s.acknowledged, s.config, deliver, delivery⟩ :: s.ticks }

/-- The ticks of an organization after its webhook has been configured. -/
def tickSystem (log : ForwardLog) (url : String) : Run.System TickState (ForwardRow → Bool) where
  init := ⟨configureForwarding .webhook url, [], []⟩
  step s deliver := some (s.tick log deliver)

/-- The rows the tick fetched. -/
def Tick.batch (log : ForwardLog) (t : Tick) : List ForwardRow := webhookBatch log.rows t.config

/-- The tick has tried no acknowledged row again, and, if it had rows and all its deliveries
succeeded, has moved the cursor past a row that was not acknowledged. -/
structure Tick.Lawful (log : ForwardLog) (t : Tick) : Prop where
  fresh : ∀ row ∈ t.delivery.attempted, row ∉ t.acknowledged
  progress : t.batch log ≠ [] → t.delivery.delivered = t.batch log →
    ∃ row ∈ log.rows, row ∉ t.acknowledged ∧ isPending t.config.lastForwarded row = true ∧
      isPending t.delivery.config.lastForwarded row = false

/-- The cursor is the place of the row it names. -/
def Exact (log : ForwardLog) (cursor : Option Cursor) : Prop :=
  ∀ c ∈ cursor, ∃ row ∈ log.rows, row.key = c.key

instance (log : ForwardLog) (t : Tick) : Decidable (t.Lawful log) :=
  decidable_of_iff ((∀ row ∈ t.delivery.attempted, row ∉ t.acknowledged) ∧
    (t.batch log ≠ [] → t.delivery.delivered = t.batch log →
      ∃ row ∈ log.rows, row ∉ t.acknowledged ∧ isPending t.config.lastForwarded row = true ∧
        isPending t.delivery.config.lastForwarded row = false))
    ⟨fun h => ⟨h.1, h.2⟩, fun h => ⟨h.fresh, h.progress⟩⟩

/-- The tick has no rows; or its cursor is exact, and, if all its deliveries succeed, some pending
row is not above the last row of the batch cut to its millisecond. -/
def Tick.Steady (log : ForwardLog) (t : Tick) : Prop :=
  t.batch log = [] ∨ Exact log t.config.lastForwarded ∧
    ((∀ row ∈ t.batch log, t.deliver row = true) → ∀ last ∈ (t.batch log).getLast?,
      ∃ row ∈ log.rows, isPending t.config.lastForwarded row = true ∧
        row.key ≤ (cursorAt last).key)

instance (log : ForwardLog) (t : Tick) : Decidable (t.Steady log) := by
  unfold Tick.Steady Exact
  infer_instance

/-- What is acknowledged, while the ticks are steady: the rows up to the one at the cursor. -/
inductive Forwarded (log : ForwardLog) (s : TickState) : Prop where
  | none (cursor : s.config.lastForwarded = none) (acknowledged : s.acknowledged = [])
  | upTo (last : ForwardRow) (mem : last ∈ log.rows)
      (cursor : s.config.lastForwarded = some (cursorAt last))
      (acknowledged : ∀ row ∈ log.rows, row ∈ s.acknowledged ↔ row.key ≤ last.key)

/-- What every run keeps. -/
structure TickInv (log : ForwardLog) (s : TickState) : Prop where
  lawful_iff : (∀ t ∈ s.ticks, t.Lawful log) ↔ ∀ t ∈ s.ticks, t.Steady log
  forwarded : (∀ t ∈ s.ticks, t.Steady log) → Forwarded log s

/-! ### Batches -/

variable {log : ForwardLog} {s s' : TickState} {t : Tick} {row last : ForwardRow}
  {rows batch : List ForwardRow} {config : ForwardingConfig} {deliver : ForwardRow → Bool}

lemma ForwardLog.eq_of_key_eq (log : ForwardLog) (hrow : row ∈ log.rows) (hlast : last ∈ log.rows)
    (h : row.key = last.key) : row = last := by
  have hid : row.id = last.id := (Prod.mk.inj (toLex.injective h)).2
  exact List.inj_on_of_nodup_map log.nodup hrow hlast hid

lemma pairwise_sortAsc_pending (log : ForwardLog) (p : ForwardRow → Bool) :
    (sortAsc ForwardRow.key (log.rows.filter p)).Pairwise fun a b => a.key < b.key := by
  have hle := sortAsc_pairwise ForwardRow.key (log.rows.filter p)
  have hnodup : (sortAsc ForwardRow.key (log.rows.filter p)).Nodup :=
    (perm_sortAsc _ _).nodup_iff.2 ((List.Nodup.of_map _ log.nodup).filter p)
  refine (hle.and hnodup).imp_of_mem fun ha hb hab => hab.1.lt_of_ne fun heq => hab.2 ?_
  exact log.eq_of_key_eq (List.mem_of_mem_filter ((mem_sortAsc _).1 ha))
    (List.mem_of_mem_filter ((mem_sortAsc _).1 hb)) heq

/-- What a tick with rows has read is an enabled webhook. -/
lemma webhookBatch_eq (h : webhookBatch rows config ≠ []) :
    webhookBatch rows config = fetchPendingWebhookRows rows config := by
  rw [webhookBatch] at h ⊢
  split_ifs at h ⊢
  · rfl
  · exact absurd rfl h

lemma mem_of_mem_webhookBatch (h : row ∈ webhookBatch rows config) :
    row ∈ rows ∧ isPending config.lastForwarded row = true := by
  rw [webhookBatch_eq (List.ne_nil_of_mem h)] at h
  exact mem_of_mem_fetchPendingWebhookRows h

lemma key_le_of_head? (hhead : (webhookBatch log.rows config).head? = some row)
    (hlast : last ∈ log.rows) (hpending : isPending config.lastForwarded last = true) :
    row.key ≤ last.key := by
  rw [webhookBatch_eq fun hnil => by rw [hnil] at hhead; exact absurd hhead (by simp),
    fetchPendingWebhookRows, List.head?_take] at hhead
  have hordered := pairwise_sortAsc_pending log (isPending config.lastForwarded)
  have hmem : last ∈ sortAsc ForwardRow.key (log.rows.filter (isPending config.lastForwarded)) :=
    (mem_sortAsc _).2 (List.mem_filter.2 ⟨hlast, hpending⟩)
  cases hsorted : sortAsc ForwardRow.key (log.rows.filter (isPending config.lastForwarded)) with
  | nil => simp [hsorted] at hmem
  | cons first rest =>
    rw [hsorted] at hhead hmem hordered
    obtain rfl : first = row := by simpa [auditWebhookForwardBatchSize] using hhead
    rcases List.mem_cons.1 hmem with rfl | hrest
    · exact le_rfl
    · exact ((List.pairwise_cons.1 hordered).1 last hrest).le

/-- What a tick delivers is the pending rows up to the last one delivered. -/
lemma mem_delivered_iff
    (hlast : ((webhookBatch log.rows config).takeWhile deliver).getLast? = some last)
    (hrow : row ∈ log.rows) (hpending : isPending config.lastForwarded row = true) :
    row ∈ (webhookBatch log.rows config).takeWhile deliver ↔ row.key ≤ last.key := by
  have hbatch : webhookBatch log.rows config = fetchPendingWebhookRows log.rows config :=
    webhookBatch_eq fun hnil => by rw [hnil] at hlast; exact absurd hlast (by simp)
  rw [hbatch] at hlast ⊢
  exact mem_prefix_iff ForwardRow.key (pairwise_sortAsc_pending log _)
    ((List.takeWhile_prefix _).trans (List.take_prefix _ _)) hlast
    ((mem_sortAsc _).2 (List.mem_filter.2 ⟨hrow, hpending⟩))

/-! ### One tick -/

lemma Forwarded.mem_acknowledged_iff (h : Forwarded log s) (hexact : Exact log s.config.lastForwarded)
    (hrow : row ∈ log.rows) :
    row ∈ s.acknowledged ↔ isPending s.config.lastForwarded row = false := by
  cases h with
  | none cursor acknowledged => simp [cursor, acknowledged, isPending]
  | upTo last mem cursor acknowledged =>
    obtain ⟨named, hnamed, hkey⟩ := hexact _ cursor
    have hid : named.id = last.id := (Prod.mk.inj (toLex.injective hkey)).2
    obtain rfl := List.inj_on_of_nodup_map log.nodup hnamed mem hid
    rw [acknowledged row hrow, hkey, cursor, ← Bool.not_eq_true, isPending_some_iff, not_lt]

/-- From a cursor that is not exact the first row of a batch is acknowledged. -/
lemma Forwarded.head_acknowledged (h : Forwarded log s) (hexact : ¬ Exact log s.config.lastForwarded)
    (hhead : (webhookBatch log.rows s.config).head? = some row) : row ∈ s.acknowledged := by
  have hrow := (mem_of_mem_webhookBatch (List.mem_of_mem_head? hhead)).1
  cases h with
  | none cursor acknowledged =>
    rw [cursor] at hexact
    exact absurd nofun hexact
  | upTo last mem cursor acknowledged =>
    rw [acknowledged row hrow]
    refine key_le_of_head? hhead mem ?_
    rw [cursor, isPending_some_iff]
    refine (key_cursorAt_le last).lt_of_ne fun heq => hexact ?_
    rw [cursor]
    rintro c hc
    exact ⟨last, mem, by rw [← Option.some.inj hc]; exact heq.symm⟩

/-- The new tick. -/
def TickState.next (log : ForwardLog) (s : TickState) (deliver : ForwardRow → Bool) : Tick :=
  ⟨s.acknowledged, s.config, deliver,
    processOrgWebhookTick deliver s.config (webhookBatch log.rows s.config) s.config⟩

/-- A tick tries rows of its batch, and the first one in any case. -/
lemma attempted_next (log : ForwardLog) (s : TickState) (deliver : ForwardRow → Bool) :
    (s.next log deliver).delivery.attempted = (webhookBatch log.rows s.config).take
      (((webhookBatch log.rows s.config).takeWhile deliver).length + 1) :=
  (deliverFrom_spec _ _ _).2.1

lemma Forwarded.lawful_iff (h : Forwarded log s) (deliver : ForwardRow → Bool) :
    (s.next log deliver).Lawful log ↔ (s.next log deliver).Steady log := by
  have hdelivered : (s.next log deliver).delivery.delivered =
      (webhookBatch log.rows s.config).takeWhile deliver := (deliverFrom_spec _ _ _).1
  have hcursor : (s.next log deliver).delivery.config.lastForwarded =
      (((webhookBatch log.rows s.config).takeWhile deliver).getLast?.map cursorAt <|>
        s.config.lastForwarded) := (deliverFrom_spec _ _ _).2.2
  have hattempted := attempted_next log s deliver
  by_cases hempty : webhookBatch log.rows s.config = []
  · refine iff_of_true ⟨fun row hrow => ?_, fun hne => absurd hempty hne⟩ (.inl hempty)
    rw [hattempted, hempty] at hrow
    exact absurd hrow (by simp)
  by_cases hexact : Exact log s.config.lastForwarded
  · have hfresh : ∀ row ∈ (s.next log deliver).delivery.attempted, row ∉ s.acknowledged := by
      intro row hrow
      rw [hattempted] at hrow
      obtain ⟨hmem, hpending⟩ := mem_of_mem_webhookBatch (List.mem_of_mem_take hrow)
      rw [h.mem_acknowledged_iff hexact hmem, hpending]
      decide
    have hall : (webhookBatch log.rows s.config).takeWhile deliver =
        webhookBatch log.rows s.config ↔
        ∀ row ∈ webhookBatch log.rows s.config, deliver row = true :=
      List.takeWhile_eq_self_iff
    obtain ⟨last, hlast⟩ : ∃ last, (webhookBatch log.rows s.config).getLast? = some last :=
      ⟨_, List.getLast?_eq_some_getLast hempty⟩
    -- the cursor a tick leaves when all its deliveries succeed
    have hleft : (webhookBatch log.rows s.config).takeWhile deliver =
        webhookBatch log.rows s.config → ∀ row,
        isPending (s.next log deliver).delivery.config.lastForwarded row = false ↔
          row.key ≤ (cursorAt last).key := by
      intro heq row
      rw [hcursor, heq, hlast, ← Bool.not_eq_true]
      show ¬ isPending (some (cursorAt last)) row = true ↔ _
      rw [isPending_some_iff, not_lt]
    constructor
    · rintro ⟨-, hprogress⟩
      refine .inr ⟨hexact, fun hdeliver l hl => ?_⟩
      obtain rfl : last = l := Option.some.inj (hlast.symm.trans hl)
      obtain ⟨row, hrow, -, hpending, hpassed⟩ :=
        hprogress hempty (hdelivered.trans (hall.2 hdeliver))
      exact ⟨row, hrow, hpending, (hleft (hall.2 hdeliver) row).1 hpassed⟩
    · intro hsteady
      refine ⟨hfresh, fun _ hcomplete => ?_⟩
      have hdeliver := hall.1 (hdelivered.symm.trans hcomplete)
      obtain ⟨row, hrow, hpending, hle⟩ :=
        (hsteady.resolve_left hempty).2 hdeliver last hlast
      refine ⟨row, hrow, ?_, hpending, (hleft (hall.2 hdeliver) row).2 hle⟩
      have hread : isPending s.config.lastForwarded row = true := hpending
      show row ∉ s.acknowledged
      rw [h.mem_acknowledged_iff hexact hrow, hread]
      decide
  · refine iff_of_false (fun hlawful => ?_) fun hsteady => hexact (hsteady.resolve_left hempty).1
    obtain ⟨first, rest, hbatch⟩ := List.exists_cons_of_ne_nil hempty
    have hhead : (webhookBatch log.rows s.config).head? = some first := by rw [hbatch]; rfl
    refine hlawful.fresh first ?_ (h.head_acknowledged hexact hhead)
    rw [hattempted, hbatch, List.take_succ_cons]
    exact List.mem_cons_self

/-- A steady tick acknowledges the rows up to the one at its new cursor. -/
lemma Forwarded.tick (h : Forwarded log s) (hsteady : (s.next log deliver).Steady log) :
    Forwarded log (s.tick log deliver) := by
  have hdelivered : (s.tick log deliver).acknowledged =
      (webhookBatch log.rows s.config).takeWhile deliver ++ s.acknowledged :=
    congrArg (· ++ s.acknowledged) (deliverFrom_spec _ _ _).1
  have hcursor : (s.tick log deliver).config.lastForwarded =
      (((webhookBatch log.rows s.config).takeWhile deliver).getLast?.map cursorAt <|>
        s.config.lastForwarded) := (deliverFrom_spec _ _ _).2.2
  cases hlast : ((webhookBatch log.rows s.config).takeWhile deliver).getLast? with
  | none =>
    rw [List.getLast?_eq_none_iff.1 hlast, List.nil_append] at hdelivered
    rw [hlast] at hcursor
    cases h with
    | none cursor acknowledged =>
      exact .none (hcursor.trans cursor) (hdelivered.trans acknowledged)
    | upTo last mem cursor acknowledged =>
      refine .upTo last mem (hcursor.trans cursor) fun row hrow => ?_
      rw [hdelivered, acknowledged row hrow]
  | some last =>
    rw [hlast] at hcursor
    have hmem := (List.takeWhile_prefix deliver).subset (List.mem_of_mem_getLast? hlast)
    obtain ⟨hin, hpending⟩ := mem_of_mem_webhookBatch hmem
    obtain ⟨hexact, -⟩ := hsteady.resolve_left (List.ne_nil_of_mem hmem)
    refine .upTo last hin hcursor fun row hrow => ?_
    rw [hdelivered, List.mem_append, h.mem_acknowledged_iff hexact hrow]
    cases hp : isPending s.config.lastForwarded row with
    | true => simp [mem_delivered_iff hlast hrow hp]
    | false =>
      have hnot : row ∉ (webhookBatch log.rows s.config).takeWhile deliver := fun hd => by
        rw [(mem_of_mem_webhookBatch ((List.takeWhile_prefix deliver).subset hd)).2] at hp
        exact Bool.noConfusion hp
      refine iff_of_true (.inr rfl) ?_
      -- `row` is not pending and `last` is
      have hcut : ∀ c, s.config.lastForwarded = some c → row.key ≤ c.key ∧ c.key < last.key :=
        fun c hc => by
          rw [hc] at hp hpending
          rw [← Bool.not_eq_true, isPending_some_iff, not_lt] at hp
          exact ⟨hp, isPending_some_iff.1 hpending⟩
      cases hc : s.config.lastForwarded with
      | none => rw [hc] at hp; exact Bool.noConfusion hp
      | some c => exact ((hcut c hc).1.trans_lt (hcut c hc).2).le

/-- **One tick** keeps the equivalence. -/
lemma TickInv.tick (h : TickInv log s) (deliver : ForwardRow → Bool) :
    TickInv log (s.tick log deliver) := by
  have hticks : (s.tick log deliver).ticks = s.next log deliver :: s.ticks := rfl
  refine ⟨?_, fun hsteady => ?_⟩
  · rw [hticks, List.forall_mem_cons, List.forall_mem_cons]
    constructor
    · rintro ⟨hnew, hold⟩
      have hsteady := h.lawful_iff.1 hold
      exact ⟨((h.forwarded hsteady).lawful_iff deliver).1 hnew, hsteady⟩
    · rintro ⟨hnew, hold⟩
      exact ⟨((h.forwarded hold).lawful_iff deliver).2 hnew, h.lawful_iff.2 hold⟩
  · rw [hticks, List.forall_mem_cons] at hsteady
    exact (h.forwarded hsteady.2).tick hsteady.1

/-- **Progress without re-delivery.** In every run the ticks try no acknowledged row again, and
leave a row behind that was not acknowledged, exactly if each of them starts from an exact cursor
and does not end within the millisecond it begins in. -/
theorem ticks_lawful_iff (log : ForwardLog) (url : String) (s : TickState)
    (h : (tickSystem log url).Reaches (fun _ _ => True) s) :
    (∀ t ∈ s.ticks, t.Lawful log) ↔ ∀ t ∈ s.ticks, t.Steady log := by
  refine (Run.System.Reaches.invariant (P := TickInv log) ?_ (fun s deliver s' hinv _ hstep => ?_)
    h).lawful_iff
  · exact ⟨iff_of_true nofun nofun, fun _ => .none rfl rfl⟩
  · cases hstep
    exact hinv.tick deliver

/-- Three rows, the last of them with the microseconds given. -/
def sampleLog (micros : ℕ) : ForwardLog where
  rows := [⟨7, 1000⟩, ⟨3, 1000⟩, ⟨5, 2000 + micros⟩]
  nodup := by simp

/-- Rows at whole milliseconds: a tick that fails at its second row, and one that goes through. -/
theorem ticks_lawful_whole :
    ∃ s, (tickSystem (sampleLog 0) "https://siem").Reaches (fun _ _ => True) s ∧
      s.ticks.length = 2 ∧ ∀ t ∈ s.ticks, t.Lawful (sampleLog 0) := by
  obtain ⟨s, hexec, hlength, hsteady⟩ := Run.System.exists_of_exec
    (tickSystem (sampleLog 0) "https://siem") (fun _ _ => True)
    (tickSystem (sampleLog 0) "https://siem").init
    [fun row => row.id = 3, fun _ => true]
    (fun s => s.ticks.length = 2 ∧ ∀ t ∈ s.ticks, t.Steady (sampleLog 0)) (by decide)
  have hreach := Run.System.steps_of_exec hexec
  exact ⟨s, hreach, hlength, (ticks_lawful_iff _ _ s hreach).2 hsteady⟩

/-- A row with microseconds is delivered again by the next tick, and the tick after it. -/
theorem ticks_redeliver :
    ∃ s, (tickSystem (sampleLog 500) "https://siem").Reaches (fun _ _ => True) s ∧
      s.ticks.map (·.delivery.delivered) =
        [[⟨5, 2500⟩], [⟨5, 2500⟩], [⟨3, 1000⟩, ⟨7, 1000⟩, ⟨5, 2500⟩]] ∧
      ¬ ∀ t ∈ s.ticks, t.Lawful (sampleLog 500) := by
  obtain ⟨s, hexec, hticks⟩ := Run.System.exists_of_exec
    (tickSystem (sampleLog 500) "https://siem") (fun _ _ => True)
    (tickSystem (sampleLog 500) "https://siem").init
    [fun _ => true, fun _ => true, fun _ => true]
    (fun s => s.ticks.map (·.delivery.delivered) =
        [[⟨5, 2500⟩], [⟨5, 2500⟩], [⟨3, 1000⟩, ⟨7, 1000⟩, ⟨5, 2500⟩]] ∧
      ¬ ∀ t ∈ s.ticks, t.Lawful (sampleLog 500)) (by decide)
  exact ⟨s, Run.System.steps_of_exec hexec, hticks⟩

end ProjectVault.Audit
