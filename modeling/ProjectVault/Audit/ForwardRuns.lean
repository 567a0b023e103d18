import ProjectVault.Audit.ForwardProgress

/-!
Forwarding beside the transactions that write audit rows (`audit/forwarding.ts`,
`audit/s3-forward.ts`).
-/

namespace ProjectVault.Audit

open Db

/-! ### Runs -/

/-- The rows a tick has fetched: a batch of the webhook, or a day for S3. -/
inductive Fetch where
  | batch (rows : List ForwardRow)
  | day (day : ℕ) (rows : List ForwardRow)

/-- The rows the tick delivers. -/
def Fetch.delivered (deliver : ForwardRow → Bool) (uploaded : Bool) : Fetch → List ForwardRow
  | .batch rows => rows.takeWhile deliver
  | .day _ rows => if uploaded then rows else []

/-- The configuration the tick leaves, which has read `config` and finds `stored`. -/
def Fetch.store (deliver : ForwardRow → Bool) (uploaded : Bool) (config stored : ForwardingConfig) :
    Fetch → ForwardingConfig
  | .batch rows => (processOrgWebhookTick deliver config rows stored).config
  | .day d rows => (processOrgS3Day uploaded config d rows stored).config

/-- A tick under way: the configuration it has read, the rows that were visible then, and what it
has fetched. -/
structure ForwardTick where
  config : ForwardingConfig
  seen : List ForwardRow
  fetched : Option Fetch

/-- The clock, the visible rows, the rows of open transactions, the stored configuration, the ticks
under way, the rows delivered to the destination, and the first day stored as forwarded. -/
structure ForwardWorld where
  now : ℕ
  rows : List ForwardRow
  opened : List ForwardRow
  config : Option ForwardingConfig
  ticks : ℕ → Option ForwardTick
  delivered : List ForwardRow
  firstDay : Option ℕ

/-- What happens. The outcome of the deliveries stands at the end of a tick: for each row of a
batch, and for the upload of a day. -/
inductive ForwardAct where
  | passes (micros : ℕ)
  | starts (id : ℕ)
  | commits (row : ForwardRow)
  | rollsBack (row : ForwardRow)
  | configures
  | reads (k : ℕ)
  | fetches (k : ℕ)
  | finishes (k : ℕ) (deliver : ForwardRow → Bool) (uploaded : Bool)
  | aborts (k : ℕ) (deliver : ForwardRow → Bool) (uploaded : Bool)

namespace ForwardWorld

variable (w : ForwardWorld)

/-- The tick `k` goes on as given, or is over. -/
def setTick (k : ℕ) (t : Option ForwardTick) : ForwardWorld :=
  { w with ticks := Function.update w.ticks k t }

/-- The second statement of a tick. -/
def fetch (config : ForwardingConfig) : Option Fetch :=
  match config.type with
  | .webhook => some (.batch (fetchPendingWebhookRows w.rows config))
  | .s3 => (s3Day config w.now).map fun day => .day day (fetchDayRows w.rows day)

/-- The first day forwarded, once the tick has stored its own. -/
def firstDayAfter (stored : ForwardingConfig) : Option ℕ :=
  w.firstDay <|> stored.s3LastForwardedDate

/-- One step, for the destination given. -/
def step (type : ForwardingType) (destination : String) : ForwardAct → Option ForwardWorld
  | .passes micros => some { w with now := w.now + micros }
  | .starts id =>
    if id ∈ (w.opened ++ w.rows).map (·.id) then none
    else some { w with opened := ⟨id, w.now⟩ :: w.opened }
  | .commits row =>
    if row ∈ w.opened then
      some { w with opened := w.opened.erase row, rows := row :: w.rows }
    else none
  | .rollsBack row =>
    if row ∈ w.opened then some { w with opened := w.opened.erase row } else none
  | .configures => some { w with config := some (configureForwarding type destination) }
  | .reads k =>
    match w.ticks k, w.config with
    | none, some config =>
      if config.enabled then some (w.setTick k (some ⟨config, w.rows, none⟩)) else none
    | _, _ => none
  | .fetches k =>
    match w.ticks k with
    | some ⟨config, seen, none⟩ =>
      match w.fetch config with
      | none => some (w.setTick k none)
      | some f => some (w.setTick k (some ⟨config, seen, some f⟩))
    | _ => none
  | .finishes k deliver uploaded =>
    match w.ticks k, w.config with
    | some ⟨config, _, some f⟩, some stored =>
      some { w.setTick k none with
        config := some (f.store deliver uploaded config stored),
        delivered := f.delivered deliver uploaded ++ w.delivered,
        firstDay := w.firstDayAfter (f.store deliver uploaded config stored) }
    | _, _ => none
  | .aborts k deliver uploaded =>
    match w.ticks k with
    | some ⟨_, _, some f⟩ =>
      some { w.setTick k none with
        delivered := f.delivered deliver uploaded ++ w.delivered }
    | some ⟨_, _, none⟩ => some (w.setTick k none)
    | none => none

end ForwardWorld

/-- Forwarding to one destination, before it is configured. -/
def forwarding (type : ForwardingType) (destination : String) :
    Run.System ForwardWorld ForwardAct where
  init := ⟨0, [], [], none, fun _ => none, [], none⟩
  step w := w.step type destination

/-! ### Watermarks -/

/-- The row lies at or below the cursor. -/
def Cursor.covers (c : Cursor) (row : ForwardRow) : Bool := row.key ≤ c.key

/-- The row lies on a forwarded day, counted from the first one. -/
def dayCovers (firstDay day : ℕ) (row : ForwardRow) : Bool :=
  firstDay ≤ utcDay row.createdAt && utcDay row.createdAt ≤ day

/-- The row lies at or below the watermark of the configuration. -/
def ForwardingConfig.covers (firstDay : Option ℕ) (config : ForwardingConfig) (row : ForwardRow) :
    Bool :=
  config.lastForwarded.any (·.covers row) ||
    config.s3LastForwardedDate.any fun day => firstDay.any fun first => dayCovers first day row

/-- Every visible row at or below the stored watermark has been delivered. -/
def ForwardWorld.Complete (w : ForwardWorld) : Prop :=
  ∀ config ∈ w.config, ∀ row ∈ w.rows, config.covers w.firstDay row = true → row ∈ w.delivered

/-- The row lies at or below what the tick moves the watermark to: its last delivery, cut to the
millisecond, or its day. -/
def Fetch.passesOver (firstDay : Option ℕ) (deliver : ForwardRow → Bool) (uploaded : Bool)
    (row : ForwardRow) : Fetch → Bool
  | .batch rows => (rows.takeWhile deliver).getLast?.any fun last => (cursorAt last).covers row
  | .day d rows => (rows = [] || uploaded) && dayCovers (firstDay.getD d) d row

/-- The row lies on a day before that of a tick that has found no stored day, and not before the
first one forwarded. -/
def Fetch.leapsOver (firstDay : Option ℕ) (config : ForwardingConfig) (uploaded : Bool)
    (row : ForwardRow) : Fetch → Bool
  | .batch _ => false
  | .day d rows =>
    (rows = [] || uploaded) && config.s3LastForwardedDate.isNone &&
      firstDay.any fun first => first ≤ utcDay row.createdAt && utcDay row.createdAt < d

/-- A row does not become visible at or below the stored watermark. Where a tick moves the
watermark over a row that has become visible since it read the configuration, or over a day that
a new configuration has left out, the row has been delivered. -/
def Punctual (w : ForwardWorld) : ForwardAct → Prop
  | .commits row => ∀ config ∈ w.config, config.covers w.firstDay row = false
  | .finishes k deliver uploaded =>
    ∀ t ∈ w.ticks k, ∀ f ∈ t.fetched, ∀ row ∈ w.rows,
      (row ∉ t.seen ∧ f.passesOver w.firstDay deliver uploaded row = true) ∨
        f.leapsOver w.firstDay t.config uploaded row = true →
      row ∈ f.delivered deliver uploaded ++ w.delivered
  | _ => True

instance (w : ForwardWorld) : ∀ a, Decidable (Punctual w a)
  | .commits row =>
    inferInstanceAs (Decidable (∀ config ∈ w.config, config.covers w.firstDay row = false))
  | .finishes k deliver uploaded =>
    inferInstanceAs (Decidable (∀ t ∈ w.ticks k, ∀ f ∈ t.fetched, ∀ row ∈ w.rows,
      (row ∉ t.seen ∧ f.passesOver w.firstDay deliver uploaded row = true) ∨
        f.leapsOver w.firstDay t.config uploaded row = true →
      row ∈ f.delivered deliver uploaded ++ w.delivered))
  | .passes _ => isTrue trivial
  | .starts _ => isTrue trivial
  | .rollsBack _ => isTrue trivial
  | .configures => isTrue trivial
  | .reads _ => isTrue trivial
  | .fetches _ => isTrue trivial
  | .aborts _ _ _ => isTrue trivial

instance (w : ForwardWorld) : Decidable w.Complete :=
  inferInstanceAs (Decidable (∀ config ∈ w.config, ∀ row ∈ w.rows, _ → _))

/-! ### What a tick fetches and stores -/

section Fetch

variable {row last : ForwardRow} {rows : List ForwardRow} {config stored : ForwardingConfig}
  {deliver : ForwardRow → Bool} {uploaded : Bool} {firstDay firstDay' : Option ℕ}

/-- The rows were fetched for the configuration, when the rows seen before were visible. -/
def Fetch.Of (config : ForwardingConfig) (seen : List ForwardRow) : Fetch → Prop
  | .batch rows => ∃ log : ForwardLog, seen ⊆ log.rows ∧
      rows = fetchPendingWebhookRows log.rows config
  | .day d rows => (∃ log : ForwardLog, seen ⊆ log.rows ∧ rows = fetchDayRows log.rows d) ∧
      ∀ stored ∈ config.s3LastForwardedDate, d = stored + 1

/-- A row that is not pending lies at or below the cursor. -/
lemma covers_of_not_isPending (h : isPending config.lastForwarded row = false) :
    config.covers firstDay row = true := by
  cases hcursor : config.lastForwarded with
  | none => simp [hcursor, isPending] at h
  | some c =>
    have hle : row.key ≤ c.key := by
      rw [hcursor, ← Bool.not_eq_true, isPending_some_iff] at h
      exact not_lt.1 h
    simp [ForwardingConfig.covers, hcursor, Cursor.covers, hle]

/-- What the first day makes covered does not change once it is known. -/
lemma covers_firstDay (hday : config.s3LastForwardedDate.isSome = true → firstDay.isSome = true)
    (hfirst : ∀ first ∈ firstDay, firstDay' = some first) :
    config.covers firstDay' row = config.covers firstDay row := by
  cases hs3 : config.s3LastForwardedDate with
  | none => simp [ForwardingConfig.covers, hs3]
  | some day =>
    obtain ⟨first, hsome⟩ := Option.isSome_iff_exists.1 (hday (by rw [hs3]; rfl))
    rw [hfirst first hsome, hsome]

/-- Every pending row up to the last one delivered is among those delivered. -/
lemma mem_delivered_of_key_le {log : ForwardLog} (hrow : row ∈ log.rows)
    (hpending : isPending config.lastForwarded row = true)
    (hlast : ((fetchPendingWebhookRows log.rows config).takeWhile deliver).getLast? = some last)
    (hle : row.key ≤ last.key) :
    row ∈ (fetchPendingWebhookRows log.rows config).takeWhile deliver := by
  have hordered := pairwise_sortAsc_pending log (isPending config.lastForwarded)
  have hprefix := (List.takeWhile_prefix (l := fetchPendingWebhookRows log.rows config)
    deliver).trans (List.take_prefix auditWebhookForwardBatchSize
      (sortAsc ForwardRow.key (log.rows.filter (isPending config.lastForwarded))))
  have hmem := (mem_sortAsc ForwardRow.key).2 (List.mem_filter.2 ⟨hrow, hpending⟩)
  exact (mem_prefix_iff ForwardRow.key hordered hprefix hlast hmem).2 hle

lemma s3LastForwardedDate_deliverFrom (count : ℕ) (rows : List ForwardRow)
    (stored : ForwardingConfig) :
    (deliverFrom deliver config count rows stored).config.s3LastForwardedDate =
      stored.s3LastForwardedDate := by
  induction rows generalizing count stored with
  | nil => rfl
  | cons row rest ih =>
    rw [deliverFrom]
    split_ifs
    · exact ih 0 (recordWebhookSuccess row stored)
    · rfl

/-- A webhook tick moves the cursor to its last delivery. -/
lemma store_batch (deliver : ForwardRow → Bool) (uploaded : Bool)
    (config stored : ForwardingConfig) (rows : List ForwardRow) :
    (Fetch.store deliver uploaded config stored (.batch rows)).lastForwarded =
        ((rows.takeWhile deliver).getLast?.map cursorAt <|> stored.lastForwarded) ∧
      (Fetch.store deliver uploaded config stored (.batch rows)).s3LastForwardedDate =
        stored.s3LastForwardedDate :=
  ⟨(deliverFrom_spec config.consecutiveFailureCount rows stored).2.2,
    s3LastForwardedDate_deliverFrom config.consecutiveFailureCount rows stored⟩

/-- A daily tick stores its day if there was nothing to upload or the upload succeeded. -/
lemma store_day (deliver : ForwardRow → Bool) (uploaded : Bool)
    (config stored : ForwardingConfig) (d : ℕ) (rows : List ForwardRow) :
    (Fetch.store deliver uploaded config stored (.day d rows)).lastForwarded =
        stored.lastForwarded ∧
      (Fetch.store deliver uploaded config stored (.day d rows)).s3LastForwardedDate =
        if rows = [] ∨ uploaded = true then some d else stored.s3LastForwardedDate := by
  simp only [Fetch.store, processOrgS3Day]
  by_cases hrows : rows = []
  · simp [hrows, recordS3DaySuccess]
  · cases uploaded with
    | true => simp [hrows, recordS3DaySuccess]
    | false => simp [hrows, recordS3DayFailure]

end Fetch

/-! ### The invariant -/

/-- A tick under way has read a watermark below which everything it saw had been delivered. -/
structure ForwardTick.Inv (w : ForwardWorld) (t : ForwardTick) : Prop where
  seen : t.seen ⊆ w.rows
  covered : ∀ row ∈ t.seen, t.config.covers w.firstDay row = true → row ∈ w.delivered
  firstDay : t.config.s3LastForwardedDate.isSome = true → w.firstDay.isSome = true
  fetched : ∀ f ∈ t.fetched, f.Of t.config t.seen

structure ForwardWorld.Inv (w : ForwardWorld) : Prop where
  complete : w.Complete
  nodup : ((w.opened ++ w.rows).map (·.id)).Nodup
  firstDay : ∀ config ∈ w.config,
    config.s3LastForwardedDate.isSome = true → w.firstDay.isSome = true
  ticks : ∀ k t, w.ticks k = some t → t.Inv w

section Steps

variable {w w' : ForwardWorld} {t : ForwardTick} {type : ForwardingType} {destination : String}

/-- More visible rows, more deliveries, and the first day if it was not known. -/
lemma ForwardTick.Inv.mono (h : t.Inv w) (hrows : w.rows ⊆ w'.rows)
    (hdelivered : w.delivered ⊆ w'.delivered)
    (hfirst : ∀ first ∈ w.firstDay, w'.firstDay = some first) : t.Inv w' where
  seen := List.Subset.trans h.seen hrows
  covered row hrow hcovers := by
    rw [covers_firstDay h.firstDay hfirst] at hcovers
    exact hdelivered (h.covered row hrow hcovers)
  firstDay hs3 := by
    obtain ⟨first, hsome⟩ := Option.isSome_iff_exists.1 (h.firstDay hs3)
    rw [hfirst first hsome]
    rfl
  fetched := h.fetched

/-- What a step that ends or continues one tick leaves of the others. -/
lemma ticks_update {k : ℕ} {next : Option ForwardTick} (h : w.Inv)
    (hrows : w.rows ⊆ w'.rows) (hdelivered : w.delivered ⊆ w'.delivered)
    (hfirst : ∀ first ∈ w.firstDay, w'.firstDay = some first)
    (hticks : w'.ticks = Function.update w.ticks k next) (hnext : ∀ t ∈ next, t.Inv w') :
    ∀ j t, w'.ticks j = some t → t.Inv w' := by
  intro j t hj
  rw [hticks] at hj
  by_cases hjk : j = k
  · rw [hjk, Function.update_self] at hj
    exact hnext t hj
  · rw [Function.update_of_ne hjk] at hj
    exact (h.ticks j t hj).mono hrows hdelivered hfirst

/-- The visible rows have different ids. -/
def ForwardWorld.Inv.log (h : w.Inv) : ForwardLog where
  rows := w.rows
  nodup := by
    have hnodup := h.nodup
    rw [List.map_append] at hnodup
    exact hnodup.of_append_right

/-- What a tick fetches belongs to what it has read. -/
lemma ForwardWorld.Inv.fetch_of (h : w.Inv) (ht : t.Inv w) {f : Fetch}
    (hf : w.fetch t.config = some f) : f.Of t.config t.seen := by
  unfold ForwardWorld.fetch at hf
  split at hf
  · cases hf
    exact ⟨h.log, ht.seen, rfl⟩
  · obtain ⟨d, hday, rfl⟩ := Option.map_eq_some_iff.1 hf
    refine ⟨⟨h.log, ht.seen, rfl⟩, fun day hstored => ?_⟩
    rw [s3Day] at hday
    split_ifs at hday
    rw [← Option.some.inj hday, Option.mem_def.1 hstored]
    rfl

/-- **A tick of the webhook** leaves no covered row behind. -/
lemma ForwardWorld.Inv.finish_batch (h : w.Inv) (ht : t.Inv w) {stored : ForwardingConfig}
    (hstored : w.config = some stored) {rows : List ForwardRow} {deliver : ForwardRow → Bool}
    {uploaded : Bool} (hof : (Fetch.batch rows).Of t.config t.seen)
    (hlate : ∀ row ∈ w.rows, row ∉ t.seen →
      (Fetch.batch rows).passesOver w.firstDay deliver uploaded row = true →
      row ∈ (Fetch.batch rows).delivered deliver uploaded ++ w.delivered)
    {row : ForwardRow} (hrow : row ∈ w.rows)
    (hcovers : ((Fetch.batch rows).store deliver uploaded t.config stored).covers
      (w.firstDayAfter ((Fetch.batch rows).store deliver uploaded t.config stored)) row = true) :
    row ∈ (Fetch.batch rows).delivered deliver uploaded ++ w.delivered := by
  obtain ⟨hcursor, hs3⟩ := store_batch deliver uploaded t.config stored rows
  have hstoredCovers : stored.covers w.firstDay row = true →
      row ∈ (Fetch.batch rows).delivered deliver uploaded ++ w.delivered :=
    fun hold => List.mem_append_right _ (h.complete stored hstored row hrow hold)
  rw [ForwardingConfig.covers, hcursor, hs3, Bool.or_eq_true] at hcovers
  rcases hcovers with hmoved | hday
  · cases hlast : (rows.takeWhile deliver).getLast? with
    | none =>
      rw [hlast] at hmoved
      exact hstoredCovers (Bool.or_eq_true_iff.2 (Or.inl hmoved))
    | some last =>
      rw [hlast] at hmoved
      have hcover : (cursorAt last).covers row = true := hmoved
      by_cases hseen : row ∈ t.seen
      · cases hpending : isPending t.config.lastForwarded row with
        | false =>
          exact List.mem_append_right _ (ht.covered row hseen (covers_of_not_isPending hpending))
        | true =>
          obtain ⟨log, hsub, rfl⟩ := hof
          refine List.mem_append_left _ (mem_delivered_of_key_le (hsub hseen) hpending hlast ?_)
          exact (of_decide_eq_true hcover).trans (key_cursorAt_le last)
      · refine hlate row hrow hseen ?_
        simp only [Fetch.passesOver, hlast, Option.any_some, hcover]
  · -- the day of another type of forwarding is as it was
    refine hstoredCovers (Bool.or_eq_true_iff.2 (Or.inr ?_))
    obtain ⟨day, hsome, -⟩ := (Option.any_eq_true _ _).1 hday
    obtain ⟨first, hfirst⟩ := Option.isSome_iff_exists.1
      (h.firstDay stored hstored (by rw [hsome]; rfl))
    simpa [ForwardWorld.firstDayAfter, hfirst] using hday

/-- **A daily tick** leaves no covered row behind. -/
lemma ForwardWorld.Inv.finish_day (h : w.Inv) (ht : t.Inv w) {stored : ForwardingConfig}
    (hstored : w.config = some stored) {d : ℕ} {rows : List ForwardRow}
    {deliver : ForwardRow → Bool} {uploaded : Bool} (hof : (Fetch.day d rows).Of t.config t.seen)
    (hlate : ∀ row ∈ w.rows, row ∉ t.seen →
      (Fetch.day d rows).passesOver w.firstDay deliver uploaded row = true →
      row ∈ (Fetch.day d rows).delivered deliver uploaded ++ w.delivered)
    (hleap : ∀ row ∈ w.rows, (Fetch.day d rows).leapsOver w.firstDay t.config uploaded row = true →
      row ∈ (Fetch.day d rows).delivered deliver uploaded ++ w.delivered)
    {row : ForwardRow} (hrow : row ∈ w.rows)
    (hcovers : ((Fetch.day d rows).store deliver uploaded t.config stored).covers
      (w.firstDayAfter ((Fetch.day d rows).store deliver uploaded t.config stored)) row = true) :
    row ∈ (Fetch.day d rows).delivered deliver uploaded ++ w.delivered := by
  obtain ⟨hcursor, hs3⟩ := store_day deliver uploaded t.config stored d rows
  have hstoredCovers : stored.covers w.firstDay row = true →
      row ∈ (Fetch.day d rows).delivered deliver uploaded ++ w.delivered :=
    fun hold => List.mem_append_right _ (h.complete stored hstored row hrow hold)
  rw [ForwardingConfig.covers, hcursor, ForwardWorld.firstDayAfter, hs3, Bool.or_eq_true] at hcovers
  rcases hcovers with hold | hday
  · exact hstoredCovers (Bool.or_eq_true_iff.2 (Or.inl hold))
  · by_cases hmoved : rows = [] ∨ uploaded = true
    · rw [if_pos hmoved] at hday
      have hmovedBool : (decide (rows = []) || uploaded) = true := by simpa using hmoved
      have hcover : dayCovers (w.firstDay.getD d) d row = true := by
        cases hfirst : w.firstDay <;> simpa [hfirst] using hday
      by_cases hseen : row ∈ t.seen
      · obtain ⟨⟨log, hsub, hrows⟩, hnext⟩ := hof
        obtain ⟨hfrom, hto⟩ := Bool.and_eq_true_iff.1 hcover
        have hfrom := of_decide_eq_true hfrom
        rcases (of_decide_eq_true hto).eq_or_lt with heq | hlt
        · have hmem : row ∈ rows := by
            rw [hrows]
            exact List.mem_filter.2 ⟨hsub hseen, decide_eq_true heq⟩
          have huploaded := hmoved.resolve_left (List.ne_nil_of_mem hmem)
          exact List.mem_append_left _ (by rw [Fetch.delivered, if_pos huploaded]; exact hmem)
        · cases hfirst : w.firstDay with
          | none =>
            rw [hfirst, Option.getD_none] at hfrom
            omega
          | some first =>
            rw [hfirst, Option.getD_some] at hfrom
            cases hread : t.config.s3LastForwardedDate with
            | none =>
              refine hleap row hrow ?_
              simp [Fetch.leapsOver, hmovedBool, hread, hfirst, hfrom, hlt]
            | some day =>
              have hd := hnext day hread
              refine List.mem_append_right _ (ht.covered row hseen ?_)
              simp [ForwardingConfig.covers, hread, hfirst, dayCovers, hfrom]
              omega
      · refine hlate row hrow hseen ?_
        simp only [Fetch.passesOver, hmovedBool, hcover, Bool.and_self]
    · rw [if_neg hmoved] at hday
      refine hstoredCovers (Bool.or_eq_true_iff.2 (Or.inr ?_))
      obtain ⟨day, hsome, -⟩ := (Option.any_eq_true _ _).1 hday
      obtain ⟨first, hfirst⟩ := Option.isSome_iff_exists.1
        (h.firstDay stored hstored (by rw [hsome]; rfl))
      simpa [hfirst] using hday

/-- A tick that ends leaves the watermark right. -/
lemma ForwardWorld.Inv.finish (h : w.Inv) {k : ℕ} (ht : t.Inv w) {stored : ForwardingConfig}
    (hstored : w.config = some stored) {f : Fetch} (hfetched : t.fetched = some f)
    {deliver : ForwardRow → Bool} {uploaded : Bool}
    (hok : ∀ row ∈ w.rows,
      (row ∉ t.seen ∧ f.passesOver w.firstDay deliver uploaded row = true) ∨
        f.leapsOver w.firstDay t.config uploaded row = true →
      row ∈ f.delivered deliver uploaded ++ w.delivered) :
    ForwardWorld.Inv { w.setTick k none with
      config := some (f.store deliver uploaded t.config stored),
      delivered := f.delivered deliver uploaded ++ w.delivered,
      firstDay := w.firstDayAfter (f.store deliver uploaded t.config stored) } where
  complete := by
    intro config hconfig row hrow hcovers
    cases hconfig
    have hof := ht.fetched f hfetched
    have hlate := fun row hrow hseen hpasses => hok row hrow (Or.inl ⟨hseen, hpasses⟩)
    have hleap := fun row hrow hleaps => hok row hrow (Or.inr hleaps)
    cases f with
    | batch rows => exact h.finish_batch ht hstored hof hlate hrow hcovers
    | day d rows => exact h.finish_day ht hstored hof hlate hleap hrow hcovers
  nodup := h.nodup
  firstDay := by
    intro config hconfig hs3
    cases hconfig
    change (w.firstDayAfter _).isSome = true
    cases hfirst : w.firstDay with
    | none => rwa [ForwardWorld.firstDayAfter, hfirst]
    | some first => rw [ForwardWorld.firstDayAfter, hfirst]; rfl
  ticks := by
    refine ticks_update h (List.Subset.refl _) (List.subset_append_right _ _) ?_ rfl nofun
    intro first hfirst
    change w.firstDayAfter _ = some first
    rw [ForwardWorld.firstDayAfter, Option.mem_def.1 hfirst]
    rfl

/-- **One punctual step** keeps the invariant. -/
lemma ForwardWorld.Inv.step (h : w.Inv) {a : ForwardAct} (hok : Punctual w a)
    (hstep : w.step type destination a = some w') : w'.Inv := by
  -- the ticks under way, where nothing they have read changes
  have hsame : ∀ k t, w.ticks k = some t → ∀ w'' : ForwardWorld, w.rows ⊆ w''.rows →
      w.delivered ⊆ w''.delivered → w''.firstDay = w.firstDay → t.Inv w'' :=
    fun k t ht w'' hrows hdelivered hfirst =>
      (h.ticks k t ht).mono hrows hdelivered fun first hmem => hfirst.trans hmem
  cases a with
  | passes micros =>
    cases hstep
    exact ⟨h.complete, h.nodup, h.firstDay, fun k t ht =>
      hsame k t ht _ (List.Subset.refl _) (List.Subset.refl _) rfl⟩
  | starts id =>
    simp only [ForwardWorld.step] at hstep
    split_ifs at hstep with hid
    cases hstep
    refine ⟨h.complete, ?_, h.firstDay, fun k t ht =>
      hsame k t ht _ (List.Subset.refl _) (List.Subset.refl _) rfl⟩
    exact List.nodup_cons.2 ⟨hid, h.nodup⟩
  | commits row =>
    simp only [ForwardWorld.step] at hstep
    split_ifs at hstep with hopened
    cases hstep
    refine ⟨?_, ?_, h.firstDay, fun k t ht =>
      hsame k t ht _ (List.subset_cons_self _ _) (List.Subset.refl _) rfl⟩
    · intro config hconfig row' hrow' hcovers
      rcases List.mem_cons.1 hrow' with rfl | hold
      · rw [hok config hconfig] at hcovers
        exact absurd hcovers Bool.false_ne_true
      · exact h.complete config hconfig row' hold hcovers
    · have hperm : (w.opened.erase row ++ row :: w.rows).Perm (w.opened ++ w.rows) :=
        List.perm_middle.trans ((List.perm_cons_erase hopened).symm.append_right w.rows)
      exact (hperm.map (·.id)).nodup_iff.2 h.nodup
  | rollsBack row =>
    simp only [ForwardWorld.step] at hstep
    split_ifs at hstep with hopened
    cases hstep
    refine ⟨h.complete, ?_, h.firstDay, fun k t ht =>
      hsame k t ht _ (List.Subset.refl _) (List.Subset.refl _) rfl⟩
    exact h.nodup.sublist (((List.erase_sublist).append_right w.rows).map _)
  | configures =>
    cases hstep
    refine ⟨?_, h.nodup, ?_, fun k t ht =>
      hsame k t ht _ (List.Subset.refl _) (List.Subset.refl _) rfl⟩
    · intro config hconfig row hrow hcovers
      cases hconfig
      exact absurd hcovers Bool.false_ne_true
    · intro config hconfig hs3
      cases hconfig
      exact absurd hs3 Bool.false_ne_true
  | reads k =>
    simp only [ForwardWorld.step] at hstep
    split at hstep
    · rename_i config _ hconfig
      split_ifs at hstep
      cases hstep
      refine ⟨h.complete, h.nodup, h.firstDay, ticks_update h (List.Subset.refl _)
        (List.Subset.refl _) (fun _ hfirst => hfirst) rfl fun t ht => ?_⟩
      cases ht
      exact ⟨List.Subset.refl _, h.complete config hconfig, h.firstDay config hconfig, nofun⟩
    · simp at hstep
  | fetches k =>
    simp only [ForwardWorld.step] at hstep
    split at hstep
    · rename_i config seen htick
      have ht := h.ticks k _ htick
      split at hstep
      · cases hstep
        exact ⟨h.complete, h.nodup, h.firstDay, ticks_update h (List.Subset.refl _)
          (List.Subset.refl _) (fun _ hfirst => hfirst) rfl nofun⟩
      · rename_i f hf
        cases hstep
        refine ⟨h.complete, h.nodup, h.firstDay, ticks_update h (List.Subset.refl _)
          (List.Subset.refl _) (fun _ hfirst => hfirst) rfl fun t ht' => ?_⟩
        cases ht'
        refine ⟨ht.seen, ht.covered, ht.firstDay, fun f' hf' => ?_⟩
        cases hf'
        exact h.fetch_of ht hf
    · simp at hstep
  | finishes k deliver uploaded =>
    simp only [ForwardWorld.step] at hstep
    split at hstep
    · rename_i config seen f stored htick hstored
      cases hstep
      exact h.finish (h.ticks k _ htick) hstored rfl (hok _ htick f rfl)
    · simp at hstep
  | aborts k deliver uploaded =>
    simp only [ForwardWorld.step] at hstep
    split at hstep
    · rename_i f htick
      cases hstep
      refine ⟨fun config hconfig row hrow hcovers => ?_, h.nodup, h.firstDay,
        ticks_update h (List.Subset.refl _) (List.subset_append_right _ _)
          (fun _ hfirst => hfirst) rfl nofun⟩
      exact List.mem_append_right _ (h.complete config hconfig row hrow hcovers)
    · cases hstep
      exact ⟨h.complete, h.nodup, h.firstDay, ticks_update h (List.Subset.refl _)
        (List.Subset.refl _) (fun _ hfirst => hfirst) rfl nofun⟩
    · simp at hstep

end Steps

/-- **Forwarding skips no row** in the runs whose rows and ticks are punctual: in every committed
state each visible row at or below the stored watermark has been delivered. -/
theorem forwarding_complete (type : ForwardingType) (destination : String) (w : ForwardWorld)
    (h : (forwarding type destination).Reaches Punctual w) : w.Complete := by
  have hinv : w.Inv := by
    refine Run.System.Reaches.invariant (P := ForwardWorld.Inv) ?_ ?_ h
    · exact ⟨nofun, List.nodup_nil, nofun, nofun⟩
    · exact fun _ _ _ hs hok hstep => hs.step hok hstep
  exact hinv.complete

/-! ### Sample runs -/

/-- A tick whose deliveries end as given. -/
def wholeTick (k : ℕ) (deliver : ForwardRow → Bool) (uploaded : Bool) : List ForwardAct :=
  [.reads k, .fetches k, .finishes k deliver uploaded]

/-- Two rows committed out of order before a tick, one committed during the tick but above its
last delivery, and a reconfiguration. -/
theorem forwarding_complete_overlap :
    ∃ w, (forwarding .webhook "https://siem").Reaches Punctual w ∧
      (w.config.bind (·.lastForwarded) = some ⟨9000, 3⟩ ∧ w.rows.length = 3) ∧ w.Complete := by
  obtain ⟨w, hexec, hP⟩ := Run.System.exists_of_exec (forwarding .webhook "https://siem") Punctual
    (forwarding .webhook "https://siem").init
    ([.configures, .passes 4000, .starts 1, .passes 1000, .starts 2, .commits ⟨2, 5000⟩,
      .commits ⟨1, 4000⟩, .passes 4000, .starts 3, .reads 0, .fetches 0, .commits ⟨3, 9000⟩,
      .finishes 0 (fun _ => true) false, .configures] ++ wholeTick 1 (fun _ => true) false)
    (fun w => w.config.bind (·.lastForwarded) = some ⟨9000, 3⟩ ∧ w.rows.length = 3)
    (by decide +kernel)
  have hreach := Run.System.steps_of_exec hexec
  exact ⟨w, hreach, hP, forwarding_complete _ _ w hreach⟩

/-- Runs that skip a row: a transaction commits behind the cursor, one behind the forwarded day, and
a reconfiguration leaves out a day. -/
def skippingRuns : List (ForwardingType × List ForwardAct) :=
  [(.webhook,
      ([.configures, .passes 4000, .starts 1, .passes 1000, .starts 2, .commits ⟨2, 5000⟩] :
        List ForwardAct) ++ wholeTick 0 (fun _ => true) false ++ [.commits ⟨1, 4000⟩]),
    (.s3, ([.configures, .passes 86399000000, .starts 1, .passes 1000000] : List ForwardAct) ++
      wholeTick 0 (fun _ => true) true ++ [.commits ⟨1, 86399000000⟩]),
    (.s3, ([.configures, .passes 86400000000] : List ForwardAct) ++
      wholeTick 0 (fun _ => true) true ++
      [.starts 1, .commits ⟨1, 86400000000⟩, .passes 172800000000, .configures] ++
      wholeTick 1 (fun _ => true) true)]

/-- Each of them leads there. -/
theorem forwarding_skips :
    skippingRuns.Forall fun run => ∃ w,
      (forwarding run.1 "https://siem").exec (fun _ _ => True)
        (forwarding run.1 "https://siem").init run.2 = some w ∧ ¬ w.Complete := by
  rw [List.forall_iff_forall_mem]
  intro run hrun
  have hall : ∀ run ∈ skippingRuns,
      ((forwarding run.1 "https://siem").exec (fun _ _ => True)
        (forwarding run.1 "https://siem").init run.2).any
        (fun w => decide (¬ w.Complete)) = true := by
    decide +kernel
  exact Run.System.exists_of_exec (forwarding run.1 "https://siem")
    (fun _ _ => True) (forwarding run.1 "https://siem").init run.2 (fun w => ¬ w.Complete)
    (hall run hrun)

end ProjectVault.Audit
