import ProjectVault.Run.System
import Mathlib.Data.NNRat.Defs
import Mathlib.Tactic

/-!
The platform operator's change of an organization's audit quota
(`audit/quota-config.ts`), alone and beside a second change of the same row.
-/

namespace AuditQuota

/-! ### The stored configuration -/

/-- What `SetOrgAuditQuotaRequestSchema` lets through for either field, and the only
values the columns get: a positive safe integer. -/
structure Limit where
  value : ℕ
  pos : 0 < value
  safe : value < 2 ^ 53

/-- A row of `audit_storage_quota_config`, `none` being `NULL`. -/
structure ConfigRow where
  quotaBytes : Option Limit
  writeRatePerMinute : Option Limit

/-- The instance defaults; `0` is no limit. -/
structure Env where
  auditOrgDefaultStorageQuotaMb : ℚ≥0
  auditOrgDefaultWriteRatePerMin : ℚ≥0

/-- The instance default in bytes, `none` being unlimited. -/
def Env.defaultQuotaBytes (env : Env) : Option ℚ≥0 :=
  if env.auditOrgDefaultStorageQuotaMb > 0 then
    some (env.auditOrgDefaultStorageQuotaMb * 1024 * 1024)
  else none

/-- The instance default of the write rate. -/
def Env.defaultWriteRate (env : Env) : Option ℚ≥0 :=
  if env.auditOrgDefaultWriteRatePerMin > 0 then some env.auditOrgDefaultWriteRatePerMin
  else none

/-- A stored number as a JavaScript one. -/
def Limit.toNumber (n : Limit) : ℚ≥0 := n.value

/-- `resolveEffectiveOrgQuotaBytes`: a row wins, even with a `NULL`. -/
def resolveEffectiveOrgQuotaBytes (env : Env) (row : Option ConfigRow) : Option ℚ≥0 :=
  match row with
  | some row => row.quotaBytes.map Limit.toNumber
  | none => env.defaultQuotaBytes

/-- `resolveEffectiveOrgWriteRatePerMinute`: a `NULL` in the row counts as no row. -/
def resolveEffectiveOrgWriteRatePerMinute (env : Env) (row : Option ConfigRow) : Option ℚ≥0 :=
  match row.bind ConfigRow.writeRatePerMinute with
  | some rate => some rate.toNumber
  | none => env.defaultWriteRate

/-! ### One call -/

/-- A field of the input: `undefined`, or a value, `given none` being `null`. -/
inductive Field where
  | undefined
  | given (value : Option Limit)

/-- `SetOrgAuditQuotaInput`, less the organization and the operator. -/
structure SetOrgAuditQuotaInput where
  quotaBytes : Field := .undefined
  writeRatePerMinute : Field := .undefined
  overcommitAcknowledged : Option Bool := none
  estimatedPhysicalBytesAtTimeOfChange : Option ℚ≥0 := none

/-- Both effective limits, as the payload records them. -/
structure Effective where
  quotaBytes : Option ℚ≥0
  writeRatePerMinute : Option ℚ≥0

/-- The payload of both audit entries; `overcommit` holds the two keys that are left
out when the check did not fire. -/
structure ChangePayload where
  previous : Effective
  next : Effective
  overcommit : Option (Bool × Option ℚ≥0)

/-- Both resolutions of one row. -/
def effective (env : Env) (row : Option ConfigRow) : Effective where
  quotaBytes := resolveEffectiveOrgQuotaBytes env row
  writeRatePerMinute := resolveEffectiveOrgWriteRatePerMinute env row

/-- `resolveUnchangedField`: the raw stored value stands for `undefined`. -/
def resolveUnchangedField (inputValue : Field) (existingRawValue : Option Limit) :
    Option Limit :=
  match inputValue with
  | .given value => value
  | .undefined => existingRawValue

/-- The values of the upsert, from the row read before it. -/
def nextRow (input : SetOrgAuditQuotaInput) (existing : Option ConfigRow) : ConfigRow where
  quotaBytes := resolveUnchangedField input.quotaBytes (existing.bind ConfigRow.quotaBytes)
  writeRatePerMinute :=
    resolveUnchangedField input.writeRatePerMinute (existing.bind ConfigRow.writeRatePerMinute)

/-- `changePayload`. -/
def changePayload (input : SetOrgAuditQuotaInput) (previous next : Effective) :
    ChangePayload where
  previous := previous
  next := next
  overcommit := input.overcommitAcknowledged.map fun acknowledged =>
    (acknowledged, input.estimatedPhysicalBytesAtTimeOfChange)

/-- `setOrgAuditQuota` with nothing beside it: the row it leaves and the payload it
records. -/
def setOrgAuditQuota (env : Env) (row : Option ConfigRow) (input : SetOrgAuditQuotaInput) :
    ConfigRow × ChangePayload :=
  let next := nextRow input row
  (next, changePayload input (effective env row) (effective env (some next)))

/-! ### What the input documents -/

/-- What a field asks for when it is given: `null` the default, a number that number. -/
def asked (default : Option ℚ≥0) (value : Option Limit) : Option ℚ≥0 :=
  match value with
  | none => default
  | some n => some n.toNumber

/-- What the input type documents of one field: `undefined` leaves the effective
value, anything else sets it to what it asks for. -/
def Field.Documented (field : Field) (default before after : Option ℚ≥0) : Prop :=
  match field with
  | .undefined => after = before
  | .given value => after = asked default value

lemma resolveEffectiveOrgQuotaBytes_some (env : Env) (row : ConfigRow) :
    resolveEffectiveOrgQuotaBytes env (some row) = row.quotaBytes.map Limit.toNumber :=
  rfl

/-- The effective rate depends on the raw column alone. -/
lemma resolveEffectiveOrgWriteRatePerMinute_eq (env : Env) (row : Option ConfigRow) :
    resolveEffectiveOrgWriteRatePerMinute env row =
      asked env.defaultWriteRate (row.bind ConfigRow.writeRatePerMinute) := by
  unfold resolveEffectiveOrgWriteRatePerMinute asked
  cases row.bind ConfigRow.writeRatePerMinute <;> rfl

/-- A stored limit is what asks for it, unless it is a `NULL` that hides a default. -/
lemma map_toNumber_eq_asked_iff (default : Option ℚ≥0) (value : Option Limit) :
    value.map Limit.toNumber = asked default value ↔ (value = none → default = none) := by
  cases value with
  | none => simp [asked, eq_comm]
  | some n => simp [asked]

/-- When the quota of a lone call is as documented: a missing row is not turned into
one that hides a default, and neither is a `null`. -/
def QuotaFrame (env : Env) (row : Option ConfigRow) : Field → Prop
  | .undefined => row = none → env.defaultQuotaBytes = none
  | .given value => value = none → env.defaultQuotaBytes = none

/-- **The quota of a lone call**. -/
lemma quota_documented_iff (env : Env) (row : Option ConfigRow)
    (input : SetOrgAuditQuotaInput) :
    input.quotaBytes.Documented env.defaultQuotaBytes (resolveEffectiveOrgQuotaBytes env row)
        (resolveEffectiveOrgQuotaBytes env (some (setOrgAuditQuota env row input).1)) ↔
      QuotaFrame env row input.quotaBytes := by
  simp only [setOrgAuditQuota, nextRow, resolveEffectiveOrgQuotaBytes_some]
  cases input.quotaBytes with
  | given value => exact map_toNumber_eq_asked_iff _ _
  | undefined =>
    cases row with
    | none => simp [Field.Documented, QuotaFrame, resolveUnchangedField,
        resolveEffectiveOrgQuotaBytes, eq_comm]
    | some row => simp [Field.Documented, QuotaFrame, resolveUnchangedField,
        resolveEffectiveOrgQuotaBytes]

/-- **The rate of a lone call** is always as documented. -/
lemma rate_documented (env : Env) (row : Option ConfigRow) (input : SetOrgAuditQuotaInput) :
    input.writeRatePerMinute.Documented env.defaultWriteRate
      (resolveEffectiveOrgWriteRatePerMinute env row)
      (resolveEffectiveOrgWriteRatePerMinute env
        (some (setOrgAuditQuota env row input).1)) := by
  simp only [setOrgAuditQuota, nextRow, resolveEffectiveOrgWriteRatePerMinute_eq,
    Option.bind_some]
  cases input.writeRatePerMinute <;> rfl

/-! ### Two calls at once -/

/-- The two calls: one sets the quota, one sets the rate. -/
inductive Call where
  | quota | rate
  deriving DecidableEq

/-- The other call. -/
def Call.other : Call → Call
  | .quota => .rate
  | .rate => .quota

/-- How far a call's transaction is, with its locals. -/
inductive Session where
  | begun
  | sawQuota (previousQuotaBytes : Option ℚ≥0)
  | sawRate (previous : Effective)
  | sawRow (previous : Effective) (existing : Option ConfigRow)
  | upserted (previous : Effective) (existing : Option ConfigRow)
  | sawNextQuota (previous : Effective) (existing : Option ConfigRow)
      (nextEffectiveQuotaBytes : Option ℚ≥0)
  | sawNextRate (previous : Effective) (existing : Option ConfigRow) (next : Effective)
  | committed (payload : ChangePayload)

/-- What happened to the row: a call read it for its upsert, or committed one. -/
inductive Event where
  | read (call : Call)
  | commit (call : Call)
  deriving DecidableEq

/-- The call of an event. -/
def Event.call : Event → Call
  | .read c => c
  | .commit c => c

@[simp] lemma Event.call_read (c : Call) : (Event.read c).call = c := rfl

@[simp] lemma Event.call_commit (c : Call) : (Event.commit c).call = c := rfl

/-- The committed row, the row of the transaction that holds the lock, the two
sessions, and what happened so far. -/
structure World where
  row : Option ConfigRow
  pending : Option (Call × ConfigRow)
  session : Call → Session
  log : List Event

namespace World

/-- The row a statement of `c` sees: its own version, else the committed one. -/
def seen (w : World) (c : Call) : Option ConfigRow :=
  match w.pending with
  | some (d, row) => if d = c then some row else w.row
  | none => w.row

/-- A session moves on. -/
def move (w : World) (c : Call) (session : Session) : World :=
  { w with session := Function.update w.session c session }

/-- The next statement of `c`; `none` where it waits for the row's lock. -/
def step (env : Env) (input : Call → SetOrgAuditQuotaInput) (w : World) (c : Call) :
    Option World :=
  match w.session c with
  | .begun => some (w.move c (.sawQuota (resolveEffectiveOrgQuotaBytes env (w.seen c))))
  | .sawQuota quota =>
    some (w.move c (.sawRate ⟨quota, resolveEffectiveOrgWriteRatePerMinute env (w.seen c)⟩))
  | .sawRate previous =>
    some { w.move c (.sawRow previous (w.seen c)) with log := w.log ++ [.read c] }
  | .sawRow previous existing =>
    match w.pending with
    | some _ => none
    | none => some { w.move c (.upserted previous existing) with
        pending := some (c, nextRow (input c) existing) }
  | .upserted previous existing =>
    some (w.move c
      (.sawNextQuota previous existing (resolveEffectiveOrgQuotaBytes env (w.seen c))))
  | .sawNextQuota previous existing quota =>
    some (w.move c (.sawNextRate previous existing
      ⟨quota, resolveEffectiveOrgWriteRatePerMinute env (w.seen c)⟩))
  | .sawNextRate previous _ next =>
    some { w.move c (.committed (changePayload (input c) previous next)) with
      row := w.seen c, pending := none, log := w.log ++ [.commit c] }
  | .committed _ => none

end World

/-- Two calls that find `row`. -/
def system (env : Env) (row : Option ConfigRow) (input : Call → SetOrgAuditQuotaInput) :
    Run.System World Call where
  init := ⟨row, none, fun _ => .begun, []⟩
  step := World.step env input

/-- The world in which both calls have returned. -/
def World.Finished (w : World) : Prop := ∀ c, ∃ payload, w.session c = .committed payload

/-! ### The same runs by reads and commits -/

/-- The committed row, and what each call read for its upsert. -/
structure Replay where
  row : Option ConfigRow
  snapshot : Call → Option ConfigRow

/-- One event: a read takes the row down, a commit leaves the row made from what the
call took down. -/
def Replay.next (input : Call → SetOrgAuditQuotaInput) (r : Replay) : Event → Replay
  | .read c => { r with snapshot := Function.update r.snapshot c r.row }
  | .commit c => { r with row := some (nextRow (input c) (r.snapshot c)) }

/-- The events of a run, from the row the calls found. -/
def replay (input : Call → SetOrgAuditQuotaInput) (row : Option ConfigRow)
    (log : List Event) : Replay :=
  log.foldl (Replay.next input) ⟨row, fun _ => none⟩

lemma replay_concat (input : Call → SetOrgAuditQuotaInput) (row : Option ConfigRow)
    (log : List Event) (e : Event) :
    replay input row (log ++ [e]) = (replay input row log).next input e := by
  simp [replay]

namespace Session

/-- What the call read for its upsert, until it commits. -/
def existing : Session → Option (Option ConfigRow)
  | .sawRow _ e | .upserted _ e | .sawNextQuota _ e _ | .sawNextRate _ e _ => some e
  | _ => none

/-- The same, while the call holds the row's lock. -/
def locked : Session → Option (Option ConfigRow)
  | .upserted _ e | .sawNextQuota _ e _ | .sawNextRate _ e _ => some e
  | _ => none

/-- The events of `c` up to here. -/
def events (c : Call) : Session → List Event
  | .begun | .sawQuota _ | .sawRate _ => []
  | .committed _ => [.read c, .commit c]
  | _ => [.read c]

lemma existing_of_locked {s : Session} {e : Option ConfigRow} (h : s.locked = some e) :
    s.existing = some e := by
  cases s <;> simp_all [existing, locked]

end Session

lemma filter_call_concat (log : List Event) (e : Event) (c : Call) :
    (log ++ [e]).filter (fun e => decide (e.call = c)) =
      log.filter (fun e => decide (e.call = c)) ++ if e.call = c then [e] else [] := by
  by_cases h : e.call = c <;> simp [List.filter_append, h]

/-- The world agrees with the replay of its log. -/
structure Follows (input : Call → SetOrgAuditQuotaInput) (row : Option ConfigRow)
    (w : World) : Prop where
  row_eq : (replay input row w.log).row = w.row
  snapshot_eq : ∀ c e, (w.session c).existing = some e →
    (replay input row w.log).snapshot c = e
  pending_of_locked : ∀ c e, (w.session c).locked = some e →
    w.pending = some (c, nextRow (input c) e)
  locked_of_pending : ∀ c r, w.pending = some (c, r) → ∃ e, (w.session c).locked = some e
  log_eq : ∀ c, w.log.filter (fun e => decide (e.call = c)) = (w.session c).events c

section Follows

variable {env : Env} {input : Call → SetOrgAuditQuotaInput} {row : Option ConfigRow}
  {w : World} {c : Call}

/-- Without the lock a statement sees the committed row. -/
lemma Follows.seen_of_not_locked (h : Follows input row w)
    (hc : (w.session c).locked = none) : w.seen c = w.row := by
  unfold World.seen
  cases hp : w.pending with
  | none => rfl
  | some p =>
    obtain ⟨d, r⟩ := p
    have hne : d ≠ c := by
      rintro rfl
      obtain ⟨e, he⟩ := h.locked_of_pending d r hp
      simp [hc] at he
    simp [hne]

/-- With the lock a statement sees the version the call wrote. -/
lemma Follows.seen_of_locked (h : Follows input row w) {e : Option ConfigRow}
    (hc : (w.session c).locked = some e) : w.seen c = some (nextRow (input c) e) := by
  simp [World.seen, h.pending_of_locked c e hc]

/-- A statement that neither reads for the upsert, nor writes, nor commits. -/
lemma Follows.move (h : Follows input row w) {s : Session}
    (hexisting : s.existing = (w.session c).existing)
    (hlocked : s.locked = (w.session c).locked)
    (hevents : s.events c = (w.session c).events c) : Follows input row (w.move c s) := by
  have hupd : ∀ d, ((w.move c s).session d).existing = (w.session d).existing ∧
      ((w.move c s).session d).locked = (w.session d).locked ∧
      ((w.move c s).session d).events d = (w.session d).events d := by
    intro d
    by_cases hd : d = c
    · subst hd
      simp [World.move, hexisting, hlocked, hevents]
    · simp [World.move, hd]
  refine ⟨h.row_eq, fun d e hd => ?_, fun d e hd => ?_, fun d r hd => ?_, fun d => ?_⟩
  · exact h.snapshot_eq d e ((hupd d).1 ▸ hd)
  · exact h.pending_of_locked d e ((hupd d).2.1 ▸ hd)
  · rw [(hupd d).2.1]
    exact h.locked_of_pending d r hd
  · rw [(hupd d).2.2]
    exact h.log_eq d

/-- The read for the upsert. -/
lemma Follows.read (h : Follows input row w) {previous : Effective}
    (hc : w.session c = .sawRate previous) :
    Follows input row
      { w.move c (.sawRow previous (w.seen c)) with log := w.log ++ [.read c] } := by
  have hseen : w.seen c = w.row := h.seen_of_not_locked (by rw [hc]; rfl)
  refine ⟨?_, fun d e hd => ?_, fun d e hd => ?_, fun d r hd => ?_, fun d => ?_⟩
  · rw [replay_concat]
    exact h.row_eq
  · rw [replay_concat]
    by_cases hdc : d = c
    · subst hdc
      simp only [World.move, Function.update_self, Session.existing, Option.some.injEq] at hd
      simp [Replay.next, h.row_eq, ← hd, hseen]
    · simp only [World.move, Function.update_of_ne hdc] at hd
      simpa [Replay.next, hdc] using h.snapshot_eq d e hd
  · by_cases hdc : d = c
    · subst hdc
      simp [World.move, Session.locked] at hd
    · simp only [World.move, Function.update_of_ne hdc] at hd
      exact h.pending_of_locked d e hd
  · obtain ⟨e, he⟩ := h.locked_of_pending d r hd
    have hdc : d ≠ c := by
      rintro rfl
      simp [hc, Session.locked] at he
    exact ⟨e, by simpa [World.move, hdc] using he⟩
  · have hlog := h.log_eq d
    by_cases hdc : d = c
    · subst hdc
      rw [filter_call_concat, hlog, hc]
      simp [World.move, Session.events]
    · rw [filter_call_concat, hlog]
      simp [World.move, hdc, Ne.symm hdc]

/-- The upsert, once the lock is free. -/
lemma Follows.upsert (h : Follows input row w) {previous : Effective}
    {existing : Option ConfigRow} (hc : w.session c = .sawRow previous existing)
    (hfree : w.pending = none) :
    Follows input row { w.move c (.upserted previous existing) with
      pending := some (c, nextRow (input c) existing) } := by
  refine ⟨h.row_eq, fun d e hd => ?_, fun d e hd => ?_, fun d r hd => ?_, fun d => ?_⟩
  · by_cases hdc : d = c
    · subst hdc
      simp only [World.move, Function.update_self] at hd
      exact h.snapshot_eq d e (by rw [hc]; exact hd)
    · simp only [World.move, Function.update_of_ne hdc] at hd
      exact h.snapshot_eq d e hd
  · by_cases hdc : d = c
    · subst hdc
      simp only [World.move, Function.update_self, Session.locked, Option.some.injEq] at hd
      rw [hd]
    · simp only [World.move, Function.update_of_ne hdc] at hd
      -- another holder would be in `pending`
      have := h.pending_of_locked d e hd
      simp [hfree] at this
  · obtain ⟨rfl, -⟩ : c = d ∧ nextRow (input c) existing = r := by simpa using hd
    exact ⟨existing, by simp [World.move, Session.locked]⟩
  · have hlog := h.log_eq d
    by_cases hdc : d = c
    · subst hdc
      simp [World.move, Session.events, hlog, hc]
    · simp [World.move, hlog, hdc]

lemma Follows.commit (h : Follows input row w) {previous next : Effective}
    {existing : Option ConfigRow} (hc : w.session c = .sawNextRate previous existing next)
    (payload : ChangePayload) :
    Follows input row { w.move c (.committed payload) with
      row := w.seen c, pending := none, log := w.log ++ [.commit c] } := by
  have hlocked : (w.session c).locked = some existing := by rw [hc]; rfl
  refine ⟨?_, fun d e hd => ?_, fun d e hd => ?_, fun d r hd => ?_, fun d => ?_⟩
  · rw [replay_concat]
    simp [Replay.next, h.seen_of_locked hlocked,
      h.snapshot_eq c existing (Session.existing_of_locked hlocked)]
  · rw [replay_concat]
    have hdc : d ≠ c := by
      rintro rfl
      simp [World.move, Session.existing] at hd
    simp only [World.move, Function.update_of_ne hdc] at hd
    exact h.snapshot_eq d e hd
  · have hdc : d ≠ c := by
      rintro rfl
      simp [World.move, Session.locked] at hd
    simp only [World.move, Function.update_of_ne hdc] at hd
    -- the lock has one holder
    have hp := h.pending_of_locked d e hd
    rw [h.pending_of_locked c existing hlocked] at hp
    simp [Ne.symm hdc] at hp
  · simp at hd
  · have hlog := h.log_eq d
    by_cases hdc : d = c
    · subst hdc
      rw [filter_call_concat, hlog, hc]
      simp [World.move, Session.events]
    · rw [filter_call_concat, hlog]
      simp [World.move, hdc, Ne.symm hdc]

/-- **Step lemma** of the replay. -/
lemma Follows.step (h : Follows input row w) {w' : World}
    (hstep : w.step env input c = some w') : Follows input row w' := by
  unfold World.step at hstep
  cases hc : w.session c with
  | begun =>
    obtain rfl : w.move c _ = w' := by simpa [hc] using hstep
    exact h.move (by simp [hc, Session.existing]) (by simp [hc, Session.locked])
      (by simp [hc, Session.events])
  | sawQuota quota =>
    obtain rfl : w.move c _ = w' := by simpa [hc] using hstep
    exact h.move (by simp [hc, Session.existing]) (by simp [hc, Session.locked])
      (by simp [hc, Session.events])
  | sawRate previous =>
    obtain rfl : World.mk _ _ _ _ = w' := by simpa [hc] using hstep
    exact h.read hc
  | sawRow previous existing =>
    cases hp : w.pending with
    | some p => simp [hc, hp] at hstep
    | none =>
      obtain rfl : World.mk _ _ _ _ = w' := by simpa [hc, hp] using hstep
      exact h.upsert hc hp
  | upserted previous existing =>
    obtain rfl : w.move c _ = w' := by simpa [hc] using hstep
    exact h.move (by simp [hc, Session.existing]) (by simp [hc, Session.locked])
      (by simp [hc, Session.events])
  | sawNextQuota previous existing quota =>
    obtain rfl : w.move c _ = w' := by simpa [hc] using hstep
    exact h.move (by simp [hc, Session.existing]) (by simp [hc, Session.locked])
      (by simp [hc, Session.events])
  | sawNextRate previous existing next =>
    obtain rfl : World.mk _ _ _ _ = w' := by simpa [hc] using hstep
    exact h.commit hc _
  | committed payload => simp [hc] at hstep

/-- **Run lemma** of the replay. -/
lemma follows_of_reaches {ok : World → Call → Prop}
    (h : (system env row input).Reaches ok w) : Follows input row w := by
  refine h.invariant ?_ fun w c w' hw _ hstep => hw.step hstep
  refine ⟨rfl, ?_, ?_, ?_, ?_⟩ <;> simp [system, Session.existing, Session.locked, Session.events]

end Follows

/-! ### What both calls leave -/

/-- The other call read the row before `c` committed and committed after it. -/
def Overwritten (log : List Event) (c : Call) : Prop :=
  [Event.read c.other, .commit c, .commit c.other].Sublist log

instance (log : List Event) (c : Call) : Decidable (Overwritten log c) :=
  inferInstanceAs (Decidable (List.Sublist _ log))

/-- The orders two finished calls can have read and committed in. -/
def orders : List (List Event) :=
  [[.read .quota, .commit .quota, .read .rate, .commit .rate],
   [.read .rate, .commit .rate, .read .quota, .commit .quota],
   [.read .quota, .read .rate, .commit .quota, .commit .rate],
   [.read .rate, .read .quota, .commit .quota, .commit .rate],
   [.read .quota, .read .rate, .commit .rate, .commit .quota],
   [.read .rate, .read .quota, .commit .rate, .commit .quota]]

/-- Each finished call has read once and then committed once. -/
lemma mem_orders {log : List Event}
    (h : ∀ c, log.filter (fun e => decide (e.call = c)) = [.read c, .commit c]) :
    log ∈ orders := by
  have hq := h .quota
  have hr := h .rate
  clear h
  -- one event after the other; the filters leave two choices at each place
  rcases log with _ | ⟨⟨_ | _⟩ | ⟨_ | _⟩, log⟩ <;> simp at hq hr <;>
    rcases log with _ | ⟨⟨_ | _⟩ | ⟨_ | _⟩, log⟩ <;> simp at hq hr <;>
    rcases log with _ | ⟨⟨_ | _⟩ | ⟨_ | _⟩, log⟩ <;> simp at hq hr <;>
    rcases log with _ | ⟨⟨_ | _⟩ | ⟨_ | _⟩, log⟩ <;> simp at hq hr <;>
    rcases log with _ | ⟨⟨_ | _⟩ | ⟨_ | _⟩, log⟩ <;> simp [orders] at hq hr ⊢

/-- The orders that overwrite a column: both read before the first of them commits. -/
lemma overwritten_iff : ∀ log ∈ orders, ∀ c ∈ [Call.quota, Call.rate],
    (Overwritten log c ↔ log = [.read .quota, .read .rate, .commit c, .commit c.other] ∨
      log = [.read .rate, .read .quota, .commit c, .commit c.other]) := by
  decide

/-- One call sets the quota only, the other the rate only. -/
structure OneEach (input : Call → SetOrgAuditQuotaInput) (quota rate : Option Limit) :
    Prop where
  quota_given : (input .quota).quotaBytes = .given quota
  quota_rate : (input .quota).writeRatePerMinute = .undefined
  rate_given : (input .rate).writeRatePerMinute = .given rate
  rate_quota : (input .rate).quotaBytes = .undefined

/-- **The row two calls leave**: each column holds what its call asked for, unless it
was overwritten, and then what the first of them found. -/
lemma final_row {env : Env} {row : Option ConfigRow} {input : Call → SetOrgAuditQuotaInput}
    {quota rate : Option Limit} (hinput : OneEach input quota rate) {w : World}
    {ok : World → Call → Prop} (hw : (system env row input).Reaches ok w)
    (hfin : w.Finished) :
    w.row = some
      ⟨if Overwritten w.log .quota then row.bind ConfigRow.quotaBytes else quota,
       if Overwritten w.log .rate then row.bind ConfigRow.writeRatePerMinute else rate⟩ := by
  have hfollows := follows_of_reaches hw
  have horder : w.log ∈ orders := by
    refine mem_orders fun c => ?_
    obtain ⟨payload, hc⟩ := hfin c
    rw [hfollows.log_eq c, hc]
    rfl
  rw [← hfollows.row_eq]
  obtain ⟨hq, hqr, hr, hrq⟩ := hinput
  simp only [overwritten_iff _ horder .quota (by simp), overwritten_iff _ horder .rate (by simp),
    Call.other]
  simp only [orders, List.mem_cons, List.not_mem_nil, or_false] at horder
  rcases horder with h | h | h | h | h | h <;> rw [h] <;>
    simp [replay, Replay.next, nextRow, resolveUnchangedField, hq, hqr, hr, hrq, Function.update]

/-- When the quota of two calls takes effect: an overwritten one only if the stored
limit was what it asks for, another unless it is a `null` that hides a default. -/
def QuotaStands (env : Env) (row : Option ConfigRow) (log : List Event)
    (quota : Option Limit) : Prop :=
  if Overwritten log .quota then
    (row.bind ConfigRow.quotaBytes).map Limit.toNumber = asked env.defaultQuotaBytes quota
  else quota = none → env.defaultQuotaBytes = none

/-- When the rate of two calls takes effect: an overwritten one only if the stored rate
was what it asks for. -/
def RateStands (env : Env) (row : Option ConfigRow) (log : List Event)
    (rate : Option Limit) : Prop :=
  Overwritten log .rate →
    asked env.defaultWriteRate (row.bind ConfigRow.writeRatePerMinute) =
      asked env.defaultWriteRate rate

/-- **When a change of the quota configuration does what it documents**: a lone call
always sets or keeps the rate as asked, and the quota unless it leaves a `NULL` where
a default applied; of two calls that set one field each, the quota and the rate take
effect exactly when no stale copy of the row replaces them, or it makes no
difference. -/
theorem setOrgAuditQuota_frame_iff (env : Env) (row : Option ConfigRow) :
    (∀ input : SetOrgAuditQuotaInput,
      input.quotaBytes.Documented env.defaultQuotaBytes
          (resolveEffectiveOrgQuotaBytes env row)
          (resolveEffectiveOrgQuotaBytes env (some (setOrgAuditQuota env row input).1)) ∧
        input.writeRatePerMinute.Documented env.defaultWriteRate
          (resolveEffectiveOrgWriteRatePerMinute env row)
          (resolveEffectiveOrgWriteRatePerMinute env
            (some (setOrgAuditQuota env row input).1)) ↔
      QuotaFrame env row input.quotaBytes) ∧
    ∀ (input : Call → SetOrgAuditQuotaInput) (quota rate : Option Limit),
      OneEach input quota rate → ∀ w,
      (system env row input).Reaches (fun _ _ => True) w → w.Finished →
      (resolveEffectiveOrgQuotaBytes env w.row = asked env.defaultQuotaBytes quota ↔
        QuotaStands env row w.log quota) ∧
      (resolveEffectiveOrgWriteRatePerMinute env w.row = asked env.defaultWriteRate rate ↔
        RateStands env row w.log rate) := by
  refine ⟨fun input => ?_, fun input quota rate hinput w hw hfin => ⟨?_, ?_⟩⟩
  · rw [quota_documented_iff]
    exact and_iff_left (rate_documented env row input)
  · rw [final_row hinput hw hfin, resolveEffectiveOrgQuotaBytes_some, QuotaStands]
    by_cases h : Overwritten w.log .quota
    · simp only [if_pos h]
    · simp only [if_neg h]
      exact map_toNumber_eq_asked_iff _ _
  · rw [final_row hinput hw hfin, resolveEffectiveOrgWriteRatePerMinute_eq, RateStands]
    by_cases h : Overwritten w.log .rate <;> simp [h]

/-! ### Examples of both -/

/-- An instance with a default quota of 2048 MB. -/
def defaultEnv : Env := ⟨2048, 0⟩

/-- A limit of one. -/
def oneLimit : Limit := ⟨1, by decide, by decide⟩

/-- A change of the rate alone lifts the default quota of an organization without a
row. -/
theorem rateChange_liftsQuota :
    ¬ (Field.undefined).Documented defaultEnv.defaultQuotaBytes
      (resolveEffectiveOrgQuotaBytes defaultEnv none)
      (resolveEffectiveOrgQuotaBytes defaultEnv
        (some (setOrgAuditQuota defaultEnv none
          { writeRatePerMinute := .given (some oneLimit) }).1)) := by
  simp [Field.Documented, resolveEffectiveOrgQuotaBytes, setOrgAuditQuota, nextRow,
    resolveUnchangedField, Env.defaultQuotaBytes, defaultEnv]

/-- The two inputs of the example below. -/
def oneOfEach : Call → SetOrgAuditQuotaInput
  | .quota => { quotaBytes := .given (some oneLimit) }
  | .rate => { writeRatePerMinute := .given (some oneLimit) }

/-- One call after the other: both take effect. -/
theorem setOrgAuditQuota_frame_iff_serial :
    ∃ w, (system defaultEnv none oneOfEach).Reaches (fun _ _ => True) w ∧ w.Finished ∧
      resolveEffectiveOrgQuotaBytes defaultEnv w.row = some 1 ∧
      resolveEffectiveOrgWriteRatePerMinute defaultEnv w.row = some 1 := by
  have hrun : ∃ w, (system defaultEnv none oneOfEach).exec (fun _ _ => True)
      (system defaultEnv none oneOfEach).init
      (List.replicate 7 .quota ++ List.replicate 7 .rate) = some w ∧
      w.Finished ∧
      w.log = [.read .quota, .commit .quota, .read .rate, .commit .rate] := by
    refine ⟨_, rfl, ?_, rfl⟩
    intro c
    cases c <;> exact ⟨_, rfl⟩
  obtain ⟨w, hexec, hfin, hlog⟩ := hrun
  have hreach : (system defaultEnv none oneOfEach).Reaches (fun _ _ => True) w :=
    Run.System.steps_of_exec hexec
  have h := (setOrgAuditQuota_frame_iff defaultEnv none).2 oneOfEach (some oneLimit)
    (some oneLimit) ⟨rfl, rfl, rfl, rfl⟩ w hreach hfin
  have hone : ∀ d, asked d (some oneLimit) = some 1 := fun d => by
    simp [asked, Limit.toNumber, oneLimit]
  rw [hone, hone, QuotaStands, RateStands, hlog] at h
  refine ⟨w, hreach, hfin, h.1.mpr ?_, h.2.mpr fun hover => ?_⟩
  · rw [if_neg (by decide)]
    simp
  · exact absurd hover (by decide)

end AuditQuota
