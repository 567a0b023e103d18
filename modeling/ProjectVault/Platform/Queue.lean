import ProjectVault.Platform.Transactions

/-!
The maintenance queue of the platform audit log.
-/

namespace ProjectVault.Platform

open Js Db Audit

/-- Any entries. -/
def anyEntry (env : PlatformEnv) : EntrySpec env where
  entry _ := True
  operator _ := True
  good _ := True
  operator_of_entry _ _ := trivial
  good_direct := by simp
  good_drained := by simp

instance (env : PlatformEnv) (s : State PlatformDb PlatformLock PlatformAnswer)
    (a : Label PlatformJob) : Decidable (Allows (anyEntry env) s a) := by
  cases a with
  | opens i job =>
    cases job with
    | write entries => exact .isTrue fun _ _ => trivial
    | activate entry => exact .isTrue trivial
    | deactivate operatorId => exact .isTrue trivial
  | runs i b => exact .isTrue trivial
  | closes i => exact .isTrue trivial
  | tick n => exact .isTrue trivial

/-- The reported entries are stored, each once and under a number of its own, and the
queue is emptied in order. -/
structure ExactlyOnce (w : PlatformWorld) : Prop where
  once : ∀ ev ∈ w.log, ∀ r ∈ ev.answer.reported, w.db.receipts.count r = 1
  apart : (w.log.flatMap fun ev => ev.answer.reported.map Receipt.number).Nodup
  ordered : Ordered (Warned w) w.db

variable {env : PlatformEnv} {spec : EntrySpec env} {w : PlatformWorld}

lemma PlatformInv.exactlyOnce (h : PlatformInv spec w) : ExactlyOnce w where
  once ev hev r hr := by
    have hnodup : w.db.receipts.Nodup := h.nodup.of_map _
    refine List.count_eq_one_of_mem hnodup (h.stored.mem_iff.2 ?_)
    exact List.mem_flatMap.2 ⟨ev, hev, hr⟩
  apart := by
    have hperm := h.stored.map Receipt.number
    rw [List.map_flatMap] at hperm
    exact hperm.nodup_iff.1 h.nodup
  ordered := h.ordered

/-- In every run each entry that was reported as written is stored exactly once, as an event
or as a pending entry, and pending entries are moved in their order, except those whose
own move has failed. Nothing is ever pending while the mode is inactive if and only if
every deactivation by force that commits finds nothing pending. -/
theorem queue_exactly_once_iff (env : PlatformEnv) {s : State PlatformDb PlatformLock PlatformAnswer}
    (h : (sessions (platformJob env) freshPlatform).Reaches (Allows (anyEntry env)) s) :
    (ExactlyOnce s.world ∧ ∀ ev ∈ s.world.log, Calm ev.after) ↔ ∀ ev ∈ s.world.log, QuietEnd ev := by
  have hinv := platformInv_of_reaches (anyEntry env) h
  exact ⟨fun hall ev hev => hinv.quiet ev hev (hall.2 ev hev),
    fun hquiet => ⟨hinv.exactlyOnce, (hinv.calm hquiet).2⟩⟩

/-! ### A stranded entry -/

/-- An environment to run the jobs in. -/
def plainPlatformEnv : PlatformEnv := { plainEnv with toLowerCase := id, isProduction := false }

/-- Something an operator does. -/
def plainEntry : PlatformAuditFields where
  operatorId := alertUuid
  actionType := "x"
  targetOrgId := none
  targetUserId := none
  payload := []

/-- An activation in session `i` whose entry is written. -/
def activation (i : ℕ) : List (Label PlatformJob) :=
  [[.opens i (.activate plainEntry)], Label.runsFor i 3,
    [.runs i false, .runs i false], Label.runsFor i 4,
    [.runs i false], Label.runsFor i 2, Label.runsFor i 2].flatten

/-- A write in session `i` that fails and is queued. -/
def queuedWrite (i : ℕ) : List (Label PlatformJob) :=
  [.opens i (.write [plainEntry])] ++ Label.runsFor i 7

/-- A deactivation in session `i` up to the end of its drain, which finds nothing. -/
def emptyDrain (i : ℕ) : List (Label PlatformJob) :=
  [[.opens i (.deactivate alertUuid)], Label.runsFor i 4, [.runs i false], Label.runsFor i 3].flatten

/-- Its deactivation by force. -/
def deactivationByForce (i : ℕ) : List (Label PlatformJob) :=
  [Label.runsFor i 2, [.runs i false, .runs i false], Label.runsFor i 5].flatten

/-- An entry is queued between the drain of a deactivation and its deactivation by force. -/
def strandedEntry : List (Label PlatformJob) :=
  activation 0 ++ emptyDrain 1 ++ queuedWrite 2 ++ deactivationByForce 1

/-- An entry is queued while the mode is active. -/
def quietQueue : List (Label PlatformJob) :=
  activation 0 ++ queuedWrite 2

/-- The entry stays behind: it is pending, and the mode is inactive. -/
theorem force_strands_entry :
    ∃ s, (sessions (platformJob plainPlatformEnv) freshPlatform).Reaches
      (Allows (anyEntry plainPlatformEnv)) s ∧ ¬ Calm s.world.db := by
  obtain ⟨s, hs, hinactive, hpending⟩ := Run.System.exists_of_exec
    (sessions (platformJob plainPlatformEnv) freshPlatform) (Allows (anyEntry plainPlatformEnv))
    (sessions (platformJob plainPlatformEnv) freshPlatform).init strandedEntry
    (fun s => s.world.db.active = false ∧ s.world.db.pending.length = 1) (by decide +kernel)
  refine ⟨s, Run.System.steps_of_exec hs, fun hcalm => ?_⟩
  rw [hcalm hinactive] at hpending
  simp at hpending

/-- A queued entry is stored exactly once, and the mode is active. -/
theorem queue_exactly_once_iff_queued :
    ∃ s, (sessions (platformJob plainPlatformEnv) freshPlatform).Reaches
      (Allows (anyEntry plainPlatformEnv)) s ∧ s.world.log.length = 2 ∧
        ((ExactlyOnce s.world ∧ ∀ ev ∈ s.world.log, Calm ev.after) ↔
          ∀ ev ∈ s.world.log, QuietEnd ev) := by
  obtain ⟨s, hs, hlength⟩ := Run.System.exists_of_exec
    (sessions (platformJob plainPlatformEnv) freshPlatform) (Allows (anyEntry plainPlatformEnv))
    (sessions (platformJob plainPlatformEnv) freshPlatform).init quietQueue
    (fun s => s.world.log.length = 2) (by decide +kernel)
  have hreach := Run.System.steps_of_exec hs
  exact ⟨s, hreach, hlength, queue_exactly_once_iff plainPlatformEnv hreach⟩

end ProjectVault.Platform
