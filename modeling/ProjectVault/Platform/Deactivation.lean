import ProjectVault.Platform.Queue

/-!
The record of a deactivation of the maintenance mode.
-/

namespace ProjectVault.Platform

open Js Db Audit

/-- Entries that are not the event of a deactivation. -/
def ordinaryEntry (env : PlatformEnv) : EntrySpec env where
  entry fields := fields.actionType ≠ maintenanceModeDeactivated
  operator _ := True
  good _ := True
  operator_of_entry _ _ := trivial
  good_direct := by simp
  good_drained := by simp

lemma ordinary_ordinaryEntry (env : PlatformEnv) : (ordinaryEntry env).Ordinary :=
  fun _ hentry => hentry

instance (env : PlatformEnv) (s : State PlatformDb PlatformLock PlatformAnswer) :
    (a : Label PlatformJob) → Decidable (Allows (ordinaryEntry env) s a)
  | .opens _ (.write entries) => inferInstanceAs
      (Decidable (∀ fields ∈ entries, fields.actionType ≠ maintenanceModeDeactivated))
  | .opens _ (.activate entry) =>
    inferInstanceAs (Decidable (entry.actionType ≠ maintenanceModeDeactivated))
  | .opens _ (.deactivate _) | .runs .. | .closes _ | .tick _ => .isTrue trivial

/-- In every run of jobs that do not write the event of a deactivation themselves, and for
every end of a transaction that starts with nothing pending in an inactive mode: the mode
is switched off if and only if exactly one event of it is inserted, and the entries whose
drain has failed stay when the caller asks for the commit, if and only if the transaction
is neither disturbed nor aborted. -/
theorem deactivation_recorded_iff (env : PlatformEnv)
    {s : State PlatformDb PlatformLock PlatformAnswer}
    (h : (sessions (platformJob env) freshPlatform).Reaches (Allows (ordinaryEntry env)) s) :
    ∀ ev ∈ s.world.log, Calm ev.before → ((Recorded ev ∧ Kept ev) ↔ (Undisturbed ev ∧ Unaborted ev)) := by
  intro ev hev hcalm
  have hinv := platformInv_of_reaches (ordinaryEntry env) h
  rw [hinv.recorded (ordinary_ordinaryEntry env) ev hev hcalm, hinv.kept ev hev]

/-! ### A swallowed error -/

/-- A write in session `i` that is followed by a drain of one entry, whose end switches the
flag and throws. -/
def swallowedDrain (i : ℕ) : List (Label PlatformJob) :=
  [[.opens i (.write [plainEntry]), .runs i true],
    [.runs i false, .runs i false], Label.runsFor i 4,
    [.runs i false], Label.runsFor i 2,
    [.runs i false, .runs i false], Label.runsFor i 4,
    Label.runsFor i 1, [.runs i false], Label.runsFor i 3].flatten

/-- An entry is queued, and the drain after the next write is disturbed. -/
def disturbedRun : List (Label PlatformJob) :=
  activation 0 ++ queuedWrite 1 ++ swallowedDrain 2

/-- The transaction commits: the mode is off, and no event says so. -/
theorem swallowed_deactivation :
    ∃ s, (sessions (platformJob plainPlatformEnv) freshPlatform).Reaches
      (Allows (ordinaryEntry plainPlatformEnv)) s ∧ ∃ ev ∈ s.world.log, ¬ Recorded ev := by
  obtain ⟨s, hs, hlog⟩ := Run.System.exists_of_exec
    (sessions (platformJob plainPlatformEnv) freshPlatform) (Allows (ordinaryEntry plainPlatformEnv))
    (sessions (platformJob plainPlatformEnv) freshPlatform).init disturbedRun
    (fun s => ∃ ev ∈ s.world.log, (ev.before.active = true ∧ ev.after.active = false) ∧
      recordedBy ev = 0) (by decide +kernel)
  obtain ⟨ev, hev, hoff, hnone⟩ := hlog
  refine ⟨s, Run.System.steps_of_exec hs, ev, hev, fun hrecorded => ?_⟩
  have hone := hrecorded.1 hoff
  omega

/-- The transaction that queues an entry before it is recorded as it should be. -/
theorem deactivation_recorded_iff_queued :
    ∃ s, (sessions (platformJob plainPlatformEnv) freshPlatform).Reaches
      (Allows (ordinaryEntry plainPlatformEnv)) s ∧ ∃ ev ∈ s.world.log, Calm ev.before ∧
        ((Recorded ev ∧ Kept ev) ↔ (Undisturbed ev ∧ Unaborted ev)) := by
  obtain ⟨s, hs, hlog⟩ := Run.System.exists_of_exec
    (sessions (platformJob plainPlatformEnv) freshPlatform) (Allows (ordinaryEntry plainPlatformEnv))
    (sessions (platformJob plainPlatformEnv) freshPlatform).init quietQueue
    (fun s => ∃ ev ∈ s.world.log, ev.before.active = true) (by decide +kernel)
  obtain ⟨ev, hev, hactive⟩ := hlog
  have hcalm : Calm ev.before := fun hoff => absurd (hactive.symm.trans hoff) (by simp)
  have hreach := Run.System.steps_of_exec hs
  exact ⟨s, hreach, ev, hev, hcalm, deactivation_recorded_iff plainPlatformEnv hreach ev hev hcalm⟩

end ProjectVault.Platform
