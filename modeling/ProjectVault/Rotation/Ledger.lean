import ProjectVault.Rotation.Protection

/-!
What a run leaves of the history of a credential: no row is deleted, a version keeps what it was
written with until it is purged for good, and a rotation only moves on.
-/

namespace ProjectVault

open Js

/-- A version without the marks of its later life. -/
def CredentialVersion.written (v : CredentialVersion) : CredentialVersion :=
  { v with
    rotationLockedAt := none
    breakGlassOverlapExpiresAt := none
    abandonedAt := none
    promotedAt := none }

/-- A version that is marked, or purged. -/
def CredentialVersion.Amends (v v' : CredentialVersion) : Prop :=
  v'.written = v.written ∨ v.purgedAt = none ∧ ∃ now, v'.written = v.written.purge now

instance amends_trans : IsTrans CredentialVersion CredentialVersion.Amends where
  trans a b c h h' := by
    rcases h with h | ⟨hlive, now, h⟩
    · have hsame : b.written.purgedAt = a.written.purgedAt := by rw [h]
      rcases h' with h' | ⟨hlive, now, h'⟩
      · exact .inl (h'.trans h)
      · exact .inr ⟨hsame.symm.trans hlive, now, by rw [h', h]⟩
    · have hgone : b.purgedAt = some now := congrArg CredentialVersion.purgedAt h
      rcases h' with h' | ⟨hlive', -⟩
      · exact .inr ⟨hlive, now, h'.trans h⟩
      · rw [hlive'] at hgone
        cases hgone

/-- The statuses a rotation moves to. -/
def RotationStatus.next : RotationStatus → List RotationStatus
  | .staged => [.promoted, .abandoned]
  | .promoted => [.retired]
  | .inProgress => [.completed, .staleRecovery, .abandoned]
  | .staleRecovery => [.inProgress, .abandoned]
  | .retired | .completed | .abandoned | .breakGlassComplete => []

/-- A rotation of the same versions, some moves later. -/
abbrev RotationLink.Moves : RotationLink → RotationLink → Prop :=
  Relation.ReflTransGen fun l l' => ∃ status ∈ l.status.next, l' = { l with status }

/-- What the rows of a history become. -/
structure Slice.Follows (σ σ' : Slice) : Prop where
  versions : Db.Continues CredentialVersion.Amends σ.versions σ'.versions
  rotations : Db.Continues RotationLink.Moves σ.rotations σ'.rotations

namespace Slice.Follows

variable {σ τ τ' : Slice} {now : ℕ} {k : Change} {l : RotationLink}

lemma move (h : Db.Continues RotationLink.Moves σ.rotations τ.rotations) (hτ : τ.WellFormed)
    (hl : l ∈ τ.rotations) {status : RotationStatus} (hnext : status ∈ l.status.next) :
    Db.Continues RotationLink.Moves σ.rotations (τ.setStatus l.id status).rotations := by
  refine h.updateWhere fun m hm hid => .single ⟨status, ?_, rfl⟩
  rw [hτ.rotation_eq hm hl (of_decide_eq_true hid)]
  exact hnext

lemma mark {rows rows' : List CredentialVersion} {p : CredentialVersion → Bool}
    {f : CredentialVersion → CredentialVersion} (h : Db.Continues CredentialVersion.Amends rows rows')
    (hf : ∀ v, (f v).written = v.written) :
    Db.Continues CredentialVersion.Amends rows (Db.updateWhere p f rows') :=
  h.updateWhere fun v _ _ => .inl (hf v)

lemma refl (σ : Slice) : σ.Follows σ :=
  ⟨fun v hv => ⟨v, hv, .inl rfl⟩, fun l hl => ⟨l, hl, .refl⟩⟩

/-- **Step lemma**: every change of a history follows it. -/
lemma step (h : σ.Follows τ) (hτ : τ.WellFormed) (hstep : Slice.Step now τ k τ') :
    σ.Follows τ' := by
  obtain ⟨hv, hr⟩ := h
  cases hstep with
  | edit | imported => exact ⟨hv.append _, hr⟩
  | stage | breakGlass => exact ⟨mark (hv.append _) fun _ => rfl, hr.append _⟩
  | promote hl hst => exact ⟨mark hv fun _ => rfl, move hr hτ hl (by rw [hst]; decide)⟩
  | retire hl hst =>
    refine ⟨hv.updateWhere fun v _ _ => ?_, move hr hτ hl (by rw [hst]; decide)⟩
    rw [purgeUnlessPurged]
    split_ifs with hlive
    · exact .inr ⟨hlive, now, rfl⟩
    · exact .inl rfl
  | complete hl hst => exact ⟨mark hv fun _ => rfl, move hr hτ hl (by rw [hst]; decide)⟩
  | resume hl hst => exact ⟨hv, move hr hτ hl (by rw [hst]; decide)⟩
  | recover hl hst => exact ⟨hv, move hr hτ hl (by rw [hst]; decide)⟩
  | @abandon l hl hactive hst =>
    refine ⟨mark (mark hv fun _ => rfl) fun _ => rfl, move hr hτ hl ?_⟩
    revert hactive hst
    rw [RotationLink.isActive]
    cases l.status <;> decide
  | expire => exact ⟨mark hv fun _ => rfl, hr⟩
  | prune n =>
    refine ⟨hv.updateWhere fun v hv hcandidate => .inr ⟨?_, now, rfl⟩, hr⟩
    obtain ⟨x, hx, hid⟩ := List.mem_map.1 (of_decide_eq_true hcandidate)
    obtain ⟨hxmem, hlive, -⟩ := mem_ranking.mp (mem_purgeCandidates hx)
    rwa [hτ.version_eq hv hxmem hid.symm]

end Slice.Follows

/-- **The history of a credential is kept**: between two states of a run no row is gone, what a
version was written with is only ever purged, a rotation only moves on, and one is active. -/
theorem history_kept {rt : Runtime} {ok : VaultState → Timed → Prop} {w v : VaultState}
    (hw : (vault rt).Reaches ok w) (h : (vault rt).Steps ok w v) (c : ℕ) :
    (w.store.slice c).Follows (v.store.slice c) ∧
      ∀ l ∈ (v.store.slice c).rotations, ∀ m ∈ (v.store.slice c).rotations,
        l.isActive = true → m.isActive = true → l = m := by
  have hkept : v.store.WellFormed ∧ (w.store.slice c).Follows (v.store.slice c) := by
    refine Run.System.Steps.invariant (P := fun v : VaultState =>
      v.store.WellFormed ∧ (w.store.slice c).Follows (v.store.slice c)) ?_ h
      ⟨(reachable_sound hw).1, .refl _⟩
    rintro ⟨s, t⟩ ⟨now, op⟩ v' ⟨hwf, hI⟩ - hv'
    simp only [vault] at hv'
    split at hv'
    · cases hv'
      have hpath := apply_path rt hwf now op
      refine ⟨hpath.wellFormed hwf, hpath.slice_invariant
        (I := fun d τ => d = c → (w.store.slice c).Follows τ) ?_ hwf (fun d hd => hd ▸ hI) c rfl⟩
      intro s' d k τ' hs' _ hId _ hst hd
      exact (hId hd).step (hs'.slice d) hst
    · cases hv'
  exact ⟨hkept.2, (hkept.1.slice c).one_active⟩

/-- A break-glass that takes a staged credential over keeps the version it supersedes. -/
theorem history_kept_breakGlass :
    ∃ w v : VaultState, (vault .ascii).Reaches (fun _ _ => True) w ∧ (w.store.slice 1).versions ≠ [] ∧
      (∃ l ∈ (v.store.slice 1).rotations, l.status = .breakGlassComplete) ∧
      (w.store.slice 1).Follows (v.store.slice 1) := by
  obtain ⟨w, hw, hrows, hnext⟩ := (vault .ascii).exists_of_exec (fun _ _ => True)
    (vault .ascii).init stagedRun (fun w => (w.store.slice 1).versions ≠ [] ∧
      ((vault .ascii).exec (fun _ _ => True) w (breakGlassRun.drop stagedRun.length)).any
        (fun v => ∃ l ∈ (v.store.slice 1).rotations, l.status = .breakGlassComplete) = true)
    (by decide)
  obtain ⟨v, hv, htaken⟩ := (vault .ascii).exists_of_exec (fun _ _ => True) w
    (breakGlassRun.drop stagedRun.length)
    (fun v => ∃ l ∈ (v.store.slice 1).rotations, l.status = .breakGlassComplete) hnext
  have hreach := Run.System.steps_of_exec hw
  exact ⟨w, v, hreach, hrows, htaken, (history_kept hreach (Run.System.steps_of_exec hv) 1).1⟩

end ProjectVault
