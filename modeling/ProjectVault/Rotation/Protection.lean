import ProjectVault.Rotation.Retention

/-!
The retention lock of a version and the two reasons for it: an active rotation
that supersedes the version, and the overlap a break-glass left behind.
-/

namespace ProjectVault

namespace Slice

/-- The version the active rotation supersedes. -/
def held (σ : Slice) : Option ℕ :=
  (σ.rotations.find? RotationLink.isActive).map RotationLink.previousVersionId

variable {σ : Slice} {now : ℕ}

lemma held_eq_some_iff (hwf : σ.WellFormed) {id : ℕ} :
    σ.held = some id ↔ ∃ l ∈ σ.rotations, l.isActive = true ∧ l.previousVersionId = id := by
  rw [held, Option.map_eq_some_iff]
  constructor
  · rintro ⟨l, hl, rfl⟩
    exact ⟨l, List.mem_of_find?_eq_some hl, List.find?_some hl, rfl⟩
  · rintro ⟨l, hl, hact, rfl⟩
    cases hf : σ.rotations.find? RotationLink.isActive with
    | none => exact absurd hact (List.find?_eq_none.mp hf l hl)
    | some m =>
      have hm := hwf.one_active m (List.mem_of_find?_eq_some hf) l hl (List.find?_some hf) hact
      exact ⟨l, by rw [hm], rfl⟩

lemma held_eq_none_iff : σ.held = none ↔ σ.Quiet := by
  simp [held, Quiet]

lemma held_of_active (hwf : σ.WellFormed) {l : RotationLink} (hl : l ∈ σ.rotations)
    (hact : l.isActive = true) : σ.held = some l.previousVersionId :=
  (held_eq_some_iff hwf).mpr ⟨l, hl, hact, rfl⟩

/-- A rotation that moves and stays active holds what it held. -/
lemma held_move (hwf : σ.WellFormed) {l : RotationLink} (hl : l ∈ σ.rotations)
    (hact : l.isActive = true) {status : RotationStatus} (hst : status ∈ activeRotationStatuses)
    {τ : Slice} (hwf' : τ.WellFormed) (hτ : τ.rotations = (σ.setStatus l.id status).rotations) :
    τ.held = σ.held := by
  rw [held_of_active hwf hl hact]
  refine (held_eq_some_iff hwf').mpr ⟨{ l with status }, ?_, ?_, rfl⟩
  · rw [hτ]
    exact (hwf.mem_move hl status).mpr (.inr rfl)
  · simpa [RotationLink.isActive] using hst

/-- A rotation that ends leaves nothing held. -/
lemma held_end (hwf : σ.WellFormed) {l : RotationLink} (hl : l ∈ σ.rotations)
    (hact : l.isActive = true) {status : RotationStatus} (hst : status ∉ activeRotationStatuses)
    {τ : Slice} (hτ : τ.rotations = (σ.setStatus l.id status).rotations) : τ.held = none := by
  refine held_eq_none_iff.mpr fun x hx => ?_
  rw [hτ] at hx
  rcases (hwf.mem_move hl status).mp hx with ⟨hx, hid⟩ | rfl
  · cases hxa : x.isActive with
    | false => rfl
    | true => exact absurd (hwf.eq_of_active hl hx hact hxa) hid
  · simpa [RotationLink.isActive] using hst

end Slice

/-! ### Marks -/

/-- Some live version is numbered above `n`. -/
def Covered (vs : List CredentialVersion) (n : ℕ) : Prop :=
  ∃ w ∈ vs, w.isLive = true ∧ n < w.versionNumber

/-- The locks of the versions `vs`, of which the active rotation holds `held`. -/
structure Marked (vs : List CredentialVersion) (held : Option ℕ) : Prop where
  locked_iff : ∀ v ∈ vs, v.purgedAt = none →
    (v.rotationLockedAt ≠ none ↔ held = some v.id ∨ v.breakGlassOverlapExpiresAt ≠ none)
  overlap_covered : ∀ v ∈ vs, v.purgedAt = none → v.breakGlassOverlapExpiresAt ≠ none →
    Covered vs v.versionNumber
  held_live : ∀ p ∈ vs, held = some p.id → p.isLive = true
  held_covered : ∀ p ∈ vs, held = some p.id → Covered vs p.versionNumber
  overlap_lt : ∀ p ∈ vs, held = some p.id → ∀ v ∈ vs, v.purgedAt = none →
    v.breakGlassOverlapExpiresAt ≠ none → v.versionNumber < p.versionNumber

namespace Marked

variable {vs : List CredentialVersion} {held : Option ℕ} {now : ℕ}
variable {p : CredentialVersion}

lemma of_held {held' : Option ℕ} (he : held' = held) (h : Marked vs held) : Marked vs held' :=
  he ▸ h

lemma held_overlap (h : Marked vs held) (hp : p ∈ vs) (hid : held = some p.id) :
    p.breakGlassOverlapExpiresAt = none := by
  by_contra hne
  have hlive := Slice.isLive_iff.mp (h.held_live p hp hid)
  exact lt_irrefl _ (h.overlap_lt p hp hid p hp hlive.1 hne)

/-- A new version is unmarked. -/
lemma push (h : Marked vs held) {row : CredentialVersion} (hp : row.purgedAt = none)
    (hunlocked : row.rotationLockedAt = none) (hoverlap : row.breakGlassOverlapExpiresAt = none)
    (hid : held ≠ some row.id) : Marked (vs ++ [row]) held := by
  have hcov : ∀ {n}, Covered vs n → Covered (vs ++ [row]) n := fun ⟨w, hw, hrest⟩ =>
    ⟨w, by simp [hw], hrest⟩
  refine ⟨fun v hv hvp => ?_, fun v hv hvp hov => ?_, fun p hp' hpid => ?_, fun p hp' hpid => ?_,
    fun p hp' hpid v hv hvp hov => ?_⟩
  · rcases List.mem_append.mp hv with hv | hv
    · exact h.locked_iff v hv hvp
    · obtain rfl := List.mem_singleton.mp hv
      simp [hunlocked, hoverlap, hid]
  · rcases List.mem_append.mp hv with hv | hv
    · exact hcov (h.overlap_covered v hv hvp hov)
    · obtain rfl := List.mem_singleton.mp hv
      exact absurd hoverlap hov
  · rcases List.mem_append.mp hp' with hp' | hp'
    · exact h.held_live p hp' hpid
    · obtain rfl := List.mem_singleton.mp hp'
      exact absurd hpid hid
  · rcases List.mem_append.mp hp' with hp' | hp'
    · exact hcov (h.held_covered p hp' hpid)
    · obtain rfl := List.mem_singleton.mp hp'
      exact absurd hpid hid
  · rcases List.mem_append.mp hp' with hp' | hp'
    · rcases List.mem_append.mp hv with hv | hv
      · exact h.overlap_lt p hp' hpid v hv hvp hov
      · obtain rfl := List.mem_singleton.mp hv
        exact absurd hoverlap hov
    · obtain rfl := List.mem_singleton.mp hp'
      exact absurd hpid hid

/-- A change in place that keeps numbers, locks and overlaps: versions may only be
purged or abandoned, the held one may not, and coverage must survive. -/
lemma shrink (h : Marked vs held) {g : CredentialVersion → CredentialVersion}
    (hid : ∀ v, (g v).id = v.id) (hnum : ∀ v, (g v).versionNumber = v.versionNumber)
    (hlock : ∀ v, (g v).rotationLockedAt = v.rotationLockedAt)
    (hov : ∀ v, (g v).breakGlassOverlapExpiresAt = v.breakGlassOverlapExpiresAt)
    (hpurged : ∀ v, (g v).purgedAt = none → v.purgedAt = none)
    (hheld : ∀ p ∈ vs, held = some p.id → (g p).isLive = true)
    (hcov : ∀ n, Covered vs n → Covered (vs.map g) n) : Marked (vs.map g) held := by
  refine ⟨fun x hx hxp => ?_, fun x hx hxp hxo => ?_, fun x hx hxid => ?_, fun x hx hxid => ?_,
    fun x hx hxid y hy hyp hyo => ?_⟩
  · obtain ⟨v, hv, rfl⟩ := List.mem_map.mp hx
    rw [hlock, hid, hov]
    exact h.locked_iff v hv (hpurged v hxp)
  · obtain ⟨v, hv, rfl⟩ := List.mem_map.mp hx
    rw [hov] at hxo
    rw [hnum]
    exact hcov _ (h.overlap_covered v hv (hpurged v hxp) hxo)
  · obtain ⟨p, hp, rfl⟩ := List.mem_map.mp hx
    rw [hid] at hxid
    exact hheld p hp hxid
  · obtain ⟨p, hp, rfl⟩ := List.mem_map.mp hx
    rw [hid] at hxid
    rw [hnum]
    exact hcov _ (h.held_covered p hp hxid)
  · obtain ⟨p, hp, rfl⟩ := List.mem_map.mp hx
    obtain ⟨v, hv, rfl⟩ := List.mem_map.mp hy
    rw [hid] at hxid
    rw [hov] at hyo
    rw [hnum, hnum]
    exact h.overlap_lt p hp hxid v hv (hpurged v hyp) hyo

/-- With nothing held only locks and overlaps matter. -/
lemma of_none
    (hlock : ∀ v ∈ vs, v.purgedAt = none →
      (v.rotationLockedAt ≠ none ↔ v.breakGlassOverlapExpiresAt ≠ none))
    (hcov : ∀ v ∈ vs, v.purgedAt = none → v.breakGlassOverlapExpiresAt ≠ none →
      Covered vs v.versionNumber) : Marked vs none := by
  refine ⟨fun v hv hvp => ?_, hcov, ?_, ?_, ?_⟩
  · simpa using hlock v hv hvp
  · simp
  · simp
  · simp

/-- A rotation begins: it holds a covered live version above every overlap. -/
lemma hold (h : Marked vs none) (hlive : p.isLive = true) (huniq : ∀ v ∈ vs, v.id = p.id → v = p)
    (hcov : Covered vs p.versionNumber)
    (hlt : ∀ v ∈ vs, v.purgedAt = none → v.breakGlassOverlapExpiresAt ≠ none →
      v.versionNumber < p.versionNumber) :
    Marked (Db.updateWhere (fun v => v.id = p.id) (fun v => { v with rotationLockedAt := some now })
      vs) (some p.id) := by
  have hcov' : ∀ {n}, Covered vs n → Covered (Db.updateWhere (fun v => v.id = p.id)
      (fun v => { v with rotationLockedAt := some now }) vs) n := by
    rintro n ⟨w, hw, hwl, hn⟩
    refine ⟨_, Db.mem_updateWhere.mpr ⟨w, hw, rfl⟩, ?_⟩
    split
    · exact ⟨hwl, hn⟩
    · exact ⟨hwl, hn⟩
  have hheld : ∀ x ∈ Db.updateWhere (fun v => v.id = p.id)
      (fun v => { v with rotationLockedAt := some now }) vs, some p.id = some x.id →
        x = { p with rotationLockedAt := some now } := by
    intro x hx hxid
    obtain ⟨v, hv, rfl⟩ := Db.mem_updateWhere.mp hx
    have hid : v.id = p.id := by
      split at hxid
      · exact (Option.some.inj hxid).symm
      · exact (Option.some.inj hxid).symm
    rw [if_pos (by simpa using hid), huniq v hv hid]
  refine ⟨fun x hx hxp => ?_, fun x hx hxp hxo => ?_, fun x hx hxid => ?_, fun x hx hxid => ?_,
    fun x hx hxid y hy hyp hyo => ?_⟩
  · obtain ⟨v, hv, rfl⟩ := Db.mem_updateWhere.mp hx
    by_cases hid : v.id = p.id
    · simp [hid]
    · have hl := h.locked_iff v hv (by simpa [hid] using hxp)
      simpa [hid, Ne.symm hid] using hl
  · obtain ⟨v, hv, rfl⟩ := Db.mem_updateWhere.mp hx
    by_cases hid : v.id = p.id
    · rw [if_pos (by simpa using hid)] at hxp hxo ⊢
      exact hcov' (h.overlap_covered v hv hxp hxo)
    · rw [if_neg (by simpa using hid)] at hxp hxo ⊢
      exact hcov' (h.overlap_covered v hv hxp hxo)
  · rw [hheld x hx hxid]
    exact hlive
  · rw [hheld x hx hxid]
    exact hcov' hcov
  · rw [hheld x hx hxid]
    obtain ⟨u, hu, rfl⟩ := Db.mem_updateWhere.mp hy
    by_cases huid : u.id = p.id
    · rw [if_pos (by simpa using huid)] at hyp hyo ⊢
      exact hlt u hu hyp hyo
    · rw [if_neg (by simpa using huid)] at hyp hyo ⊢
      exact hlt u hu hyp hyo

lemma overlap (h : Marked vs none) (hcov : Covered vs p.versionNumber)
    (huniq : ∀ v ∈ vs, v.id = p.id → v = p) (expiresAt : ℕ) :
    Marked (Db.updateWhere (fun v => v.id = p.id) (fun v => { v with
      rotationLockedAt := some now, breakGlassOverlapExpiresAt := some expiresAt }) vs) none := by
  have hcov' : ∀ {n}, Covered vs n → Covered (Db.updateWhere (fun v => v.id = p.id)
      (fun v => { v with
        rotationLockedAt := some now, breakGlassOverlapExpiresAt := some expiresAt }) vs) n := by
    rintro n ⟨w, hw, hwl, hn⟩
    refine ⟨_, Db.mem_updateWhere.mpr ⟨w, hw, rfl⟩, ?_⟩
    split
    · exact ⟨hwl, hn⟩
    · exact ⟨hwl, hn⟩
  refine of_none (fun x hx hxp => ?_) fun x hx hxp hxo => ?_
  · obtain ⟨v, hv, rfl⟩ := Db.mem_updateWhere.mp hx
    by_cases hid : v.id = p.id
    · simp [hid]
    · have hl := h.locked_iff v hv (by simpa [hid] using hxp)
      simpa [hid] using hl
  · obtain ⟨v, hv, rfl⟩ := Db.mem_updateWhere.mp hx
    by_cases hid : v.id = p.id
    · rw [if_pos (by simpa using hid), huniq v hv hid]
      exact hcov' hcov
    · rw [if_neg (by simpa using hid)] at hxp hxo ⊢
      exact hcov' (h.overlap_covered v hv hxp hxo)

/-- A rotation ends and its superseded version is released or purged; any other
version may be abandoned meanwhile. -/
lemma release (h : Marked vs held) (hp : p ∈ vs) (hheld : held = some p.id)
    (huniq : ∀ v ∈ vs, v.id = p.id → v = p) {g : CredentialVersion → CredentialVersion}
    (hnum : ∀ v, (g v).versionNumber = v.versionNumber)
    (hov : ∀ v, (g v).breakGlassOverlapExpiresAt = v.breakGlassOverlapExpiresAt)
    (hpurged : ∀ v, (g v).purgedAt = none → v.purgedAt = none)
    (hlock : ∀ v ∈ vs, v.id ≠ p.id → (g v).rotationLockedAt = v.rotationLockedAt)
    (hfree : (g p).rotationLockedAt = none)
    (hcov : ∃ w ∈ vs, (g w).isLive = true ∧ p.versionNumber ≤ w.versionNumber) :
    Marked (vs.map g) none := by
  refine of_none (fun x hx hxp => ?_) fun x hx hxp hxo => ?_
  · obtain ⟨v, hv, rfl⟩ := List.mem_map.mp hx
    rw [hov]
    by_cases hid : v.id = p.id
    · rw [huniq v hv hid, hfree, h.held_overlap hp hheld]
    · rw [hlock v hv hid, h.locked_iff v hv (hpurged v hxp), hheld]
      simp [Ne.symm hid]
  · obtain ⟨v, hv, rfl⟩ := List.mem_map.mp hx
    rw [hov] at hxo
    obtain ⟨w, hw, hwl, hle⟩ := hcov
    refine ⟨g w, List.mem_map_of_mem hw, hwl, ?_⟩
    rw [hnum, hnum]
    exact lt_of_lt_of_le (h.overlap_lt p hp hheld v hv (hpurged v hxp) hxo) hle

/-- The end of an overlap takes the lock with it, which the held version does not
need: it is in no overlap. -/
lemma expire (h : Marked vs held) (id : ℕ) :
    Marked (Db.updateWhere (fun v => decide (v.id = id) && overlapExpired now v)
      (fun v => { v with rotationLockedAt := none, breakGlassOverlapExpiresAt := none }) vs)
      held := by
  have hov : ∀ v, overlapExpired now v = true → v.breakGlassOverlapExpiresAt ≠ none := by
    intro v hv hnone
    simp [overlapExpired, hnone] at hv
  have hcov : ∀ {n}, Covered vs n → Covered (Db.updateWhere
      (fun v => decide (v.id = id) && overlapExpired now v)
      (fun v => { v with rotationLockedAt := none, breakGlassOverlapExpiresAt := none }) vs) n := by
    rintro n ⟨w, hw, hwl, hn⟩
    refine ⟨_, Db.mem_updateWhere.mpr ⟨w, hw, rfl⟩, ?_⟩
    split
    · exact ⟨hwl, hn⟩
    · exact ⟨hwl, hn⟩
  have hsame : ∀ p ∈ vs, held = some p.id →
      ¬ (decide (p.id = id) && overlapExpired now p) = true := by
    intro p hp hid hexp
    exact hov p (Bool.and_eq_true_iff.mp hexp).2 (h.held_overlap hp hid)
  refine ⟨fun x hx hxp => ?_, fun x hx hxp hxo => ?_, fun x hx hxid => ?_, fun x hx hxid => ?_,
    fun x hx hxid y hy hyp hyo => ?_⟩
  · obtain ⟨v, hv, rfl⟩ := Db.mem_updateWhere.mp hx
    split at hxp
    · rename_i hexp
      rw [if_pos hexp]
      have hne : held ≠ some v.id := fun hid => hsame v hv hid hexp
      simpa using hne
    · rename_i hexp
      rw [if_neg hexp]
      exact h.locked_iff v hv hxp
  · obtain ⟨v, hv, rfl⟩ := Db.mem_updateWhere.mp hx
    split at hxo
    · exact absurd rfl hxo
    · rename_i hexp
      rw [if_neg hexp] at hxp ⊢
      exact hcov (h.overlap_covered v hv hxp hxo)
  · obtain ⟨v, hv, rfl⟩ := Db.mem_updateWhere.mp hx
    have hid : held = some v.id := by
      split at hxid
      · exact hxid
      · exact hxid
    rw [if_neg (hsame v hv hid)]
    exact h.held_live v hv hid
  · obtain ⟨v, hv, rfl⟩ := Db.mem_updateWhere.mp hx
    have hid : held = some v.id := by
      split at hxid
      · exact hxid
      · exact hxid
    rw [if_neg (hsame v hv hid)]
    exact hcov (h.held_covered v hv hid)
  · obtain ⟨v, hv, rfl⟩ := Db.mem_updateWhere.mp hx
    obtain ⟨u, hu, rfl⟩ := Db.mem_updateWhere.mp hy
    have hid : held = some v.id := by
      split at hxid
      · exact hxid
      · exact hxid
    rw [if_neg (hsame v hv hid)]
    split at hyo
    · exact absurd rfl hyo
    · rename_i hexp
      rw [if_neg hexp] at hyp ⊢
      exact h.overlap_lt v hv hid u hu hyp hyo

end Marked

namespace Slice

variable {σ : Slice} {now : ℕ}
variable {l : RotationLink}

/-- The locks of a history are accounted for. -/
def Guarded (σ : Slice) : Prop := Marked σ.versions σ.held

/-- Retention keeps a live version above everything that had one. -/
lemma covered_prune (hwf : σ.WellFormed) {k n : ℕ} (h : Covered σ.versions n) :
    Covered (Db.updateWhere (fun v => v.id ∈ (σ.purgeCandidates k).map CredentialVersion.id)
      (CredentialVersion.purge now) σ.versions) n := by
  obtain ⟨w, hw, hwl, hn⟩ := h
  cases hm : σ.lockTarget with
  | none =>
    have hnil := List.argmax_eq_none.mp hm
    have hmem : w ∈ σ.versions.filter CredentialVersion.isLive := List.mem_filter.mpr ⟨hw, hwl⟩
    rw [hnil] at hmem
    simp at hmem
  | some m =>
    obtain ⟨hmem, hml⟩ := List.mem_filter.mp (List.argmax_mem hm)
    have hle := List.le_of_mem_argmax (List.mem_filter.mpr ⟨hw, hwl⟩) hm
    -- the highest live version is no candidate: one ranked above it would be live
    have hcand : m ∉ σ.purgeCandidates k := by
      intro hc
      obtain ⟨u, hu, hua, hlt⟩ := exists_live_above hwf hc (isLive_iff.mp hml).2
      obtain ⟨humem, hup, -⟩ := mem_ranking.mp hu
      have hule := List.le_of_mem_argmax
        (List.mem_filter.mpr ⟨humem, isLive_iff.mpr ⟨hup, hua⟩⟩) hm
      exact absurd hlt (not_lt.mpr hule)
    refine ⟨m, Db.mem_updateWhere.mpr ⟨m, hmem, ?_⟩, hml, lt_of_lt_of_le hn hle⟩
    rw [if_neg]
    intro hid
    obtain ⟨u, hu, huid⟩ := List.mem_map.mp (of_decide_eq_true hid)
    have humem := (mem_ranking.mp (mem_purgeCandidates hu)).1
    rw [hwf.version_eq humem hmem huid] at hu
    exact hcand hu

/-- Retention spares the held version, which is locked. -/
lemma Guarded.prune (h : σ.Guarded) (hwf : σ.WellFormed) (k : ℕ) :
    Marked (Db.updateWhere (fun v => v.id ∈ (σ.purgeCandidates k).map CredentialVersion.id)
      (CredentialVersion.purge now) σ.versions) σ.held := by
  refine Marked.shrink h (fun v => ?_) (fun v => ?_) (fun v => ?_) (fun v => ?_) (fun v hv => ?_)
    (fun p hp hid => ?_) fun n hn => covered_prune hwf hn
  · split <;> rfl
  · split <;> rfl
  · split <;> rfl
  · split <;> rfl
  · split at hv
    · simp [CredentialVersion.purge] at hv
    · exact hv
  · have hlive := h.held_live p hp hid
    rw [if_neg]
    · exact hlive
    · intro hcand
      obtain ⟨u, hu, huid⟩ := List.mem_map.mp (of_decide_eq_true hcand)
      obtain ⟨humem, -, hulock⟩ := mem_ranking.mp (mem_purgeCandidates hu)
      rw [hwf.version_eq humem hp huid] at hulock
      exact (h.locked_iff p hp (isLive_iff.mp hlive).1).mpr (.inl hid) hulock

/-- A version inserted into a quiet history covers the version it supersedes, and
every overlap is below that one. -/
lemma Guarded.install (h : σ.Guarded) (hwf : σ.WellFormed) (hq : σ.Quiet)
    {p row : CredentialVersion} (hp : σ.lockTarget = some p) (hrow : σ.Next row) :
    Marked (σ.push row).versions none ∧ p ∈ σ.versions ∧ p.isLive = true ∧
      (∀ v ∈ (σ.push row).versions, v.id = p.id → v = p) ∧
      Covered (σ.push row).versions p.versionNumber ∧
      ∀ v ∈ (σ.push row).versions, v.purgedAt = none → v.breakGlassOverlapExpiresAt ≠ none →
        v.versionNumber < p.versionNumber := by
  obtain ⟨hmem, hlive⟩ := List.mem_filter.mp (List.argmax_mem hp)
  have hnone : σ.held = none := held_eq_none_iff.mpr hq
  have hm : Marked σ.versions none := hnone ▸ h
  refine ⟨hm.push hrow.purgedAt hrow.unlocked hrow.overlap (by simp), hmem, hlive,
    fun v hv hid => ?_, ⟨row, mem_push.mpr (.inr rfl), ?_, hrow.number_lt p hmem⟩,
    fun v hv hvp hvo => ?_⟩
  · rcases mem_push.mp hv with hv | rfl
    · exact hwf.version_eq hv hmem hid
    · exact absurd hid (Nat.ne_of_gt (hrow.id_lt p hmem))
  · exact isLive_iff.mpr ⟨hrow.purgedAt, hrow.abandonedAt⟩
  · rcases mem_push.mp hv with hv | rfl
    · obtain ⟨w, hw, hwl, hlt⟩ := hm.overlap_covered v hv hvp hvo
      exact lt_of_lt_of_le hlt (List.le_of_mem_argmax (List.mem_filter.mpr ⟨hw, hwl⟩) hp)
    · exact absurd hrow.overlap hvo

/-- The row the active rotation supersedes, alone under its key. -/
lemma previous_row (hwf : σ.WellFormed) (hl : l ∈ σ.rotations) (hact : l.isActive = true) :
    ∃ p ∈ σ.versions, p.id = l.previousVersionId ∧
      σ.held = some p.id ∧ ∀ v ∈ σ.versions, v.id = p.id → v = p := by
  obtain ⟨p, hp, -, -, hpid, -, -⟩ := hwf.rotations_linked l hl
  exact ⟨p, hp, hpid, by rw [held_of_active hwf hl hact, hpid],
    fun v hv hid => hwf.version_eq hv hp hid⟩

lemma purgedAt_of_purgeUnlessPurged {v : CredentialVersion}
    (h : (purgeUnlessPurged now v).purgedAt = none) : v.purgedAt = none := by
  unfold purgeUnlessPurged at h
  split at h
  · assumption
  · exact h

lemma Guarded.retire (h : σ.Guarded) (hwf : σ.WellFormed) (hl : l ∈ σ.rotations)
    (hst : l.status = .promoted) :
    Guarded ((σ.setStatus l.id .retired).updateVersion l.previousVersionId
      (purgeUnlessPurged now)) := by
  have hact := isActive_of_promoted hst
  obtain ⟨p, hp, hpid, hheld, huniq⟩ := previous_row hwf hl hact
  have hplive := h.held_live p hp hheld
  obtain ⟨w, hw, hwl, hlt⟩ := h.held_covered p hp hheld
  refine Marked.of_held (held_end hwf hl hact (by decide) rfl) ?_
  rw [← hpid]
  refine Marked.release h hp hheld huniq (fun v => ?_) (fun v => ?_) (fun v hv => ?_)
    (fun v _ hid => ?_) ?_ ⟨w, hw, ?_, hlt.le⟩
  · unfold purgeUnlessPurged
    split_ifs <;> rfl
  · unfold purgeUnlessPurged
    split_ifs <;> rfl
  · split at hv
    · exact purgedAt_of_purgeUnlessPurged hv
    · exact hv
  · rw [if_neg (by simpa using hid)]
  · simp [purgeUnlessPurged, (isLive_iff.mp hplive).1]
  · rw [if_neg]
    · exact hwl
    · intro hid
      rw [huniq w hw (of_decide_eq_true hid)] at hlt
      exact lt_irrefl _ hlt

/-- A rotation that completes releases the version it held. -/
lemma Guarded.complete (h : σ.Guarded) (hwf : σ.WellFormed) (hl : l ∈ σ.rotations)
    (hact : l.isActive = true) :
    Guarded ((σ.setStatus l.id .completed).updateVersion l.previousVersionId fun v =>
      { v with rotationLockedAt := none }) := by
  obtain ⟨p, hp, hpid, hheld, huniq⟩ := previous_row hwf hl hact
  have hplive := h.held_live p hp hheld
  refine Marked.of_held (held_end hwf hl hact (by decide) rfl) ?_
  rw [← hpid]
  refine Marked.release h hp hheld huniq (fun v => ?_) (fun v => ?_) (fun v hv => ?_)
    (fun v _ hid => ?_) ?_ ⟨p, hp, ?_, le_rfl⟩
  · split <;> rfl
  · split <;> rfl
  · split at hv <;> exact hv
  · rw [if_neg (by simpa using hid)]
  · simp
  · split <;> exact hplive

/-- A rotation that is abandoned releases the version it held, which covers every
overlap. -/
lemma Guarded.abandon (h : σ.Guarded) (hwf : σ.WellFormed) (hl : l ∈ σ.rotations)
    (hact : l.isActive = true) :
    Guarded (((σ.setStatus l.id .abandoned).updateVersion l.newVersionId fun v =>
      { v with abandonedAt := some now }).updateVersion l.previousVersionId fun v =>
        { v with rotationLockedAt := none }) := by
  obtain ⟨p, hp, hpid, hheld, huniq⟩ := previous_row hwf hl hact
  obtain ⟨p', hp', n, hn, hpid', hnid, hlt⟩ := hwf.rotations_linked l hl
  have hpn : p.id ≠ l.newVersionId := by
    intro hid
    rw [hwf.version_eq hp' hp (hpid'.trans hpid.symm), hwf.version_eq hn hp (hnid.trans hid.symm)]
      at hlt
    exact lt_irrefl _ hlt
  have hplive := h.held_live p hp hheld
  refine Marked.of_held (held_end hwf hl hact (by decide) rfl) ?_
  rw [← hpid]
  change Marked (Db.updateWhere _ _ (Db.updateWhere _ _ σ.versions)) none
  rw [Db.updateWhere, Db.updateWhere, List.map_map]
  refine Marked.release h hp hheld huniq (fun v => ?_) (fun v => ?_) (fun v hv => ?_)
    (fun v _ hid => ?_) ?_ ⟨p, hp, ?_, le_rfl⟩
  · simp only [Function.comp_apply]
    split_ifs <;> rfl
  · simp only [Function.comp_apply]
    split_ifs <;> rfl
  · simp only [Function.comp_apply] at hv
    split_ifs at hv <;> exact hv
  · by_cases hvn : v.id = l.newVersionId
    · simp [hvn, Ne.symm hpn]
    · simp [hvn, hid]
  · simp [hpn]
  · have hlive' := isLive_iff.mp hplive
    simp [hpn, CredentialVersion.isLive, hlive'.1, hlive'.2]

/-- **Step lemma**: every change of a history keeps its locks accounted for. -/
lemma Guarded.step {σ' : Slice} {k : Change} (h : σ.Guarded) (hwf : σ.WellFormed)
    (hwf' : σ'.WellFormed) (hstep : Step now σ k σ') : σ'.Guarded := by
  have hfresh : ∀ {row : CredentialVersion}, σ.Next row → σ.held ≠ some row.id := by
    intro row hrow hid
    obtain ⟨l, hl, -, hprev⟩ := (held_eq_some_iff hwf).mp hid
    exact hrow.ne_previous hwf hl hprev.symm
  cases hstep with
  | edit hrow => exact Marked.push h hrow.purgedAt hrow.unlocked hrow.overlap (hfresh hrow)
  | imported hrow => exact Marked.push h hrow.purgedAt hrow.unlocked hrow.overlap (hfresh hrow)
  | @stage p row id hq hp hrow =>
    obtain ⟨hm, hmem, hlive, huniq, hcov, hlt⟩ := h.install hwf hq hp hrow
    have hheld := (held_eq_some_iff hwf').mpr
      ⟨⟨id, p.id, row.id, .staged⟩, mem_pushRotation.mpr (.inr rfl), by rfl, rfl⟩
    rw [Guarded, hheld]
    exact hm.hold hlive huniq hcov hlt
  | promote hl hst =>
    refine Marked.of_held (held_move hwf hl (isActive_of_staged hst) (by decide) hwf' rfl) ?_
    refine Marked.shrink h (fun v => ?_) (fun v => ?_) (fun v => ?_) (fun v => ?_)
      (fun v hv => ?_) (fun p hp hid => ?_) fun n hn => ?_
    · split <;> rfl
    · split <;> rfl
    · split <;> rfl
    · split <;> rfl
    · split at hv <;> exact hv
    · have hlive := h.held_live p hp hid
      split <;> exact hlive
    · obtain ⟨w, hw, hwl, hlt⟩ := hn
      refine ⟨_, List.mem_map_of_mem hw, ?_⟩
      split <;> exact ⟨hwl, hlt⟩
  | retire hl hst => exact h.retire hwf hl hst
  | complete hl hst =>
    exact h.complete hwf hl (by simp [RotationLink.isActive, hst, activeRotationStatuses])
  | @resume l hl hst =>
    have hact : l.isActive = true := by simp [RotationLink.isActive, hst, activeRotationStatuses]
    exact Marked.of_held (held_move hwf hl hact (by decide) hwf' rfl) h
  | @recover l hl hst =>
    have hact : l.isActive = true := by simp [RotationLink.isActive, hst, activeRotationStatuses]
    exact Marked.of_held (held_move hwf hl hact (by decide) hwf' rfl) h
  | abandon hl hact => exact h.abandon hwf hl hact
  | @breakGlass p row id expiresAt hq hp hrow =>
    obtain ⟨hm, hmem, hlive, huniq, hcov, hlt⟩ := h.install hwf hq hp hrow
    have hheld : held (((σ.push row).updateVersion p.id fun v =>
        { v with rotationLockedAt := some now, breakGlassOverlapExpiresAt := some expiresAt
          }).pushRotation ⟨id, p.id, row.id, .breakGlassComplete⟩) = none := by
      refine held_eq_none_iff.mpr fun l hl => ?_
      rcases mem_pushRotation.mp hl with hl | rfl
      · exact hq l hl
      · rfl
    rw [Guarded, hheld]
    exact hm.overlap hcov huniq expiresAt
  | expire id => exact Marked.expire h id
  | prune k => exact h.prune hwf k

end Slice

/-! ### Runs -/

/-- A store a run may start from: tables in order and locks accounted for. The
empty store is one, and so are those of earlier releases, whose rotations may still
be `in_progress`. -/
def Store.Historical (s : Store) : Prop := s.WellFormed ∧ ∀ c, (s.slice c).Guarded

lemma historical_empty : Store.empty.Historical := by
  refine ⟨wellFormed_empty, fun c => ?_⟩
  exact Marked.of_none (by simp [Store.slice, Store.versionsOf, Store.empty])
    (by simp [Store.slice, Store.versionsOf, Store.empty])

/-- **Run lemma**: along every run the locks of every history are accounted for. -/
lemma steps_historical {rt : Js.Runtime} {ok : VaultState → Timed → Prop} {w v : VaultState}
    (h : (vault rt).Steps ok w v) (hw : w.store.Historical) : v.store.Historical := by
  refine Run.System.Steps.invariant (P := fun v : VaultState => v.store.Historical) ?_ h hw
  rintro ⟨s, t⟩ ⟨now, op⟩ v' ⟨hwf, hI⟩ - hv'
  simp only [vault] at hv'
  split at hv'
  · cases hv'
    have hpath := apply_path rt hwf now op
    refine ⟨hpath.wellFormed hwf, hpath.slice_invariant (I := fun _ σ => σ.Guarded) ?_ hwf hI⟩
    intro s' c k σ' hs' hσ' hIc _ hst
    exact hIc.step (hs'.slice c) hσ' hst
  · simp at hv'

/-- The version an active rotation supersedes. -/
def Store.Supersedes (s : Store) (id : ℕ) : Prop :=
  ∃ r ∈ s.rotations, r.isActive = true ∧ r.previousVersionId = id

instance (s : Store) (id : ℕ) : Decidable (s.Supersedes id) :=
  inferInstanceAs (Decidable (∃ r ∈ s.rotations, _))

/-- What a history holds is what the rotations of the store supersede. -/
lemma supersedes_iff {s : Store} (h : s.WellFormed) {v : CredentialVersion} (hv : v ∈ s.versions) :
    s.Supersedes v.id ↔ (s.slice v.credentialId).held = some v.id := by
  rw [Slice.held_eq_some_iff (h.slice _)]
  constructor
  · rintro ⟨r, hr, hact, hid⟩
    obtain ⟨p, hp, -, -, hpid, -, hpc, -, -⟩ := h.rotations_linked r hr
    rw [h.version_eq hp hv (hpid.trans hid)] at hpc
    exact ⟨r.link, mem_slice_rotations.mpr ⟨r, hr, hpc.symm, rfl⟩, hact, hid⟩
  · rintro ⟨l, hl, hact, hid⟩
    obtain ⟨r, hr, -, rfl⟩ := mem_slice_rotations.mp hl
    exact ⟨r, hr, hact, hid⟩

/-- **A version is locked for a reason, and only as long as there is one**: along
every run, an unpurged version carries the retention lock exactly when an active
rotation supersedes it or a break-glass overlap is on it. So no retention run
purges a version an active rotation supersedes, and once no rotation supersedes a
version and its overlap is over, the expiry job leaves it unlocked. -/
theorem locked_iff_protected {rt : Js.Runtime} {w v : VaultState} (hw : w.store.Historical)
    (h : (vault rt).Steps (fun _ _ => True) w v) :
    (∀ x ∈ v.store.versions, x.purgedAt = none →
      (x.rotationLockedAt ≠ none ↔
        v.store.Supersedes x.id ∨ x.breakGlassOverlapExpiresAt ≠ none)) ∧
    (∀ r ∈ v.store.rotations, r.isActive = true → ∀ now c k dryRun,
      ¬ Purges v.store (pruneCredentialVersions v.store now c k dryRun) r.previousVersionId) ∧
    ∀ x ∈ v.store.versions, x.purgedAt = none → ¬ v.store.Supersedes x.id →
      ∀ now, (∀ e, x.breakGlassOverlapExpiresAt = some e → e ≤ now) →
        ∀ y ∈ (expireOneVersion v.store now true x.id).versions, y.id = x.id →
          y.rotationLockedAt = none := by
  obtain ⟨hwf, hguard⟩ := steps_historical h hw
  have hlocked : ∀ x ∈ v.store.versions, x.purgedAt = none → (x.rotationLockedAt ≠ none ↔
      v.store.Supersedes x.id ∨ x.breakGlassOverlapExpiresAt ≠ none) := by
    intro x hx hxp
    rw [supersedes_iff hwf hx]
    exact (hguard x.credentialId).locked_iff x (mem_slice_versions.mpr ⟨hx, rfl⟩) hxp
  refine ⟨hlocked, fun r hr hact now c k dryRun hp => ?_, fun x hx hxp hfree now hover y hy hid => ?_⟩
  · obtain ⟨u, hu, huid⟩ := candidate_of_purges hwf hp
    obtain ⟨humem, hup, hulock⟩ := mem_ranking.mp (mem_purgeCandidates hu)
    have hus := (mem_slice_versions.mp humem).1
    exact (hlocked u hus hup).mpr (.inl ⟨r, hr, hact, huid.symm⟩) hulock
  · obtain ⟨u, hu, rfl⟩ := Db.mem_updateWhere.mp hy
    split
    · rfl
    · rename_i hexp
      rw [if_neg hexp] at hid
      obtain rfl := hwf.version_eq hu hx hid
      have hov : u.breakGlassOverlapExpiresAt = none := by
        cases hov : u.breakGlassOverlapExpiresAt with
        | none => rfl
        | some e => exact absurd (by simp [overlapExpired, hov, hover e hov]) hexp
      by_contra hne
      rcases (hlocked u hx hxp).mp hne with hsup | hne'
      · exact hfree hsup
      · exact hne' hov

/-- The staged credential above, taken over by a break-glass whose overlap lasts
one minute. -/
def breakGlassRun : List Timed :=
  stagedRun ++ [⟨4, .breakGlass true true ⟨9, 100, 1, 7, "urgent", "leak", 1, 0⟩⟩]

/-- The superseded version is locked during the overlap and free after it. -/
theorem locked_iff_protected_breakGlass :
    ∃ v, (vault .ascii).exec (fun _ _ => True) (vault .ascii).init breakGlassRun =
        some v ∧ ∃ x ∈ v.store.versions, x.purgedAt = none ∧ ¬ v.store.Supersedes x.id ∧
      x.rotationLockedAt ≠ none ∧ x.breakGlassOverlapExpiresAt = some 60004 ∧
      ∀ y ∈ (expireOneVersion v.store 60004 true x.id).versions, y.id = x.id →
        y.rotationLockedAt = none := by
  obtain ⟨v, hv, x, hx, hxp, hfree, hov⟩ := (vault .ascii).exists_of_exec (fun _ _ => True)
    (vault .ascii).init breakGlassRun (fun v => ∃ x ∈ v.store.versions,
      x.purgedAt = none ∧ ¬ v.store.Supersedes x.id ∧
        x.breakGlassOverlapExpiresAt = some 60004) (by decide)
  obtain ⟨hlocked, -, hexpired⟩ :=
    locked_iff_protected historical_empty (Run.System.steps_of_exec hv)
  refine ⟨v, hv, x, hx, hxp, hfree, ?_, hov, ?_⟩
  · exact (hlocked x hx hxp).mpr (.inr (by simp [hov]))
  · refine hexpired x hx hxp hfree 60004 fun e he => ?_
    rw [hov] at he
    exact (Option.some.inj he).ge

end ProjectVault
