import ProjectVault.Rotation.Served

/-!
Retention spares what is in use, as long as nothing is written beside an active
rotation and nothing is imported beside a readable version.
-/

namespace ProjectVault

open Js

namespace Slice

variable {σ : Slice} {now : ℕ}
variable {p row sv : CredentialVersion} {l : RotationLink}

/-- With no rotation active: the served version is the highest live one. -/
def Settled (σ : Slice) : Prop := ∀ sv, σ.Serves sv → sv.breakGlassOverlapExpiresAt = none ∧
  ∀ v ∈ σ.versions, v.isLive = true → v.versionNumber ≤ sv.versionNumber

/-- The version `n` is the highest of all, and nothing keeps it from being ranked. -/
structure OnTop (σ : Slice) (n : CredentialVersion) : Prop where
  mem : n ∈ σ.versions
  live : n.isLive = true
  unlocked : n.rotationLockedAt = none
  overlap : n.breakGlassOverlapExpiresAt = none
  highest : ∀ v ∈ σ.versions, v.versionNumber ≤ n.versionNumber

/-- The rotation `l` has staged the highest version; if a version is served, it is
the one `l` keeps locked. -/
def StagedBy (σ : Slice) (l : RotationLink) : Prop :=
  ∃ n p, σ.OnTop n ∧ n.id = l.newVersionId ∧ n.promotedAt = none ∧
    p ∈ σ.versions ∧ p.id = l.previousVersionId ∧
    (∀ v ∈ σ.versions, v.isLive = true → v.id ≠ n.id → v.versionNumber ≤ p.versionNumber) ∧
    ∀ sv, σ.Serves sv → sv = p ∧ p.rotationLockedAt ≠ none ∧
      p.breakGlassOverlapExpiresAt = none

/-- The rotation `l` has promoted the highest version, and it is served. -/
def PromotedBy (σ : Slice) (l : RotationLink) : Prop :=
  ∃ n, σ.OnTop n ∧ n.id = l.newVersionId ∧ σ.Serves n

/-- The served version and the active rotation, in step with the numbering. -/
structure Orderly (σ : Slice) : Prop where
  statuses : ∀ l ∈ σ.rotations, l.status ≠ .inProgress ∧ l.status ≠ .staleRecovery
  settled : σ.Quiet → σ.Settled
  staged : ∀ l ∈ σ.rotations, l.status = .staged → σ.StagedBy l
  promoted : ∀ l ∈ σ.rotations, l.status = .promoted → σ.PromotedBy l

/-! ### Which rotation is active -/

lemma Quiet.not_staged (hq : σ.Quiet) (hl : l ∈ σ.rotations) :
    l.status ≠ .staged := fun hst =>
  absurd (hq l hl) (by simp [isActive_of_staged hst])

lemma Quiet.not_promoted (hq : σ.Quiet) (hl : l ∈ σ.rotations) :
    l.status ≠ .promoted := fun hst =>
  absurd (hq l hl) (by simp [isActive_of_promoted hst])

lemma status_of_active (hsts : l.status ≠ .inProgress ∧ l.status ≠ .staleRecovery)
    (hact : l.isActive = true) :
    l.status = .staged ∨ l.status = .promoted := by
  simp only [RotationLink.isActive, activeRotationStatuses, decide_eq_true_eq, List.mem_cons,
    List.not_mem_nil, or_false] at hact
  tauto

lemma Orderly.cases (h : σ.Orderly) : σ.Quiet ∨
    (∃ l ∈ σ.rotations, l.status = .staged) ∨ ∃ l ∈ σ.rotations, l.status = .promoted := by
  by_cases hq : σ.Quiet
  · exact .inl hq
  · simp only [Quiet, not_forall, Bool.not_eq_false] at hq
    obtain ⟨l, hl, hact⟩ := hq
    rcases status_of_active (h.statuses l hl) hact with hst | hst
    · exact .inr (.inl ⟨l, hl, hst⟩)
    · exact .inr (.inr ⟨l, hl, hst⟩)

lemma orderly_of_quiet
    (hsts : ∀ l ∈ σ.rotations, l.status ≠ .inProgress ∧ l.status ≠ .staleRecovery)
    (hq : σ.Quiet) (hs : σ.Settled) : σ.Orderly :=
  ⟨hsts, fun _ => hs, fun _ hl hst => absurd hst (hq.not_staged hl),
    fun _ hl hst => absurd hst (hq.not_promoted hl)⟩

lemma orderly_of_staged (hwf : σ.WellFormed)
    (hsts : ∀ l ∈ σ.rotations, l.status ≠ .inProgress ∧ l.status ≠ .staleRecovery)
    (hl : l ∈ σ.rotations) (hst : l.status = .staged) (hs : σ.StagedBy l) :
    σ.Orderly := by
  refine ⟨hsts, fun hq => absurd hst (hq.not_staged hl), fun m hm hmst => ?_, fun m hm hmst => ?_⟩
  · rw [hwf.one_active m hm l hl (isActive_of_staged hmst) (isActive_of_staged hst)]
    exact hs
  · have heq := hwf.one_active m hm l hl (isActive_of_promoted hmst) (isActive_of_staged hst)
    rw [heq, hst] at hmst
    simp at hmst

lemma orderly_of_promoted (hwf : σ.WellFormed)
    (hsts : ∀ l ∈ σ.rotations, l.status ≠ .inProgress ∧ l.status ≠ .staleRecovery)
    (hl : l ∈ σ.rotations) (hst : l.status = .promoted) (hs : σ.PromotedBy l) : σ.Orderly := by
  refine ⟨hsts, fun hq => absurd hst (hq.not_promoted hl), fun m hm hmst => ?_, fun m hm hmst => ?_⟩
  · have heq := hwf.one_active m hm l hl (isActive_of_staged hmst) (isActive_of_promoted hst)
    rw [heq, hst] at hmst
    simp at hmst
  · rw [hwf.one_active m hm l hl (isActive_of_promoted hmst) (isActive_of_promoted hst)]
    exact hs

/-! ### What retention and expiry leave alone -/

/-- The served version is under no overlap. -/
lemma Orderly.served_overlap (h : σ.Orderly) (hwf : σ.WellFormed) (hsv : σ.Serves sv) :
    sv.breakGlassOverlapExpiresAt = none := by
  rcases h.cases with hq | ⟨l, hl, hst⟩ | ⟨l, hl, hst⟩
  · exact (h.settled hq sv hsv).1
  · obtain ⟨n, p, -, -, -, -, -, -, hserved⟩ := h.staged l hl hst
    obtain ⟨rfl, -, hov⟩ := hserved sv hsv
    exact hov
  · obtain ⟨n, hn, -, hserves⟩ := h.promoted l hl hst
    rw [hsv.eq hwf hserves]
    exact hn.overlap

lemma Orderly.onTop (h : σ.Orderly) (hwf : σ.WellFormed) (hl : l ∈ σ.rotations)
    (hact : l.isActive = true) {n : CredentialVersion} (hn : n ∈ σ.versions)
    (hid : n.id = l.newVersionId) : σ.OnTop n := by
  rcases status_of_active (h.statuses l hl) hact with hst | hst
  · obtain ⟨m, p, hm, hmid, -⟩ := h.staged l hl hst
    rw [hwf.version_eq hn hm.mem (hid.trans hmid.symm)]
    exact hm
  · obtain ⟨m, hm, hmid, -⟩ := h.promoted l hl hst
    rw [hwf.version_eq hn hm.mem (hid.trans hmid.symm)]
    exact hm

lemma OnTop.not_candidate {n : CredentialVersion} (hn : σ.OnTop n) (hwf : σ.WellFormed) (k : ℕ) :
    n ∉ σ.purgeCandidates k := by
  intro hcand
  obtain ⟨w, hw, hlt⟩ := exists_above hwf hcand
  have hle := hn.highest w (mem_ranking.mp hw).1
  omega

/-- The served version is never a candidate. -/
lemma Orderly.served_not_candidate (h : σ.Orderly) (hwf : σ.WellFormed) (hsv : σ.Serves sv) (k : ℕ)
    : sv ∉ σ.purgeCandidates k := by
  rcases h.cases with hq | ⟨l, hl, hst⟩ | ⟨l, hl, hst⟩
  · intro hcand
    obtain ⟨-, ha, -⟩ := isServable_iff.mp hsv.servable
    obtain ⟨w, hw, hwa, hlt⟩ := exists_live_above hwf hcand ha
    obtain ⟨hwmem, hwp, -⟩ := mem_ranking.mp hw
    have hle := (h.settled hq sv hsv).2 w hwmem (isLive_iff.mpr ⟨hwp, hwa⟩)
    omega
  · intro hcand
    obtain ⟨n, p, -, -, -, -, -, -, hserved⟩ := h.staged l hl hst
    obtain ⟨rfl, hlocked, -⟩ := hserved sv hsv
    exact hlocked (mem_ranking.mp (mem_purgeCandidates hcand)).2.2
  · obtain ⟨n, hn, -, hserves⟩ := h.promoted l hl hst
    rw [hsv.eq hwf hserves]
    exact hn.not_candidate hwf k

/-! ### One change -/

/-- A version promoted now and numbered above the others settles a history. -/
lemma settled_of_latest (hwf : σ.WellFormed) (hs : σ.Sound now) (hmem : row ∈ σ.versions)
    (hserv : row.isServable = true) (hp : row.promotedAt = some now)
    (hov : row.breakGlassOverlapExpiresAt = none)
    (hmax : ∀ v ∈ σ.versions, v.versionNumber ≤ row.versionNumber) : σ.Settled := by
  intro sv hsv
  rw [hsv.eq hwf (serves_of_latest hs hmem hserv hp hmax)]
  exact ⟨hov, fun v hv _ => hmax v hv⟩

lemma Next.servable (hrow : σ.Next row) (hp : row.promotedAt = some now) : row.isServable = true :=
  isServable_iff.mpr ⟨hrow.purgedAt, hrow.abandonedAt, by simp [hp]⟩

lemma Next.live (hrow : σ.Next row) : row.isLive = true :=
  isLive_iff.mpr ⟨hrow.purgedAt, hrow.abandonedAt⟩

lemma live_of_servable {v : CredentialVersion} (h : v.isServable = true) : v.isLive = true := by
  obtain ⟨hp, ha, -⟩ := isServable_iff.mp h
  exact isLive_iff.mpr ⟨hp, ha⟩

/-- In a settled history a rotation supersedes the served version. -/
lemma Settled.lockTarget_eq (h : σ.Settled) (hwf : σ.WellFormed) (hsv : σ.Serves sv)
    (hp : σ.lockTarget = some p) : p = sv := by
  have hpmem := List.mem_filter.mp (List.argmax_mem hp)
  have hle := (h sv hsv).2 p hpmem.1 hpmem.2
  have hge := List.le_of_mem_argmax
    (List.mem_filter.mpr ⟨hsv.mem, live_of_servable hsv.servable⟩) hp
  exact hwf.eq_of_number hpmem.1 hsv.mem (le_antisymm hle hge)

lemma Orderly.edit (h : σ.Orderly) (hs : σ.Sound now) (hq : σ.Quiet) (hrow : σ.Next row)
    (hp : row.promotedAt = some now) (hwf' : (σ.push row).WellFormed) :
    (σ.push row).Orderly := by
  refine orderly_of_quiet h.statuses hq (settled_of_latest hwf' (hs.push hrow (.inr hp))
    (mem_push.mpr (.inr rfl)) (hrow.servable hp) hp hrow.overlap fun v hv => ?_)
  rcases mem_push.mp hv with hv | rfl
  · exact le_of_lt (hrow.number_lt v hv)
  · exact le_rfl

/-- An import into a history without a readable version leaves it without one. -/
lemma Orderly.imported (h : σ.Orderly) (hq : σ.Quiet) (hnone : σ.served = none)
    (hp : row.promotedAt = none) : (σ.push row).Orderly := by
  refine orderly_of_quiet h.statuses hq fun sv hsv => ?_
  rcases mem_push.mp hsv.mem with hmem | rfl
  · have hf := served_eq_none_iff.mp hnone sv hmem
    rw [hsv.servable] at hf
    simp at hf
  · exact absurd hp (isServable_iff.mp hsv.servable).2.2

lemma Orderly.stage (h : σ.Orderly) (hwf : σ.WellFormed) (hq : σ.Quiet) {id : ℕ}
    (hp : σ.lockTarget = some p) (hrow : σ.Next row) (hprom : row.promotedAt = none)
    (hwf' : (((σ.push row).updateVersion p.id fun v => { v with rotationLockedAt := some now
      }).pushRotation ⟨id, p.id, row.id, .staged⟩).WellFormed) :
    (((σ.push row).updateVersion p.id fun v => { v with rotationLockedAt := some now
      }).pushRotation ⟨id, p.id, row.id, .staged⟩).Orderly := by
  have hpmem := (List.mem_filter.mp (List.argmax_mem hp)).1
  have hmem := fun x => hwf.mem_install (x := x) hpmem hrow
    (f := fun v => { v with rotationLockedAt := some now })
  refine orderly_of_staged hwf' (fun l hl => ?_) (mem_pushRotation.mpr (.inr rfl)) rfl
    ⟨row, { p with rotationLockedAt := some now }, ⟨(hmem _).mpr (.inr (.inr rfl)), hrow.live,
      hrow.unlocked, hrow.overlap, fun v hv => ?_⟩, rfl, hprom, (hmem _).mpr (.inr (.inl rfl)), rfl,
      fun v hv hlive hne => ?_, fun sv hsv => ?_⟩
  · rcases mem_pushRotation.mp hl with hl | rfl
    · exact h.statuses l hl
    · simp
  · rcases (hmem v).mp hv with ⟨hv, -⟩ | rfl | rfl
    · exact le_of_lt (hrow.number_lt v hv)
    · exact le_of_lt (hrow.number_lt p hpmem)
    · exact le_rfl
  · rcases (hmem v).mp hv with ⟨hv, -⟩ | rfl | rfl
    · have hle := List.le_of_mem_argmax (List.mem_filter.mpr ⟨hv, hlive⟩) hp
      exact hle
    · exact le_rfl
    · exact absurd rfl hne
  · -- a version served now was readable before, so one was served, and it is `p`
    have hold : ∃ v ∈ σ.versions, v.isServable = true := by
      rcases (hmem sv).mp hsv.mem with ⟨hv, -⟩ | rfl | rfl
      · exact ⟨sv, hv, hsv.servable⟩
      · exact ⟨p, hpmem, hsv.servable⟩
      · exact absurd hprom (isServable_iff.mp hsv.servable).2.2
    obtain ⟨v, hv, hvs⟩ := hold
    obtain ⟨sv', hsv'⟩ := exists_serves hv hvs
    obtain rfl := (h.settled hq).lockTarget_eq hwf hsv' hp
    refine ⟨hsv.eq hwf' ⟨(hmem _).mpr (.inr (.inl rfl)), hsv'.servable, fun w hw hws => ?_⟩,
      by simp, (h.settled hq p hsv').1⟩
    rcases (hmem w).mp hw with ⟨hw, -⟩ | rfl | rfl
    · exact hsv'.le w hw hws
    · exact le_rfl
    · exact absurd hprom (isServable_iff.mp hws).2.2

lemma Orderly.breakGlass (h : σ.Orderly) (hs : σ.Sound now) (hwf : σ.WellFormed) (hq : σ.Quiet)
    {id expiresAt : ℕ} (hp : σ.lockTarget = some p) (hrow : σ.Next row)
    (hprom : row.promotedAt = some now) (hwf' : (((σ.push row).updateVersion p.id fun v =>
      { v with rotationLockedAt := some now, breakGlassOverlapExpiresAt := some expiresAt
        }).pushRotation ⟨id, p.id, row.id, .breakGlassComplete⟩).WellFormed) :
    (((σ.push row).updateVersion p.id fun v =>
      { v with rotationLockedAt := some now, breakGlassOverlapExpiresAt := some expiresAt
        }).pushRotation ⟨id, p.id, row.id, .breakGlassComplete⟩).Orderly := by
  have hpmem := (List.mem_filter.mp (List.argmax_mem hp)).1
  have hmem := fun x => hwf.mem_install (x := x) hpmem hrow
    (f := fun v => { v with rotationLockedAt := some now,
                            breakGlassOverlapExpiresAt := some expiresAt })
  refine orderly_of_quiet (fun l hl => ?_) (fun l hl => ?_) (settled_of_latest hwf'
    (hs.step (.breakGlass hq hp hrow hprom)) ((hmem _).mpr (.inr (.inr rfl)))
    (hrow.servable hprom) hprom hrow.overlap fun v hv => ?_)
  · rcases mem_pushRotation.mp hl with hl | rfl
    · exact h.statuses l hl
    · simp
  · rcases mem_pushRotation.mp hl with hl | rfl
    · exact hq l hl
    · rfl
  · rcases (hmem v).mp hv with ⟨hv, -⟩ | rfl | rfl
    · exact le_of_lt (hrow.number_lt v hv)
    · exact le_of_lt (hrow.number_lt p hpmem)
    · exact le_rfl

/-- The statuses after one rotation has moved. -/
lemma Orderly.statuses_move (h : σ.Orderly) (hwf : σ.WellFormed) (hl : l ∈ σ.rotations)
    {status : RotationStatus} (hst : status ≠ .inProgress ∧ status ≠ .staleRecovery) :
    ∀ m ∈ (σ.setStatus l.id status).rotations,
      m.status ≠ .inProgress ∧ m.status ≠ .staleRecovery := by
  intro m hm
  rcases (hwf.mem_move hl status).mp hm with ⟨hm, -⟩ | rfl
  · exact h.statuses m hm
  · exact hst

/-- Ending the active rotation leaves no rotation active. -/
lemma WellFormed.quiet_move (hwf : σ.WellFormed) (hl : l ∈ σ.rotations) (hact : l.isActive = true)
    {status : RotationStatus} (hst : status ∉ activeRotationStatuses) :
    (σ.setStatus l.id status).Quiet := by
  intro m hm
  rcases (hwf.mem_move hl status).mp hm with ⟨hm, hid⟩ | rfl
  · by_contra hne
    exact hid (hwf.eq_of_active hl hm hact (by simpa using hne))
  · simpa [RotationLink.isActive] using hst

lemma Orderly.promote (h : σ.Orderly) (hs : σ.Sound now) (hwf : σ.WellFormed) (hl : l ∈ σ.rotations)
    (hst : l.status = .staged)
    (hwf' : ((σ.setStatus l.id .promoted).updateVersion l.newVersionId fun v =>
      { v with promotedAt := some now }).WellFormed) :
    ((σ.setStatus l.id .promoted).updateVersion l.newVersionId fun v =>
      { v with promotedAt := some now }).Orderly := by
  have hs' := hs.step (Step.promote hl hst)
  obtain ⟨n, p, hn, hnid, -⟩ := h.staged l hl hst
  rw [← hnid] at hwf' hs' ⊢
  have hmem := fun x => hwf.mem_update (x := x) (setStatus_versions σ l.id .promoted) hn.mem
    (f := fun v => { v with promotedAt := some now })
  have hmax : ∀ v ∈ (((σ.setStatus l.id .promoted).updateVersion n.id fun v =>
      { v with promotedAt := some now }) : Slice).versions,
      v.versionNumber ≤ n.versionNumber := fun v hv => by
    rcases (hmem v).mp hv with ⟨hv, -⟩ | rfl
    · exact hn.highest v hv
    · exact le_rfl
  have hself := (hmem _).mpr (.inr rfl)
  obtain ⟨hpur, hab⟩ := isLive_iff.mp hn.live
  have hserves := serves_of_latest hs' hself (isServable_iff.mpr ⟨hpur, hab, by simp⟩) rfl hmax
  exact orderly_of_promoted hwf' (h.statuses_move hwf hl (by simp))
    ((hwf.mem_move hl .promoted).mpr (.inr rfl)) rfl
    ⟨_, ⟨hself, hn.live, hn.unlocked, hn.overlap, hmax⟩, hnid, hserves⟩

lemma Orderly.retire (h : σ.Orderly) (hwf : σ.WellFormed) (hl : l ∈ σ.rotations)
    (hst : l.status = .promoted)
    (hwf' : ((σ.setStatus l.id .retired).updateVersion l.previousVersionId
      (purgeUnlessPurged now)).WellFormed) :
    ((σ.setStatus l.id .retired).updateVersion l.previousVersionId
      (purgeUnlessPurged now)).Orderly := by
  obtain ⟨n, hn, hnid, hserves⟩ := h.promoted l hl hst
  obtain ⟨p, hp, m, hm, hpid, hmid, hlt⟩ := hwf.rotations_linked l hl
  obtain rfl := hwf.version_eq hn.mem hm (hnid.trans hmid.symm)
  rw [← hpid] at hwf' ⊢
  have hmem := fun x => hwf.mem_update (x := x) (setStatus_versions σ l.id .retired) hp
    (f := purgeUnlessPurged now)
  have hpurged : (purgeUnlessPurged now p).purgedAt ≠ none := by
    unfold purgeUnlessPurged
    split
    · simp
    · assumption
  have hne : n.id ≠ p.id := fun he => by
    rw [hwf.version_eq hn.mem hp he] at hlt
    exact lt_irrefl _ hlt
  have hserves' : Serves _ n := ⟨(hmem n).mpr (.inl ⟨hn.mem, hne⟩), hserves.servable,
    fun v hv hvs => by
      rcases (hmem v).mp hv with ⟨hv, -⟩ | rfl
      · exact hserves.le v hv hvs
      · exact absurd (isServable_iff.mp hvs).1 hpurged⟩
  refine orderly_of_quiet (h.statuses_move hwf hl (by simp))
    (hwf.quiet_move hl (isActive_of_promoted hst) (by decide)) fun sv hsv => ?_
  rw [hsv.eq hwf' hserves']
  refine ⟨hn.overlap, fun v hv hlive => ?_⟩
  rcases (hmem v).mp hv with ⟨hv, -⟩ | rfl
  · exact hn.highest v hv
  · exact absurd (isLive_iff.mp hlive).1 hpurged

lemma Orderly.abandon (h : σ.Orderly) (hwf : σ.WellFormed) (hl : l ∈ σ.rotations)
    (hact : l.isActive = true) (hst : l.status ≠ .promoted)
    (hwf' : (((σ.setStatus l.id .abandoned).updateVersion l.newVersionId fun v =>
      { v with abandonedAt := some now }).updateVersion l.previousVersionId fun v =>
        { v with rotationLockedAt := none }).WellFormed) :
    (((σ.setStatus l.id .abandoned).updateVersion l.newVersionId fun v =>
      { v with abandonedAt := some now }).updateVersion l.previousVersionId fun v =>
        { v with rotationLockedAt := none }).Orderly := by
  have hstaged := (status_of_active (h.statuses l hl) hact).resolve_right hst
  obtain ⟨n, p, hn, hnid, hprom, hp, hpid, hbelow, hserved⟩ := h.staged l hl hstaged
  obtain ⟨p', hp', n', hn', hpid', hnid', hlt⟩ := hwf.rotations_linked l hl
  obtain rfl := hwf.version_eq hp hp' (hpid.trans hpid'.symm)
  obtain rfl := hwf.version_eq hn.mem hn' (hnid.trans hnid'.symm)
  have hpn : p.id ≠ n.id := fun he => by
    rw [hwf.version_eq hp hn.mem he] at hlt
    exact lt_irrefl _ hlt
  rw [← hpid, ← hnid] at hwf' ⊢
  have hmem := fun x => hwf.mem_update_update (x := x) (setStatus_versions σ l.id .abandoned)
    hn.mem hp hpn (f := fun v => { v with abandonedAt := some now })
    (g := fun v => { v with rotationLockedAt := none }) rfl
  refine orderly_of_quiet (h.statuses_move hwf hl (by simp))
    (hwf.quiet_move hl hact (by decide)) fun sv hsv => ?_
  have hold : ∃ v ∈ σ.versions, v.isServable = true := by
    rcases (hmem sv).mp hsv.mem with ⟨hv, -⟩ | rfl | rfl
    · exact ⟨sv, hv, hsv.servable⟩
    · exact absurd hsv.servable (by simp [isServable_iff])
    · exact ⟨p, hp, hsv.servable⟩
  obtain ⟨v, hv, hvs⟩ := hold
  obtain ⟨sv', hsv'⟩ := exists_serves hv hvs
  obtain ⟨rfl, -, hov⟩ := hserved sv' hsv'
  have hserves : Serves _ { sv' with rotationLockedAt := none } :=
    ⟨(hmem _).mpr (.inr (.inr rfl)), hsv'.servable, fun w hw hws => by
      rcases (hmem w).mp hw with ⟨hw, -⟩ | rfl | rfl
      · exact hsv'.le w hw hws
      · simp [isServable_iff] at hws
      · exact le_rfl⟩
  rw [hsv.eq hwf' hserves]
  refine ⟨hov, fun w hw hlive => ?_⟩
  rcases (hmem w).mp hw with ⟨hw, hwn, -⟩ | rfl | rfl
  · exact hbelow w hw hlive hwn
  · simp [isLive_iff] at hlive
  · exact le_rfl

/-- A change in place that spares the served version and the new version of an
active rotation. -/
lemma Orderly.map (h : σ.Orderly)
    {g : CredentialVersion → CredentialVersion} (hshape : ∀ v, (g v).shape = v.shape)
    (hprom : ∀ v, (g v).promotedAt = v.promotedAt)
    (hlive : ∀ v, (g v).isLive = true → v.isLive = true)
    (hserved : ∀ sv, σ.Serves sv → g sv = sv)
    (hnew : ∀ l ∈ σ.rotations, l.isActive = true → ∀ n ∈ σ.versions, n.id = l.newVersionId →
      g n = n) (hwf' : (⟨σ.versions.map g, σ.rotations⟩ : Slice).WellFormed) :
    (⟨σ.versions.map g, σ.rotations⟩ : Slice).Orderly := by
  have hid : ∀ v, (g v).id = v.id := fun v => congrArg Prod.fst (hshape v)
  have hnum : ∀ v, (g v).versionNumber = v.versionNumber := fun v =>
    congrArg (fun x => x.2.2) (hshape v)
  have hkey : ∀ v ∈ σ.versions, (g v).currentKey = v.currentKey := fun v _ => by
    rw [CredentialVersion.currentKey, CredentialVersion.currentKey, hnum, hprom]
  have hserv : ∀ v ∈ σ.versions, (g v).isServable = true → v.isServable = true := fun v _ hv => by
    obtain ⟨hp, ha⟩ := isLive_iff.mp (hlive v (live_of_servable hv))
    exact isServable_iff.mpr ⟨hp, ha, by rw [← hprom v]; exact (isServable_iff.mp hv).2.2⟩
  -- what is served after the change was served before it
  have hback : ∀ sv, Serves ⟨σ.versions.map g, σ.rotations⟩ sv → σ.Serves sv := fun sv hsv => by
    obtain ⟨sv', hsv'⟩ := Serves.of_shrink hserv hsv
    rw [hsv.eq hwf' (hsv'.shrink hkey hserv (hserved sv' hsv'))]
    exact hsv'
  have hbound : ∀ {N : ℕ} {P : CredentialVersion → Prop}, (∀ v ∈ σ.versions, P v →
      v.versionNumber ≤ N) → (∀ v, P (g v) → P v) → ∀ x ∈ σ.versions.map g, P x →
      x.versionNumber ≤ N := fun {N P} hN hP x hx hPx => by
    obtain ⟨v, hv, rfl⟩ := List.mem_map.mp hx
    rw [hnum]
    exact hN v hv (hP v hPx)
  have htop : ∀ n, σ.OnTop n → g n = n → OnTop ⟨σ.versions.map g, σ.rotations⟩ n :=
    fun n hn hgn => ⟨List.mem_map.mpr ⟨n, hn.mem, hgn⟩, hn.live, hn.unlocked, hn.overlap,
      fun x hx => hbound (P := fun _ => True) (fun v hv _ => hn.highest v hv) (fun _ h => h) x hx
        trivial⟩
  refine ⟨h.statuses, fun hq sv hsv => ?_, fun l hl hst => ?_, fun l hl hst => ?_⟩
  · obtain ⟨hov, hle⟩ := h.settled hq sv (hback sv hsv)
    exact ⟨hov, hbound hle hlive⟩
  · obtain ⟨n, p, hn, hnid, hnp, hp, hpid, hbelow, hsv⟩ := h.staged l hl hst
    refine ⟨n, g p, htop n hn (hnew l hl (isActive_of_staged hst) n hn.mem hnid), hnid, hnp,
      List.mem_map_of_mem hp, (hid p).trans hpid, fun x hx hxl hxn => ?_, fun sv hs => ?_⟩
    · rw [hnum]
      exact hbound (P := fun v => v.isLive = true ∧ v.id ≠ n.id)
        (fun v hv hP => hbelow v hv hP.1 hP.2) (fun v hP => ⟨hlive v hP.1, hid v ▸ hP.2⟩) x hx
        ⟨hxl, hxn⟩
    · obtain ⟨rfl, hlock, hov⟩ := hsv sv (hback sv hs)
      rw [hserved sv (hback sv hs)]
      exact ⟨rfl, hlock, hov⟩
  · obtain ⟨n, hn, hnid, hserves⟩ := h.promoted l hl hst
    exact ⟨n, htop n hn (hserved n hserves), hnid, hserves.shrink hkey hserv (hserved n hserves)⟩

/-- The end of an overlap concerns superseded versions only. -/
lemma Orderly.expire (h : σ.Orderly) (hwf : σ.WellFormed) (id : ℕ)
    (hwf' : (⟨Db.updateWhere (fun v => decide (v.id = id) && overlapExpired now v)
      (fun v => { v with rotationLockedAt := none, breakGlassOverlapExpiresAt := none })
      σ.versions, σ.rotations⟩ : Slice).WellFormed) :
    (⟨Db.updateWhere (fun v => decide (v.id = id) && overlapExpired now v)
      (fun v => { v with rotationLockedAt := none, breakGlassOverlapExpiresAt := none })
      σ.versions, σ.rotations⟩ : Slice).Orderly := by
  refine h.map (fun v => ?_) (fun v => ?_) (fun v hv => ?_) (fun sv hsv => ?_)
    (fun l hl hact n hn hid => ?_) hwf'
  · split <;> rfl
  · split <;> rfl
  · split at hv <;> exact hv
  · rw [if_neg]
    simp [overlapExpired, h.served_overlap hwf hsv]
  · rw [if_neg]
    simp [overlapExpired, (h.onTop hwf hl hact hn hid).overlap]

/-- A version whose key is a candidate's is the candidate. -/
lemma candidate_of_id (hwf : σ.WellFormed) {v : CredentialVersion} (hv : v ∈ σ.versions) {k : ℕ}
    (hid : v.id ∈ (σ.purgeCandidates k).map CredentialVersion.id) : v ∈ σ.purgeCandidates k := by
  obtain ⟨w, hw, hwid⟩ := List.mem_map.mp hid
  rw [hwf.version_eq hv (mem_ranking.mp (mem_purgeCandidates hw)).1 hwid.symm]
  exact hw

/-- Retention purges nothing in use. -/
lemma Orderly.prune (h : σ.Orderly) (hwf : σ.WellFormed) (k : ℕ)
    (hwf' : (⟨Db.updateWhere (fun v => v.id ∈ (σ.purgeCandidates k).map CredentialVersion.id)
      (CredentialVersion.purge now) σ.versions, σ.rotations⟩ : Slice).WellFormed) :
    (⟨Db.updateWhere (fun v => v.id ∈ (σ.purgeCandidates k).map CredentialVersion.id)
      (CredentialVersion.purge now) σ.versions, σ.rotations⟩ : Slice).Orderly := by
  refine h.map (fun v => ?_) (fun v => ?_) (fun v hv => ?_) (fun sv hsv => ?_)
    (fun l hl hact n hn hid => ?_) hwf'
  · split <;> rfl
  · split <;> rfl
  · split at hv
    · simp [isLive_iff, CredentialVersion.purge] at hv
    · exact hv
  · rw [if_neg]
    simp only [decide_eq_true_eq]
    exact fun hid => h.served_not_candidate hwf hsv k (candidate_of_id hwf hsv.mem hid)
  · rw [if_neg]
    simp only [decide_eq_true_eq]
    exact fun hid' => (h.onTop hwf hl hact hn hid).not_candidate hwf k
      (candidate_of_id hwf hn hid')

/-- The changes retention copes with: an edit while no rotation is active, and an
item of an import while moreover nothing is readable. -/
def Spared (σ : Slice) : Change → Prop
  | .edit => σ.Quiet
  | .imported => σ.Quiet ∧ σ.served = none
  | _ => True

/-- **Step lemma**: every admitted change keeps the history orderly. -/
lemma Orderly.step {σ' : Slice} {k : Change} (h : σ.Orderly) (hs : σ.Sound now)
    (hwf : σ.WellFormed) (hwf' : σ'.WellFormed) (hk : σ.Spared k) (hstep : Step now σ k σ') :
    σ'.Orderly := by
  cases hstep with
  | edit hrow hp => exact h.edit hs hk hrow hp hwf'
  | imported hrow hp => exact h.imported hk.1 hk.2 hp
  | stage hq hp hrow hprom => exact h.stage hwf hq hp hrow hprom hwf'
  | promote hl hst => exact h.promote hs hwf hl hst hwf'
  | retire hl hst => exact h.retire hwf hl hst hwf'
  | complete hl hst => exact absurd hst (h.statuses _ hl).1
  | resume hl hst => exact absurd hst (h.statuses _ hl).2
  | recover hl hst => exact absurd hst (h.statuses _ hl).1
  | abandon hl hact hst => exact h.abandon hwf hl hact hst hwf'
  | breakGlass hq hp hrow hprom => exact h.breakGlass hs hwf hq hp hrow hprom hwf'
  | expire id => exact h.expire hwf id hwf'
  | prune k => exact h.prune hwf k hwf'

lemma orderly_empty : Slice.empty.Orderly :=
  orderly_of_quiet (by simp [Slice.empty]) (by simp [Quiet, Slice.empty])
    fun sv hsv => absurd hsv.mem (by simp [Slice.empty])

end Slice

/-! ### Runs -/

/-- The credential an edit adds a version to. -/
def Op.editTargets : Op → List ℕ
  | .addVersion input => [input.credentialId]
  | _ => []

/-- The existing credentials an import adds a version to. -/
def Op.importTargets (s : Store) (now : ℕ) : Op → List ℕ
  | .confirmImport input => (writtenItems s now input).filterMap fun item =>
    if resolveImportAction item input.defaultAction input.overrides = .newVersion then
      item.conflictsWith
    else none
  | _ => []

/-- Transactions that edit no credential with an active rotation, and import no
new version into a credential that has one or that has a readable version. -/
def RetentionSafe (v : VaultState) (t : Timed) : Prop :=
  (∀ c ∈ t.op.editTargets, (v.store.slice c).Quiet) ∧
    ∀ c ∈ t.op.importTargets v.store t.now,
      (v.store.slice c).Quiet ∧ (v.store.slice c).served = none

instance (v : VaultState) (t : Timed) : Decidable (RetentionSafe v t) :=
  inferInstanceAs (Decidable (_ ∧ _))

lemma quiet_congr {σ τ : Slice} (h : τ.rotations = σ.rotations) (hq : σ.Quiet) : τ.Quiet := by
  intro l hl
  rw [h] at hl
  exact hq l hl

/-- An admitted transaction causes admitted changes only. -/
lemma RetentionSafe.spared {v : VaultState} {t : Timed} {s : Store} {c : ℕ} {k : Slice.Change}
    (h : RetentionSafe v t) (he : t.op.Emits v.store t.now s c k) : (s.slice c).Spared k := by
  obtain ⟨now, op⟩ := t
  cases op with
  | createCredential input =>
    obtain ⟨rfl, hempty⟩ := he
    rw [hempty]
    simp [Slice.Spared, Slice.Quiet, Slice.empty]
  | addVersion input =>
    obtain ⟨rfl, rfl, rfl⟩ := he
    exact h.1 _ (by simp [Op.editTargets])
  | confirmImport input =>
    obtain ⟨rfl, hag, item, hitem, hwhere⟩ := he
    have hkey : (v.store.slice c).Quiet ∧ (v.store.slice c).served = none := by
      rcases hwhere with hempty | ⟨hact, hconf⟩
      · rw [hempty]
        exact ⟨by simp [Slice.Quiet, Slice.empty], rfl⟩
      · exact h.2 c (List.mem_filterMap.mpr ⟨item, hitem, by rw [if_pos hact, hconf]⟩)
    exact ⟨quiet_congr (hag.rotations c) hkey.1, (hag.served c).trans hkey.2⟩
  | promote locked params ack =>
    obtain ⟨r, -, -, -, -, rfl⟩ := he
    trivial
  | _ => cases k <;> trivial

/-- **Run lemma**: in admitted runs every history is orderly. -/
lemma reachable_orderly {rt : Runtime} {v : VaultState}
    (h : (vault rt).Reaches RetentionSafe v) :
    v.store.WellFormed ∧ ∀ c, (v.store.slice c).Orderly := by
  obtain ⟨hwf, hI⟩ := slice_invariant (I := fun t σ => σ.Orderly ∧ σ.Sound t)
    (G := fun _ σ k => σ.Spared k)
    ⟨Slice.orderly_empty, fun v hv => by simp [Slice.empty] at hv⟩
    (fun _ _ _ ht hI => ⟨hI.1, hI.2.mono ht⟩) (fun _ _ hok _ _ _ he => hok.spared he)
    (fun _ _ _ _ hwf hwf' hI hk hst => ⟨hI.1.step hI.2 hwf hwf' hk hst, hI.2.step hst⟩) h
  exact ⟨hwf, fun c => (hI c).1⟩

/-- The version `id` is purged between two stores. -/
def Purges (s s' : Store) (id : ℕ) : Prop :=
  (∃ v ∈ s.versions, v.id = id ∧ v.purgedAt = none) ∧
    ∃ v ∈ s'.versions, v.id = id ∧ v.purgedAt ≠ none

instance (s s' : Store) (id : ℕ) : Decidable (Purges s s' id) :=
  inferInstanceAs (Decidable (_ ∧ _))

lemma candidate_of_purges {s : Store} (h : s.WellFormed) {now c k id : ℕ} {dryRun : Bool}
    (hp : Purges s (pruneCredentialVersions s now c k dryRun) id) :
    ∃ w ∈ (s.slice c).purgeCandidates k, w.id = id := by
  obtain ⟨⟨v, hv, hvid, hvp⟩, x, hx, hxid, hxp⟩ := hp
  cases dryRun with
  | true =>
    rw [h.version_eq hx hv (hxid.trans hvid.symm)] at hxp
    exact absurd hvp hxp
  | false =>
    rw [pruneCredentialVersions_eq h] at hx
    obtain ⟨w, hw, rfl⟩ := Db.mem_updateWhere.mp hx
    split at hxp
    · rename_i hcand
      obtain ⟨u, hu, huid⟩ := List.mem_map.mp (of_decide_eq_true hcand)
      rw [if_pos hcand] at hxid
      exact ⟨u, hu, huid.trans hxid⟩
    · rename_i hcand
      rw [if_neg hcand] at hxid
      rw [h.version_eq hw hv (hxid.trans hvid.symm)] at hxp
      exact absurd hvp hxp

/-- A credential whose second version is staged. -/
def stagedRun : List Timed :=
  createdRun ++ [⟨3, .initiate true ⟨9, 100, 1, 7, ⟨"next", none, none, none, none⟩⟩⟩]

/-- The staged credential above, edited before its rotation is promoted. -/
def editedThenPromotedRun : List Timed :=
  stagedRun ++
    [⟨4, .addVersion ⟨9, 1, 100, 7, .value (some "edited")⟩⟩,
     ⟨5, .promote true ⟨9, 100, 1, 4⟩ ⟨true, true⟩⟩]

end ProjectVault
