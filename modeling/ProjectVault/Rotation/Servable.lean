import ProjectVault.Rotation.Reachable

/-!
A credential with a version does not lose its last readable value, as long as
nothing is imported.
-/

namespace ProjectVault

open Js

namespace Slice

variable {row v : CredentialVersion} {l : RotationLink}

/-- The version `hd` is readable, no readable version is numbered above it, and
the rotations are in a state that cannot take it away. -/
structure Holds (σ : Slice) (hd : CredentialVersion) : Prop where
  mem : hd ∈ σ.versions
  servable : hd.isServable = true
  highest : ∀ v ∈ σ.versions, v.isServable = true → v.versionNumber ≤ hd.versionNumber
  overlap : hd.breakGlassOverlapExpiresAt = none
  unpromoted_overlap : ∀ v ∈ σ.versions, v.promotedAt = none →
    v.breakGlassOverlapExpiresAt = none
  statuses : ∀ l ∈ σ.rotations, l.status ≠ .inProgress ∧ l.status ≠ .staleRecovery
  unpromoted : ∀ v ∈ σ.versions, v.isLive = true → v.promotedAt = none →
    ∃ l ∈ σ.rotations, l.status = .staged ∧ l.newVersionId = v.id
  staged : ∀ l ∈ σ.rotations, l.status = .staged → ∀ n ∈ σ.versions, n.id = l.newVersionId →
    n.abandonedAt = none ∧ n.promotedAt = none ∧
      (n.purgedAt ≠ none → n.versionNumber < hd.versionNumber) ∧
      (hd.versionNumber < n.versionNumber →
        hd.id = l.previousVersionId ∧ hd.rotationLockedAt ≠ none)
  promoted : ∀ l ∈ σ.rotations, l.status = .promoted → ∀ p ∈ σ.versions,
    p.id = l.previousVersionId → p.versionNumber < hd.versionNumber

variable {σ : Slice} {hd : CredentialVersion} {now : ℕ}

lemma isLive_iff :
    v.isLive = true ↔ v.purgedAt = none ∧ v.abandonedAt = none := by
  simp [CredentialVersion.isLive]

lemma isServable_iff :
    v.isServable = true ↔ v.purgedAt = none ∧ v.abandonedAt = none ∧ v.promotedAt ≠ none := by
  simp [CredentialVersion.isServable, Option.isSome_iff_ne_none, and_assoc]

lemma isActive_of_staged (h : l.status = .staged) : l.isActive = true := by
  simp [RotationLink.isActive, h, activeRotationStatuses]

lemma isActive_of_promoted (h : l.status = .promoted) : l.isActive = true := by
  simp [RotationLink.isActive, h, activeRotationStatuses]

/-- With no rotation staged, every live version is readable. -/
lemma Holds.servable_of_live (h : σ.Holds hd) (hq : σ.Quiet) (hv : v ∈ σ.versions)
    (hl : v.isLive = true) : v.isServable = true := by
  obtain ⟨hp, ha⟩ := isLive_iff.mp hl
  refine isServable_iff.mpr ⟨hp, ha, fun hprom => ?_⟩
  obtain ⟨l, hl', hst, -⟩ := h.unpromoted v hv hl hprom
  exact absurd (hq l hl') (by simp [isActive_of_staged hst])

/-- With no rotation active, the version a rotation supersedes is the highest
readable one. -/
lemma Holds.lockTarget_eq (h : σ.Holds hd) (hwf : σ.WellFormed) (hq : σ.Quiet)
    {p : CredentialVersion} (hp : σ.lockTarget = some p) : p = hd := by
  have hlive : hd.isLive = true := by
    obtain ⟨h1, h2, -⟩ := isServable_iff.mp h.servable
    exact isLive_iff.mpr ⟨h1, h2⟩
  have hpmem := List.mem_filter.mp (List.argmax_mem hp)
  have hle := h.highest p hpmem.1 (h.servable_of_live hq hpmem.1 hpmem.2)
  have hge := List.le_of_mem_argmax (List.mem_filter.mpr ⟨h.mem, hlive⟩) hp
  exact hwf.eq_of_number hpmem.1 h.mem (le_antisymm hle hge)

/-- A readable version on top of the others; `g` marks the rows below it. -/
lemma holds_push (hwf : σ.WellFormed) (hrow : σ.Next row) (hp : row.promotedAt = some now)
    (hov : ∀ v ∈ σ.versions, v.promotedAt = none → v.breakGlassOverlapExpiresAt = none)
    (hsts : ∀ l ∈ σ.rotations, l.status ≠ .inProgress ∧ l.status ≠ .staleRecovery)
    (hun : ∀ v ∈ σ.versions, v.isLive = true → v.promotedAt = none →
      ∃ l ∈ σ.rotations, l.status = .staged ∧ l.newVersionId = v.id)
    (hstaged : ∀ l ∈ σ.rotations, l.status = .staged → ∀ n ∈ σ.versions, n.id = l.newVersionId →
      n.abandonedAt = none ∧ n.promotedAt = none) : (σ.push row).Holds row where
  mem := mem_push.mpr (.inr rfl)
  servable := isServable_iff.mpr ⟨hrow.purgedAt, hrow.abandonedAt, by simp [hp]⟩
  highest := fun v hv _ => by
    rcases mem_push.mp hv with hv | rfl
    · exact le_of_lt (hrow.number_lt v hv)
    · exact le_rfl
  overlap := hrow.overlap
  unpromoted_overlap := fun v hv hprom => by
    rcases mem_push.mp hv with hv | rfl
    · exact hov v hv hprom
    · exact hrow.overlap
  statuses := hsts
  unpromoted := fun v hv hl hprom => by
    rcases mem_push.mp hv with hv | rfl
    · exact hun v hv hl hprom
    · simp [hp] at hprom
  staged := fun l hl hst n hn hid => by
    rcases mem_push.mp hn with hn | rfl
    · obtain ⟨ha, hpr⟩ := hstaged l hl hst n hn hid
      have hlt := hrow.number_lt n hn
      exact ⟨ha, hpr, fun _ => hlt, fun hgt => absurd hgt (by omega)⟩
    · exact absurd hid (hrow.ne_new hwf hl)
  promoted := fun l hl hst p hpm hid => by
    rcases mem_push.mp hpm with hpm | rfl
    · exact hrow.number_lt p hpm
    · exact absurd hid (hrow.ne_previous hwf hl)

lemma Holds.edit (h : σ.Holds hd) (hwf : σ.WellFormed) (hrow : σ.Next row)
    (hp : row.promotedAt = some now) : (σ.push row).Holds row :=
  holds_push hwf hrow hp h.unpromoted_overlap h.statuses h.unpromoted fun l hl hst n hn hid =>
    ⟨(h.staged l hl hst n hn hid).1, (h.staged l hl hst n hn hid).2.1⟩

/-- The locked version stays the highest readable one below a staged version. -/
lemma Holds.stage (h : σ.Holds hd) (hwf : σ.WellFormed) (hq : σ.Quiet) (hrow : σ.Next row)
    (hprom : row.promotedAt = none) (id : ℕ) :
    (((σ.push row).updateVersion hd.id fun v => { v with rotationLockedAt := some now
      }).pushRotation ⟨id, hd.id, row.id, .staged⟩).Holds
      { hd with rotationLockedAt := some now } := by
  have hnot : ∀ l ∈ σ.rotations, l.status ≠ .staged ∧ l.status ≠ .promoted := fun l hl =>
    ⟨fun hst => absurd (hq l hl) (by simp [isActive_of_staged hst]),
      fun hst => absurd (hq l hl) (by simp [isActive_of_promoted hst])⟩
  have hmem := fun x => hwf.mem_install (x := x) h.mem hrow
    (f := fun v => { v with rotationLockedAt := some now })
  refine ⟨(hmem _).mpr (.inr (.inl rfl)), h.servable, fun v hv hs => ?_, h.overlap,
    fun v hv hpv => ?_, fun l hl => ?_, fun v hv hl hpv => ?_, fun l hl hst n hn hid => ?_,
    fun l hl hst p hp hid => ?_⟩
  · rcases (hmem v).mp hv with ⟨hv, -⟩ | rfl | rfl
    · exact h.highest v hv hs
    · exact le_rfl
    · exact absurd hprom (isServable_iff.mp hs).2.2
  · rcases (hmem v).mp hv with ⟨hv, -⟩ | rfl | rfl
    · exact h.unpromoted_overlap v hv hpv
    · exact h.overlap
    · exact hrow.overlap
  · rcases mem_pushRotation.mp hl with hl | rfl
    · exact h.statuses l hl
    · simp
  · rcases (hmem v).mp hv with ⟨hv, -⟩ | rfl | rfl
    · obtain ⟨l, hl', hst, -⟩ := h.unpromoted v hv hl hpv
      exact absurd hst (hnot l hl').1
    · exact absurd hpv (isServable_iff.mp h.servable).2.2
    · exact ⟨_, mem_pushRotation.mpr (.inr rfl), rfl, rfl⟩
  · rcases mem_pushRotation.mp hl with hl | rfl
    · exact absurd hst (hnot l hl).1
    · rcases (hmem n).mp hn with ⟨hn, -⟩ | rfl | rfl
      · exact absurd hid (Nat.ne_of_lt (hrow.id_lt n hn))
      · exact absurd hid (Nat.ne_of_lt (hrow.id_lt hd h.mem))
      · exact ⟨hrow.abandonedAt, hprom, fun hp => absurd hrow.purgedAt hp, fun _ => ⟨rfl, by simp⟩⟩
  · rcases mem_pushRotation.mp hl with hl | rfl
    · exact absurd hst (hnot l hl).2
    · simp at hst

/-- A break-glass version takes over from the version it supersedes. -/
lemma Holds.breakGlass (h : σ.Holds hd) (hwf : σ.WellFormed) (hq : σ.Quiet) (hrow : σ.Next row)
    (hprom : row.promotedAt = some now) (id expiresAt : ℕ) :
    (((σ.push row).updateVersion hd.id fun v =>
      { v with rotationLockedAt := some now, breakGlassOverlapExpiresAt := some expiresAt
        }).pushRotation ⟨id, hd.id, row.id, .breakGlassComplete⟩).Holds row := by
  have hnot : ∀ l ∈ σ.rotations, l.status ≠ .staged ∧ l.status ≠ .promoted := fun l hl =>
    ⟨fun hst => absurd (hq l hl) (by simp [isActive_of_staged hst]),
      fun hst => absurd (hq l hl) (by simp [isActive_of_promoted hst])⟩
  have hmem := fun x => hwf.mem_install (x := x) h.mem hrow
    (f := fun v => { v with rotationLockedAt := some now,
                            breakGlassOverlapExpiresAt := some expiresAt })
  have hhd := (isServable_iff.mp h.servable).2.2
  refine ⟨(hmem _).mpr (.inr (.inr rfl)), ?_, fun v hv hs => ?_, hrow.overlap,
    fun v hv hpv => ?_, fun l hl => ?_, fun v hv hl hpv => ?_, fun l hl hst n hn hid => ?_,
    fun l hl hst p hp hid => ?_⟩
  · exact isServable_iff.mpr ⟨hrow.purgedAt, hrow.abandonedAt, by simp [hprom]⟩
  · rcases (hmem v).mp hv with ⟨hv, -⟩ | rfl | rfl
    · exact le_of_lt (hrow.number_lt v hv)
    · exact le_of_lt (hrow.number_lt hd h.mem)
    · exact le_rfl
  · rcases (hmem v).mp hv with ⟨hv, -⟩ | rfl | rfl
    · exact h.unpromoted_overlap v hv hpv
    · exact absurd hpv hhd
    · exact hrow.overlap
  · rcases mem_pushRotation.mp hl with hl | rfl
    · exact h.statuses l hl
    · simp
  · rcases (hmem v).mp hv with ⟨hv, -⟩ | rfl | rfl
    · obtain ⟨l, hl', hst, -⟩ := h.unpromoted v hv hl hpv
      exact absurd hst (hnot l hl').1
    · exact absurd hpv hhd
    · simp [hprom] at hpv
  · rcases mem_pushRotation.mp hl with hl | rfl
    · exact absurd hst (hnot l hl).1
    · simp at hst
  · rcases mem_pushRotation.mp hl with hl | rfl
    · exact absurd hst (hnot l hl).2
    · simp at hst

lemma WellFormed.eq_of_active (hwf : σ.WellFormed) {m : RotationLink} (hl : l ∈ σ.rotations)
    (hm : m ∈ σ.rotations) (hlact : l.isActive = true) (hmact : m.isActive = true) :
    m.id = l.id := by
  rw [hwf.one_active m hm l hl hmact hlact]

/-- After a promotion, the promoted version or the one above it is on top. -/
lemma Holds.promote (h : σ.Holds hd) (hwf : σ.WellFormed) (hl : l ∈ σ.rotations)
    (hst : l.status = .staged) :
    ∃ hd', ((σ.setStatus l.id .promoted).updateVersion l.newVersionId fun v =>
      { v with promotedAt := some now }).Holds hd' := by
  obtain ⟨p, hp, n, hn, hpid, hnid, hlt⟩ := hwf.rotations_linked l hl
  obtain ⟨hab, hprom, hpurged, -⟩ := h.staged l hl hst n hn hnid
  rw [← hnid]
  have hact := isActive_of_staged hst
  have hmem := fun x => hwf.mem_update (x := x) (setStatus_versions σ l.id .promoted) hn
    (f := fun v => { v with promotedAt := some now })
  have hrot := fun x => hwf.mem_move (x := x) hl .promoted
  have hhd := (isServable_iff.mp h.servable).2.2
  have hne : hd.id ≠ n.id := fun he => hhd (by rw [hwf.version_eq h.mem hn he]; exact hprom)
  -- the number of the new head bounds the number of the promoted version
  have key : ∃ hd', hd' ∈ (((σ.setStatus l.id .promoted).updateVersion n.id fun v =>
      { v with promotedAt := some now }) : Slice).versions ∧ hd'.isServable = true ∧
      hd'.breakGlassOverlapExpiresAt = none ∧ hd.versionNumber ≤ hd'.versionNumber ∧
      n.versionNumber ≤ hd'.versionNumber := by
    by_cases hcase : n.purgedAt = none ∧ hd.versionNumber < n.versionNumber
    · refine ⟨{ n with promotedAt := some now }, (hmem _).mpr (.inr rfl), ?_,
        h.unpromoted_overlap n hn hprom, le_of_lt hcase.2, le_rfl⟩
      exact isServable_iff.mpr ⟨hcase.1, hab, by simp⟩
    · refine ⟨hd, (hmem _).mpr (.inl ⟨h.mem, hne⟩), h.servable, h.overlap, le_rfl, ?_⟩
      by_cases hp' : n.purgedAt = none
      · exact not_lt.mp fun hgt => hcase ⟨hp', hgt⟩
      · exact le_of_lt (hpurged hp')
  obtain ⟨hd', hmem', hserv', hov', hge, hgen⟩ := key
  refine ⟨hd', hmem', hserv', fun v hv hs => ?_, hov', fun v hv hpv => ?_, fun m hm => ?_,
    fun v hv hlive hpv => ?_, fun m hm hmst => ?_, fun m hm hmst q hq hqid => ?_⟩
  · rcases (hmem v).mp hv with ⟨hv, -⟩ | rfl
    · exact (h.highest v hv hs).trans hge
    · exact hgen
  · rcases (hmem v).mp hv with ⟨hv, -⟩ | rfl
    · exact h.unpromoted_overlap v hv hpv
    · simp at hpv
  · rcases (hrot m).mp hm with ⟨hm, -⟩ | rfl
    · exact h.statuses m hm
    · simp
  · rcases (hmem v).mp hv with ⟨hv, hvn⟩ | rfl
    · obtain ⟨m, hm, hmst, hmid⟩ := h.unpromoted v hv hlive hpv
      have heq := hwf.one_active m hm l hl (isActive_of_staged hmst) hact
      exact absurd (hmid.symm.trans (by rw [heq, hnid])) hvn
    · simp at hpv
  · rcases (hrot m).mp hm with ⟨hm, hmid⟩ | rfl
    · exact absurd (hwf.eq_of_active hl hm hact (isActive_of_staged hmst)) hmid
    · simp at hmst
  · rcases (hrot m).mp hm with ⟨hm, hmid⟩ | rfl
    · exact absurd (hwf.eq_of_active hl hm hact (isActive_of_promoted hmst)) hmid
    · rcases (hmem q).mp hq with ⟨hq, -⟩ | rfl
      · rw [hwf.version_eq hq hp (hqid.trans hpid.symm)]
        omega
      · have hnp : n = p := hwf.version_eq hn hp (hqid.trans hpid.symm)
        rw [hnp] at hlt
        exact absurd hlt (lt_irrefl _)

/-- A retirement purges a version below the head. -/
lemma Holds.retire (h : σ.Holds hd) (hwf : σ.WellFormed) (hl : l ∈ σ.rotations)
    (hst : l.status = .promoted) :
    ((σ.setStatus l.id .retired).updateVersion l.previousVersionId
      (purgeUnlessPurged now)).Holds hd := by
  obtain ⟨p, hp, n, hn, hpid, hnid, hlt⟩ := hwf.rotations_linked l hl
  have hact := isActive_of_promoted hst
  have hphd := h.promoted l hl hst p hp hpid
  rw [← hpid]
  have hmem := fun x => hwf.mem_update (x := x) (setStatus_versions σ l.id .retired) hp
    (f := purgeUnlessPurged now)
  have hrot := fun x => hwf.mem_move (x := x) hl .retired
  have hpurged : (purgeUnlessPurged now p).purgedAt ≠ none := by
    unfold purgeUnlessPurged
    split
    · simp
    · assumption
  have hne : hd.id ≠ p.id := fun he => by
    rw [hwf.version_eq h.mem hp he] at hphd
    exact lt_irrefl _ hphd
  have hnostaged : ∀ m ∈ σ.rotations, m.status ≠ .staged := fun m hm hmst => by
    have heq := hwf.one_active m hm l hl (isActive_of_staged hmst) hact
    rw [heq, hst] at hmst
    simp at hmst
  refine ⟨(hmem _).mpr (.inl ⟨h.mem, hne⟩), h.servable, fun v hv hs => ?_, h.overlap,
    fun v hv hpv => ?_, fun m hm => ?_, fun v hv hlive hpv => ?_, fun m hm hmst => ?_,
    fun m hm hmst q hq hqid => ?_⟩
  · rcases (hmem v).mp hv with ⟨hv, -⟩ | rfl
    · exact h.highest v hv hs
    · exact absurd (isServable_iff.mp hs).1 hpurged
  · rcases (hmem v).mp hv with ⟨hv, -⟩ | rfl
    · exact h.unpromoted_overlap v hv hpv
    · have hpp : p.promotedAt = none := by
        rw [← hpv]
        unfold purgeUnlessPurged
        split <;> rfl
      have hov := h.unpromoted_overlap p hp hpp
      unfold purgeUnlessPurged
      split <;> exact hov
  · rcases (hrot m).mp hm with ⟨hm, -⟩ | rfl
    · exact h.statuses m hm
    · simp
  · rcases (hmem v).mp hv with ⟨hv, -⟩ | rfl
    · obtain ⟨m, hm, hmst, -⟩ := h.unpromoted v hv hlive hpv
      exact absurd hmst (hnostaged m hm)
    · exact absurd (isLive_iff.mp hlive).1 hpurged
  · rcases (hrot m).mp hm with ⟨hm, -⟩ | rfl
    · exact absurd hmst (hnostaged m hm)
    · simp at hmst
  · rcases (hrot m).mp hm with ⟨hm, hmid⟩ | rfl
    · exact absurd (hwf.eq_of_active hl hm hact (isActive_of_promoted hmst)) hmid
    · simp at hmst

/-- Giving up a staged version leaves the head where it was. -/
lemma Holds.abandon (h : σ.Holds hd) (hwf : σ.WellFormed) (hl : l ∈ σ.rotations)
    (hact : l.isActive = true) (hst : l.status ≠ .promoted) :
    ∃ hd', (((σ.setStatus l.id .abandoned).updateVersion l.newVersionId fun v =>
      { v with abandonedAt := some now }).updateVersion l.previousVersionId fun v =>
        { v with rotationLockedAt := none }).Holds hd' := by
  have hstaged : l.status = .staged := by
    have hsts := h.statuses l hl
    simp only [RotationLink.isActive, activeRotationStatuses, decide_eq_true_eq, List.mem_cons,
      List.not_mem_nil, or_false] at hact
    tauto
  obtain ⟨p, hp, n, hn, hpid, hnid, hlt⟩ := hwf.rotations_linked l hl
  obtain ⟨hab, hprom, -, -⟩ := h.staged l hl hstaged n hn hnid
  have hpn : p.id ≠ n.id := fun he => by
    rw [hwf.version_eq hp hn he] at hlt
    exact lt_irrefl _ hlt
  rw [← hpid, ← hnid]
  have hmem := fun x => hwf.mem_update_update (x := x) (setStatus_versions σ l.id .abandoned) hn hp
    hpn (f := fun v => { v with abandonedAt := some now })
    (g := fun v => { v with rotationLockedAt := none }) rfl
  have hrot := fun x => hwf.mem_move (x := x) hl .abandoned
  have hhd := (isServable_iff.mp h.servable).2.2
  have hne : hd.id ≠ n.id := fun he => hhd (by rw [hwf.version_eq h.mem hn he]; exact hprom)
  have honly : ∀ m ∈ σ.rotations, m.isActive = true → m.id = l.id := fun m hm hmact =>
    hwf.eq_of_active hl hm hact hmact
  have key : ∃ hd', hd' ∈ (((σ.setStatus l.id .abandoned).updateVersion n.id fun v =>
      { v with abandonedAt := some now }).updateVersion p.id fun v =>
        { v with rotationLockedAt := none } : Slice).versions ∧ hd'.isServable = true ∧
      hd'.breakGlassOverlapExpiresAt = none ∧ hd'.versionNumber = hd.versionNumber := by
    by_cases hhp : hd.id = p.id
    · obtain rfl := hwf.version_eq h.mem hp hhp
      exact ⟨_, (hmem _).mpr (.inr (.inr rfl)), h.servable, h.overlap, rfl⟩
    · exact ⟨hd, (hmem _).mpr (.inl ⟨h.mem, hne, hhp⟩), h.servable, h.overlap, rfl⟩
  obtain ⟨hd', hmem', hserv', hov', hnum⟩ := key
  refine ⟨hd', hmem', hserv', fun v hv hs => ?_, hov', fun v hv hpv => ?_, fun m hm => ?_,
    fun v hv hlive hpv => ?_, fun m hm hmst => ?_, fun m hm hmst => ?_⟩
  · rw [hnum]
    rcases (hmem v).mp hv with ⟨hv, -⟩ | rfl | rfl
    · exact h.highest v hv hs
    · simp [isServable_iff] at hs
    · exact h.highest p hp hs
  · rcases (hmem v).mp hv with ⟨hv, -⟩ | rfl | rfl
    · exact h.unpromoted_overlap v hv hpv
    · exact h.unpromoted_overlap n hn hpv
    · exact h.unpromoted_overlap p hp hpv
  · rcases (hrot m).mp hm with ⟨hm, -⟩ | rfl
    · exact h.statuses m hm
    · simp
  · have hsrc : ∃ w ∈ σ.versions, w.isLive = true ∧ w.promotedAt = none ∧ w.id = v.id ∧
        v.id ≠ n.id := by
      rcases (hmem v).mp hv with ⟨hv, hvn, -⟩ | rfl | rfl
      · exact ⟨v, hv, hlive, hpv, rfl, hvn⟩
      · simp [isLive_iff] at hlive
      · exact ⟨p, hp, hlive, hpv, rfl, hpn⟩
    obtain ⟨w, hw, hwl, hwp, hwid, hvn⟩ := hsrc
    obtain ⟨m, hm, hmst, hmid⟩ := h.unpromoted w hw hwl hwp
    have heq := hwf.one_active m hm l hl (isActive_of_staged hmst) hact
    exact absurd (hwid.symm.trans (hmid.symm.trans (by rw [heq, hnid]))) hvn
  · rcases (hrot m).mp hm with ⟨hm, hmid⟩ | rfl
    · exact absurd (honly m hm (isActive_of_staged hmst)) hmid
    · simp at hmst
  · rcases (hrot m).mp hm with ⟨hm, hmid⟩ | rfl
    · exact absurd (honly m hm (isActive_of_promoted hmst)) hmid
    · simp at hmst

/-- A change in place of columns the head does not depend on. -/
lemma Holds.map (h : σ.Holds hd) {g : CredentialVersion → CredentialVersion}
    (hshape : ∀ v, (g v).shape = v.shape) (hhd : g hd = hd)
    (habandoned : ∀ v, (g v).abandonedAt = v.abandonedAt)
    (hpromoted : ∀ v, (g v).promotedAt = v.promotedAt)
    (hpurged : ∀ v, (g v).purgedAt = none → v.purgedAt = none)
    (hoverlap : ∀ v, v.breakGlassOverlapExpiresAt = none →
      (g v).breakGlassOverlapExpiresAt = none)
    (hbelow : ∀ l ∈ σ.rotations, l.status = .staged → ∀ n ∈ σ.versions,
      n.id = l.newVersionId → (g n).purgedAt ≠ none → n.purgedAt = none →
        n.versionNumber < hd.versionNumber) :
    (⟨σ.versions.map g, σ.rotations⟩ : Slice).Holds hd := by
  have hid : ∀ v, (g v).id = v.id := fun v => congrArg Prod.fst (hshape v)
  have hnum : ∀ v, (g v).versionNumber = v.versionNumber := fun v =>
    congrArg (fun x => x.2.2) (hshape v)
  have hserv : ∀ v, (g v).isServable = true → v.isServable = true := fun v hv => by
    obtain ⟨h1, h2, h3⟩ := isServable_iff.mp hv
    exact isServable_iff.mpr ⟨hpurged v h1, by rw [← habandoned]; exact h2,
      by rw [← hpromoted]; exact h3⟩
  have hlive : ∀ v, (g v).isLive = true → v.isLive = true := fun v hv => by
    obtain ⟨h1, h2⟩ := isLive_iff.mp hv
    exact isLive_iff.mpr ⟨hpurged v h1, by rw [← habandoned]; exact h2⟩
  refine ⟨List.mem_map.mpr ⟨hd, h.mem, hhd⟩, h.servable, ?_, h.overlap, ?_, h.statuses, ?_, ?_, ?_⟩
  · intro x hx hs
    obtain ⟨v, hv, rfl⟩ := List.mem_map.mp hx
    rw [hnum]
    exact h.highest v hv (hserv v hs)
  · intro x hx hp
    obtain ⟨v, hv, rfl⟩ := List.mem_map.mp hx
    exact hoverlap v (h.unpromoted_overlap v hv (by rw [← hpromoted]; exact hp))
  · intro x hx hl hp
    obtain ⟨v, hv, rfl⟩ := List.mem_map.mp hx
    rw [hid]
    exact h.unpromoted v hv (hlive v hl) (by rw [← hpromoted]; exact hp)
  · intro l hl hst x hx hxid
    obtain ⟨n, hn, rfl⟩ := List.mem_map.mp hx
    rw [hid] at hxid
    obtain ⟨h1, h2, h3, h4⟩ := h.staged l hl hst n hn hxid
    rw [habandoned, hpromoted, hnum]
    refine ⟨h1, h2, fun hp => ?_, h4⟩
    by_cases hn' : n.purgedAt = none
    · exact hbelow l hl hst n hn hxid hp hn'
    · exact h3 hn'
  · intro l hl hst x hx hxid
    obtain ⟨p, hp, rfl⟩ := List.mem_map.mp hx
    rw [hid] at hxid
    rw [hnum]
    exact h.promoted l hl hst p hp hxid

/-- The end of an overlap concerns superseded versions only. -/
lemma Holds.expire (h : σ.Holds hd) (id : ℕ) :
    (⟨Db.updateWhere (fun v => decide (v.id = id) && overlapExpired now v)
      (fun v => { v with rotationLockedAt := none, breakGlassOverlapExpiresAt := none })
      σ.versions, σ.rotations⟩ : Slice).Holds hd := by
  refine h.map (fun v => ?_) ?_ (fun v => ?_) (fun v => ?_) (fun v hv => ?_) (fun v hv => ?_)
    fun l _ _ n _ _ hp hn => ?_
  · split <;> rfl
  · rw [if_neg]
    simp [overlapExpired, h.overlap]
  · split <;> rfl
  · split <;> rfl
  · split at hv <;> exact hv
  · split
    · rfl
    · exact hv
  · split at hp <;> exact absurd hn hp

/-- Retention spares the head: a live version ranked above it would have to be
staged, and then the head is locked. -/
lemma Holds.not_candidate (h : σ.Holds hd) (hwf : σ.WellFormed) (k : ℕ) :
    hd ∉ σ.purgeCandidates k := by
  intro hcand
  obtain ⟨hp, ha, -⟩ := isServable_iff.mp h.servable
  obtain ⟨w, hw, hwa, hlt⟩ := exists_live_above hwf hcand ha
  obtain ⟨hwmem, hwp, -⟩ := mem_ranking.mp hw
  have hwprom : w.promotedAt = none := by
    by_contra hne
    have hle := h.highest w hwmem (isServable_iff.mpr ⟨hwp, hwa, hne⟩)
    omega
  obtain ⟨l, hl, hst, hid⟩ := h.unpromoted w hwmem (isLive_iff.mpr ⟨hwp, hwa⟩) hwprom
  have hlocked := ((h.staged l hl hst w hwmem hid.symm).2.2.2 hlt).2
  exact hlocked (mem_ranking.mp (mem_purgeCandidates hcand)).2.2

/-- Retention keeps the head readable. -/
lemma Holds.prune (h : σ.Holds hd) (hwf : σ.WellFormed) (k : ℕ) :
    (⟨Db.updateWhere (fun v => v.id ∈ (σ.purgeCandidates k).map CredentialVersion.id)
      (CredentialVersion.purge now) σ.versions, σ.rotations⟩ : Slice).Holds hd := by
  have hcand : ∀ v ∈ σ.versions, v.id ∈ (σ.purgeCandidates k).map CredentialVersion.id →
      v ∈ σ.purgeCandidates k := fun v hv hid => by
    obtain ⟨w, hw, hwid⟩ := List.mem_map.mp hid
    rw [hwf.version_eq hv (mem_ranking.mp (mem_purgeCandidates hw)).1 hwid.symm]
    exact hw
  refine h.map (fun v => ?_) ?_ (fun v => ?_) (fun v => ?_) (fun v hv => ?_) (fun v hv => ?_)
    fun l hl hst n hn hnid hp hnp => ?_
  · split <;> rfl
  · rw [if_neg]
    simp only [decide_eq_true_eq]
    exact fun hid => h.not_candidate hwf k (hcand hd h.mem hid)
  · split <;> rfl
  · split <;> rfl
  · split at hv
    · simp [CredentialVersion.purge] at hv
    · exact hv
  · split
    · exact hv
    · exact hv
  · -- the staged version is purged only when it is no longer above the head
    split at hp
    · rename_i hid
      obtain ⟨hab, hprom, -, -⟩ := h.staged l hl hst n hn hnid
      obtain ⟨w, hw, hwa, hlt⟩ := exists_live_above hwf (hcand n hn (by simpa using hid)) hab
      obtain ⟨hwmem, hwp, -⟩ := mem_ranking.mp hw
      by_cases hwprom : w.promotedAt = none
      · obtain ⟨m, hm, hmst, hmid⟩ := h.unpromoted w hwmem (isLive_iff.mpr ⟨hwp, hwa⟩) hwprom
        have heq := hwf.one_active m hm l hl (isActive_of_staged hmst) (isActive_of_staged hst)
        rw [hwf.version_eq hwmem hn (hmid.symm.trans (by rw [heq, hnid]))] at hlt
        exact absurd hlt (lt_irrefl _)
      · exact lt_of_lt_of_le hlt (h.highest w hwmem (isServable_iff.mpr ⟨hwp, hwa, hwprom⟩))
    · exact absurd hnp hp

/-- A credential that does not exist yet, or one with a readable head. -/
def Kept (σ : Slice) : Prop := σ = Slice.empty ∨ ∃ hd, σ.Holds hd

/-- Nothing but a first version happens to a credential that does not exist yet. -/
lemma kept_step_empty {σ' : Slice} {k : Change} (hk : k ≠ .imported)
    (hstep : Step now Slice.empty k σ') : Kept σ' := by
  have hwf : Slice.empty.WellFormed := by constructor <;> simp [Slice.empty]
  cases hstep with
  | edit hrow hp =>
    refine .inr ⟨_, holds_push hwf hrow hp ?_ ?_ ?_ ?_⟩ <;> simp [Slice.empty]
  | imported => exact absurd rfl hk
  | stage _ hp => simp [lockTarget, Slice.empty] at hp
  | promote hl => simp [Slice.empty] at hl
  | retire hl => simp [Slice.empty] at hl
  | complete hl => simp [Slice.empty] at hl
  | resume hl => simp [Slice.empty] at hl
  | recover hl => simp [Slice.empty] at hl
  | abandon hl => simp [Slice.empty] at hl
  | breakGlass _ hp => simp [lockTarget, Slice.empty] at hp
  | expire id => exact .inl rfl
  | prune k => exact .inl rfl

/-- **Step lemma**: every change except an import keeps a readable head. -/
lemma Kept.step {σ' : Slice} {k : Change} (h : Kept σ) (hwf : σ.WellFormed) (hk : k ≠ .imported)
    (hstep : Step now σ k σ') : Kept σ' := by
  rcases h with rfl | ⟨hd, h⟩
  · exact kept_step_empty hk hstep
  · cases hstep with
    | edit hrow hp => exact .inr ⟨_, h.edit hwf hrow hp⟩
    | imported => exact absurd rfl hk
    | stage hq hp hrow hprom =>
      obtain rfl := h.lockTarget_eq hwf hq hp
      exact .inr ⟨_, h.stage hwf hq hrow hprom _⟩
    | promote hl hst => exact .inr (h.promote hwf hl hst)
    | retire hl hst => exact .inr ⟨_, h.retire hwf hl hst⟩
    | complete hl hst => exact absurd hst (h.statuses _ hl).1
    | resume hl hst => exact absurd hst (h.statuses _ hl).2
    | recover hl hst => exact absurd hst (h.statuses _ hl).1
    | abandon hl hact hst => exact .inr (h.abandon hwf hl hact hst)
    | breakGlass hq hp hrow hprom =>
      obtain rfl := h.lockTarget_eq hwf hq hp
      exact .inr ⟨_, h.breakGlass hwf hq hrow hprom _ _⟩
    | expire id => exact .inr ⟨_, h.expire id⟩
    | prune k => exact .inr ⟨_, h.prune hwf k⟩

end Slice

/-! ### Runs -/

/-- The import items an operation writes. -/
def Op.importedItems (s : Store) (now : ℕ) : Op → List PendingImportItem
  | .confirmImport input => writtenItems s now input
  | _ => []

/-- Runs that write no imported item. -/
def NoImport (v : VaultState) (t : Timed) : Prop := t.op.importedItems v.store t.now = []

instance (v : VaultState) (t : Timed) : Decidable (NoImport v t) :=
  inferInstanceAs (Decidable (t.op.importedItems v.store t.now = []))

/-- An operation that writes no imported item emits no import. -/
lemma NoImport.ne_imported {v : VaultState} {t : Timed} {s : Store} {c : ℕ} {k : Slice.Change}
    (h : NoImport v t) (he : t.op.Emits v.store t.now s c k) : k ≠ .imported := by
  rintro rfl
  obtain ⟨now, op⟩ := t
  cases op with
  | confirmImport input =>
    obtain ⟨-, -, item, hitem, -⟩ := he
    rw [show writtenItems v.store now input = [] from h] at hitem
    simp at hitem
  | createCredential input => simp [Op.Emits] at he
  | addVersion input => simp [Op.Emits] at he
  | promote locked params ack => simp [Op.Emits] at he
  | _ => simp [Op.Emits, Slice.Change.isRoutine] at he

/-- **Run lemma**: without imports, every history has a readable head. -/
lemma reachable_kept {rt : Runtime} {v : VaultState} (h : (vault rt).Reaches NoImport v) :
    ∀ c, (v.store.slice c).Kept :=
  (slice_invariant (I := fun _ σ => σ.Kept) (G := fun _ _ k => k ≠ .imported) (.inl rfl)
    (fun _ _ _ _ hI => hI) (fun _ _ hok _ _ _ he => hok.ne_imported he)
    (fun _ _ _ _ hwf _ hI hk hst => hI.step hwf hk hst) h).2

/-- A project with one credential, holding one version. -/
def createdRun : List Timed :=
  [⟨1, .environment [⟨100, 9, none⟩] [⟨9, 7, "active"⟩] []⟩,
   ⟨2, .createCredential ⟨9, 100, 7, "db", none, none, none, none, none, .value (some "old")⟩⟩]

/-- The credential above, then an import of a second value for it, confirmed as a
new version, and a retention run that keeps one version. -/
def importThenPruneRun : List Timed :=
  createdRun ++
    [⟨3, .stageImport ⟨9, 100, [("db", "new")]⟩⟩,
     ⟨4, .confirmImport ⟨9, 100, 7, 3, .newVersion, []⟩⟩,
     ⟨5, .prune 1 1 false⟩]

end ProjectVault
