import ProjectVault.Rotation.Tables

/-!
The history of one credential: its versions and rotations, cut out of the store.
-/

namespace ProjectVault

variable {s s' : Store} {c : ℕ}

/-- The columns of a rotation the version history depends on. -/
structure RotationLink where
  id : ℕ
  previousVersionId : ℕ
  newVersionId : ℕ
  status : RotationStatus

/-- A rotation as its credential's history sees it. -/
def Rotation.link (r : Rotation) : RotationLink :=
  ⟨r.id, r.previousVersionId, r.newVersionId, r.status⟩

/-- A rotation that blocks another on its credential. -/
def RotationLink.isActive (l : RotationLink) : Bool := l.status ∈ activeRotationStatuses

/-- The versions and rotations of one credential. -/
structure Slice where
  versions : List CredentialVersion
  rotations : List RotationLink

/-- The slice of a credential. -/
def Store.slice (s : Store) (c : ℕ) : Slice where
  versions := s.versionsOf c
  rotations := (s.rotations.filter fun r => r.credentialId = c).map Rotation.link

namespace Slice

variable {row v x : CredentialVersion} {f : CredentialVersion → CredentialVersion}
  {l : RotationLink} {σ : Slice}

/-- The history of a credential that does not exist yet. -/
def empty : Slice := ⟨[], []⟩

/-- The version the readers serve. -/
def served (σ : Slice) : Option CredentialVersion :=
  (σ.versions.filter CredentialVersion.isServable).argmax CredentialVersion.currentKey

/-- The version a new rotation would supersede. -/
def lockTarget (σ : Slice) : Option CredentialVersion :=
  (σ.versions.filter CredentialVersion.isLive).argmax CredentialVersion.versionNumber

/-- No rotation of the credential is active. -/
def Quiet (σ : Slice) : Prop := ∀ l ∈ σ.rotations, l.isActive = false

instance (σ : Slice) : Decidable σ.Quiet := inferInstanceAs (Decidable (∀ l ∈ σ.rotations, _))

/-- `UPDATE credential_versions … WHERE id = …` inside a slice. -/
def updateVersion (σ : Slice) (id : ℕ) (f : CredentialVersion → CredentialVersion) : Slice :=
  { σ with versions := Db.updateWhere (fun v => v.id = id) f σ.versions }

/-- A change of a rotation's status inside a slice. -/
def setStatus (σ : Slice) (id : ℕ) (status : RotationStatus) : Slice :=
  { σ with rotations := Db.updateWhere (fun l => l.id = id) (fun l => { l with status })
             σ.rotations }

/-- Appending a version. -/
def push (σ : Slice) (row : CredentialVersion) : Slice :=
  { σ with versions := σ.versions ++ [row] }

/-- Appending a rotation. -/
def pushRotation (σ : Slice) (link : RotationLink) : Slice :=
  { σ with rotations := σ.rotations ++ [link] }

/-- Keys, numbering and references of a slice. -/
structure WellFormed (σ : Slice) : Prop where
  versions_sorted : σ.versions.Pairwise fun a b => a.id < b.id
  numbers_sorted : σ.versions.Pairwise fun a b => a.versionNumber < b.versionNumber
  rotations_sorted : σ.rotations.Pairwise fun a b => a.id < b.id
  rotations_linked : ∀ l ∈ σ.rotations, ∃ p ∈ σ.versions, ∃ n ∈ σ.versions,
    p.id = l.previousVersionId ∧ n.id = l.newVersionId ∧ p.versionNumber < n.versionNumber
  one_active : ∀ l ∈ σ.rotations, ∀ m ∈ σ.rotations, l.isActive = true → m.isActive = true → l = m

/-- A row as an insert creates it, above everything in the slice. -/
structure Next (σ : Slice) (row : CredentialVersion) : Prop where
  purgedAt : row.purgedAt = none
  abandonedAt : row.abandonedAt = none
  unlocked : row.rotationLockedAt = none
  overlap : row.breakGlassOverlapExpiresAt = none
  stored : row.encryptedValue ≠ none
  id_lt : ∀ v ∈ σ.versions, v.id < row.id
  number_lt : ∀ v ∈ σ.versions, v.versionNumber < row.versionNumber

/-- The versions retention ranks, highest number first. -/
def ranking (σ : Slice) : List CredentialVersion :=
  Db.sortDesc CredentialVersion.versionNumber
    (σ.versions.filter fun v => v.purgedAt.isNone && v.rotationLockedAt.isNone)

/-- `purgeCandidatesForCredential` on a slice. -/
def purgeCandidates (σ : Slice) (retentionCount : ℕ) : List CredentialVersion :=
  (σ.ranking.drop (max retentionCount 1)).filter fun v =>
    some v.id ≠ (σ.ranking.find? fun v => v.abandonedAt.isNone).map CredentialVersion.id

/-- The kinds of change a slice undergoes; a promotion names the version it makes
readable. -/
inductive Change where
  | edit | imported | stage | promote (newVersionId : ℕ) | retire | complete | resume | recover
  | abandon | breakGlass | expire | prune (retentionCount : ℕ)

/-- The changes of a slice at time `now`. -/
inductive Step (now : ℕ) (σ : Slice) : Change → Slice → Prop
  | edit {row : CredentialVersion} (hrow : σ.Next row) (hp : row.promotedAt = some now) :
      Step now σ .edit (σ.push row)
  | imported {row : CredentialVersion} (hrow : σ.Next row) (hp : row.promotedAt = none) :
      Step now σ .imported (σ.push row)
  | stage {p row : CredentialVersion} {id : ℕ} (hq : σ.Quiet) (hp : σ.lockTarget = some p)
      (hrow : σ.Next row) (hprom : row.promotedAt = none) :
      Step now σ .stage
        (((σ.push row).updateVersion p.id fun v => { v with rotationLockedAt := some now
            }).pushRotation ⟨id, p.id, row.id, .staged⟩)
  | promote {l : RotationLink} (hl : l ∈ σ.rotations) (hst : l.status = .staged) :
      Step now σ (.promote l.newVersionId)
        ((σ.setStatus l.id .promoted).updateVersion l.newVersionId fun v =>
          { v with promotedAt := some now })
  | retire {l : RotationLink} (hl : l ∈ σ.rotations) (hst : l.status = .promoted) :
      Step now σ .retire
        ((σ.setStatus l.id .retired).updateVersion l.previousVersionId (purgeUnlessPurged now))
  | complete {l : RotationLink} (hl : l ∈ σ.rotations) (hst : l.status = .inProgress) :
      Step now σ .complete
        ((σ.setStatus l.id .completed).updateVersion l.previousVersionId fun v =>
          { v with rotationLockedAt := none })
  | resume {l : RotationLink} (hl : l ∈ σ.rotations) (hst : l.status = .staleRecovery) :
      Step now σ .resume (σ.setStatus l.id .inProgress)
  | recover {l : RotationLink} (hl : l ∈ σ.rotations) (hst : l.status = .inProgress) :
      Step now σ .recover (σ.setStatus l.id .staleRecovery)
  | abandon {l : RotationLink} (hl : l ∈ σ.rotations) (hact : l.isActive = true)
      (hst : l.status ≠ .promoted) :
      Step now σ .abandon
        (((σ.setStatus l.id .abandoned).updateVersion l.newVersionId fun v =>
            { v with abandonedAt := some now }).updateVersion l.previousVersionId fun v =>
          { v with rotationLockedAt := none })
  | breakGlass {p row : CredentialVersion} {id expiresAt : ℕ} (hq : σ.Quiet)
      (hp : σ.lockTarget = some p) (hrow : σ.Next row) (hprom : row.promotedAt = some now) :
      Step now σ .breakGlass
        (((σ.push row).updateVersion p.id fun v =>
            { v with rotationLockedAt := some now, breakGlassOverlapExpiresAt := some expiresAt
              }).pushRotation ⟨id, p.id, row.id, .breakGlassComplete⟩)
  | expire (id : ℕ) :
      Step now σ .expire
        { σ with versions := Db.updateWhere
                   (fun v => decide (v.id = id) && overlapExpired now v)
                   (fun v => { v with rotationLockedAt := none, breakGlassOverlapExpiresAt := none })
                   σ.versions }
  | prune (retentionCount : ℕ) :
      Step now σ (.prune retentionCount)
        { σ with versions := Db.updateWhere
                   (fun v => v.id ∈ (σ.purgeCandidates retentionCount).map CredentialVersion.id)
                   (CredentialVersion.purge now) σ.versions }

/-! ### Rows of a slice -/

lemma WellFormed.version_eq (h : σ.WellFormed) {w : CredentialVersion} (hv : v ∈ σ.versions)
    (hw : w ∈ σ.versions) (hid : v.id = w.id) : v = w :=
  Db.eq_of_key_eq h.versions_sorted hv hw hid

lemma WellFormed.eq_of_number (h : σ.WellFormed) {w : CredentialVersion} (hv : v ∈ σ.versions)
    (hw : w ∈ σ.versions) (hn : v.versionNumber = w.versionNumber) : v = w :=
  Db.eq_of_key_eq h.numbers_sorted hv hw hn

lemma WellFormed.rotation_eq (h : σ.WellFormed) {m : RotationLink} (hl : l ∈ σ.rotations)
    (hm : m ∈ σ.rotations) (hid : l.id = m.id) : l = m :=
  Db.eq_of_key_eq h.rotations_sorted hl hm hid

/-- The rows after an update of one version. -/
lemma mem_updateVersion {id : ℕ} : x ∈ (σ.updateVersion id f).versions ↔
      (x ∈ σ.versions ∧ x.id ≠ id) ∨ ∃ v ∈ σ.versions, v.id = id ∧ x = f v := by
  simp only [updateVersion, Db.mem_updateWhere, decide_eq_true_eq]
  constructor
  · rintro ⟨v, hv, rfl⟩
    by_cases hid : v.id = id
    · exact .inr ⟨v, hv, hid, by rw [if_pos hid]⟩
    · rw [if_neg hid]
      exact .inl ⟨hv, hid⟩
  · rintro (⟨hx, hid⟩ | ⟨v, hv, hid, rfl⟩)
    · exact ⟨x, hx, by rw [if_neg hid]⟩
    · exact ⟨v, hv, by rw [if_pos hid]⟩

/-- The rotations after a change of one status. -/
lemma mem_setStatus {id : ℕ} {status : RotationStatus} {x : RotationLink} :
    x ∈ (σ.setStatus id status).rotations ↔
      (x ∈ σ.rotations ∧ x.id ≠ id) ∨ ∃ l ∈ σ.rotations, l.id = id ∧ x = { l with status } := by
  simp only [setStatus, Db.mem_updateWhere, decide_eq_true_eq]
  constructor
  · rintro ⟨l, hl, rfl⟩
    by_cases hid : l.id = id
    · exact .inr ⟨l, hl, hid, by rw [if_pos hid]⟩
    · rw [if_neg hid]
      exact .inl ⟨hl, hid⟩
  · rintro (⟨hx, hid⟩ | ⟨l, hl, hid, rfl⟩)
    · exact ⟨x, hx, by rw [if_neg hid]⟩
    · exact ⟨l, hl, by rw [if_pos hid]⟩

@[simp] lemma updateVersion_rotations (σ : Slice) (id : ℕ)
    (f : CredentialVersion → CredentialVersion) :
    (σ.updateVersion id f).rotations = σ.rotations := rfl

@[simp] lemma setStatus_versions (σ : Slice) (id : ℕ) (status : RotationStatus) :
    (σ.setStatus id status).versions = σ.versions := rfl

@[simp] lemma push_rotations (σ : Slice) (row : CredentialVersion) :
    (σ.push row).rotations = σ.rotations := rfl

@[simp] lemma pushRotation_versions (σ : Slice) (link : RotationLink) :
    (σ.pushRotation link).versions = σ.versions := rfl

lemma mem_push :
    x ∈ (σ.push row).versions ↔ x ∈ σ.versions ∨ x = row := by
  simp [push]

lemma mem_pushRotation {link x : RotationLink} :
    x ∈ (σ.pushRotation link).rotations ↔ x ∈ σ.rotations ∨ x = link := by
  simp [pushRotation]

/-! ### Rows after a change -/

/-- A new row is neither end of a rotation. -/
lemma Next.ne_new (hrow : σ.Next row) (h : σ.WellFormed) (hl : l ∈ σ.rotations) :
    row.id ≠ l.newVersionId := by
  obtain ⟨p, -, n, hn, -, hnid, -⟩ := h.rotations_linked l hl
  have := hrow.id_lt n hn
  omega

lemma Next.ne_previous (hrow : σ.Next row) (h : σ.WellFormed) (hl : l ∈ σ.rotations) :
    row.id ≠ l.previousVersionId := by
  obtain ⟨p, hp, n, -, hpid, -, -⟩ := h.rotations_linked l hl
  have := hrow.id_lt p hp
  omega

/-- The rows after one of them has been updated. -/
lemma WellFormed.mem_update {τ : Slice} (h : σ.WellFormed) (hτ : τ.versions = σ.versions)
    (hv : v ∈ σ.versions) :
    x ∈ (τ.updateVersion v.id f).versions ↔ (x ∈ σ.versions ∧ x.id ≠ v.id) ∨ x = f v := by
  rw [mem_updateVersion, hτ]
  refine or_congr_right ⟨?_, fun hx => ⟨v, hv, rfl, hx⟩⟩
  rintro ⟨w, hw, hid, rfl⟩
  rw [h.version_eq hw hv hid]

/-- The rotations after one of them has moved. -/
lemma WellFormed.mem_move (h : σ.WellFormed) {x : RotationLink} (hl : l ∈ σ.rotations)
    (status : RotationStatus) :
    x ∈ (σ.setStatus l.id status).rotations ↔
      (x ∈ σ.rotations ∧ x.id ≠ l.id) ∨ x = { l with status } := by
  rw [mem_setStatus]
  refine or_congr_right ⟨?_, fun hx => ⟨l, hl, rfl, hx⟩⟩
  rintro ⟨m, hm, hid, rfl⟩
  rw [h.rotation_eq hm hl hid]

/-- The rows after a version has been added and another one marked. -/
lemma WellFormed.mem_install (h : σ.WellFormed) {p : CredentialVersion} (hp : p ∈ σ.versions)
    (hrow : σ.Next row) :
    x ∈ ((σ.push row).updateVersion p.id f).versions ↔
      (x ∈ σ.versions ∧ x.id ≠ p.id) ∨ x = f p ∨ x = row := by
  have hne : row.id ≠ p.id := Nat.ne_of_gt (hrow.id_lt p hp)
  rw [mem_updateVersion]
  constructor
  · rintro (⟨hx, hid⟩ | ⟨v, hv, hid, rfl⟩)
    · rcases mem_push.mp hx with hx | rfl
      · exact .inl ⟨hx, hid⟩
      · exact .inr (.inr rfl)
    · rcases mem_push.mp hv with hv | rfl
      · exact .inr (.inl (by rw [h.version_eq hv hp hid]))
      · exact absurd hid hne
  · rintro (⟨hx, hid⟩ | rfl | rfl)
    · exact .inl ⟨mem_push.mpr (.inl hx), hid⟩
    · exact .inr ⟨p, mem_push.mpr (.inl hp), rfl, rfl⟩
    · exact .inl ⟨mem_push.mpr (.inr rfl), hne⟩

/-- The rows after one of them has been given up and another one released. -/
lemma WellFormed.mem_update_update {τ : Slice} (h : σ.WellFormed) (hτ : τ.versions = σ.versions)
    {n p : CredentialVersion} (hn : n ∈ σ.versions) (hp : p ∈ σ.versions) (hne : p.id ≠ n.id)
    {g : CredentialVersion → CredentialVersion} (hf : (f n).id = n.id) :
    x ∈ ((τ.updateVersion n.id f).updateVersion p.id g).versions ↔
      (x ∈ σ.versions ∧ x.id ≠ n.id ∧ x.id ≠ p.id) ∨ x = f n ∨ x = g p := by
  rw [mem_updateVersion]
  constructor
  · rintro (⟨hx, hid⟩ | ⟨v, hv, hid, rfl⟩)
    · rcases (h.mem_update hτ hn).mp hx with ⟨hx, hxn⟩ | rfl
      · exact .inl ⟨hx, hxn, hid⟩
      · exact .inr (.inl rfl)
    · rcases (h.mem_update hτ hn).mp hv with ⟨hv, -⟩ | rfl
      · exact .inr (.inr (by rw [h.version_eq hv hp hid]))
      · exact absurd (hf.symm.trans hid).symm hne
  · rintro (⟨hx, hxn, hxp⟩ | rfl | rfl)
    · exact .inl ⟨(h.mem_update hτ hn).mpr (.inl ⟨hx, hxn⟩), hxp⟩
    · exact .inl ⟨(h.mem_update hτ hn).mpr (.inr rfl), by rw [hf]; exact Ne.symm hne⟩
    · exact .inr ⟨p, (h.mem_update hτ hn).mpr (.inl ⟨hp, hne⟩), rfl, rfl⟩

end Slice

/-! ### Slices of the store -/

lemma mem_slice_versions {v : CredentialVersion} :
    v ∈ (s.slice c).versions ↔ v ∈ s.versions ∧ v.credentialId = c := mem_versionsOf

lemma mem_slice_rotations {l : RotationLink} :
    l ∈ (s.slice c).rotations ↔ ∃ r ∈ s.rotations, r.credentialId = c ∧ r.link = l := by
  simp [Store.slice, and_assoc]

lemma Store.WellFormed.slice (h : s.WellFormed) (c : ℕ) : (s.slice c).WellFormed where
  versions_sorted := h.versions_sorted.filter _
  numbers_sorted := by
    refine (h.numbers_sorted.filter _).imp_of_mem fun {a b} ha hb hab => hab ?_
    have hac := (mem_slice_versions.mp ha).2
    have hbc := (mem_slice_versions.mp hb).2
    rw [hac, hbc]
  rotations_sorted := List.pairwise_map.mpr (h.rotations_sorted.filter _)
  rotations_linked := fun l hl => by
    obtain ⟨r, hr, hrc, rfl⟩ := mem_slice_rotations.mp hl
    obtain ⟨p, hp, n, hn, hpid, hnid, hpc, hnc, hlt⟩ := h.rotations_linked r hr
    exact ⟨p, mem_slice_versions.mpr ⟨hp, hpc.trans hrc⟩, n,
      mem_slice_versions.mpr ⟨hn, hnc.trans hrc⟩, hpid, hnid, hlt⟩
  one_active := fun l hl m hm hlact hmact => by
    obtain ⟨r, hr, hrc, rfl⟩ := mem_slice_rotations.mp hl
    obtain ⟨q, hq, hqc, rfl⟩ := mem_slice_rotations.mp hm
    have hid := h.one_active r hr q hq (hrc.trans hqc.symm) hlact hmact
    rw [h.rotation_eq hr hq hid]

/-- Slices only see versions and rotations. -/
lemma slice_congr (hv : s'.versions = s.versions) (hr : s'.rotations = s.rotations) (c : ℕ) :
    s'.slice c = s.slice c := by
  rw [Store.slice, Store.slice, Store.versionsOf, Store.versionsOf, hv, hr]

lemma slice_updateVersion (s : Store) (c id : ℕ) {f : CredentialVersion → CredentialVersion}
    (hf : ∀ v, (f v).shape = v.shape) :
    (s.updateVersion id f).slice c = (s.slice c).updateVersion id f := by
  have hc : ∀ v, (f v).credentialId = v.credentialId := fun v => congrArg (fun x => x.2.1) (hf v)
  have hfilter := Db.filter_updateWhere (p := fun v => decide (v.id = id))
    (q := fun v => decide (v.credentialId = c)) (f := f) s.versions
    fun v _ _ => by simp only [hc v]
  simp only [Store.slice, Slice.updateVersion, Store.versionsOf, Store.updateVersion]
  rw [hfilter]

lemma slice_updateVersion_of_ne (h : s.WellFormed) {v : CredentialVersion} (hv : v ∈ s.versions)
    (hc : v.credentialId ≠ c) {f : CredentialVersion → CredentialVersion}
    (hf : ∀ v, (f v).shape = v.shape) :
    (s.updateVersion v.id f).slice c = s.slice c := by
  rw [slice_updateVersion s c v.id hf, Slice.updateVersion, Db.updateWhere_eq_self]
  intro w hw hid
  have hwv := h.version_eq (mem_slice_versions.mp hw).1 hv (by simpa using hid)
  exact absurd (mem_slice_versions.mp hw).2 (by rw [hwv]; exact hc)

lemma slice_updateRotation (s : Store) (c id : ℕ) {f : Rotation → Rotation}
    (status : RotationStatus) (hf : ∀ r, (f r).shape = r.shape)
    (hst : ∀ r ∈ s.rotations, r.id = id → (f r).status = status) :
    (s.updateRotation id f).slice c = (s.slice c).setStatus id status := by
  have hc : ∀ r, (f r).credentialId = r.credentialId := fun r => congrArg (fun x => x.2.1) (hf r)
  have hfilter := Db.filter_updateWhere (p := fun r => decide (r.id = id))
    (q := fun r => decide (r.credentialId = c)) (f := f) s.rotations
    fun r _ _ => by simp only [hc r]
  simp only [Store.slice, Slice.setStatus, Store.versionsOf, Store.updateRotation]
  rw [hfilter, Db.map_updateWhere_comm]
  · intro r _
    rfl
  · intro r hr hid
    have hsr := hf r
    simp only [Rotation.shape, Prod.mk.injEq] at hsr
    simp only [Rotation.link, hsr, hst r (List.mem_filter.mp hr).1 (by simpa using hid)]

lemma slice_updateRotation_of_ne (h : s.WellFormed) {r : Rotation} (hr : r ∈ s.rotations)
    (hc : r.credentialId ≠ c) {f : Rotation → Rotation} (hf : ∀ r, (f r).shape = r.shape) :
    (s.updateRotation r.id f).slice c = s.slice c := by
  rw [slice_updateRotation s c r.id (f r).status hf
    fun q hq hid => by rw [h.rotation_eq hq hr hid], Slice.setStatus, Db.updateWhere_eq_self]
  intro l hl hid
  obtain ⟨q, hq, hqc, rfl⟩ := mem_slice_rotations.mp hl
  have hqr := h.rotation_eq hq hr (of_decide_eq_true hid)
  exact absurd hqc (by rw [hqr]; exact hc)

lemma slice_pushVersion (row : CredentialVersion) (hv : s'.versions = s.versions ++ [row])
    (hr : s'.rotations = s.rotations) (hc : row.credentialId = c) :
    s'.slice c = (s.slice c).push row := by
  simp [Store.slice, Slice.push, Store.versionsOf, List.filter_append, hv, hr, hc]

lemma slice_pushVersion_of_ne (row : CredentialVersion) (hv : s'.versions = s.versions ++ [row])
    (hr : s'.rotations = s.rotations) (hc : row.credentialId ≠ c) : s'.slice c = s.slice c := by
  simp [Store.slice, Store.versionsOf, List.filter_append, hv, hr, hc]

lemma slice_pushRotation (row : Rotation) (hv : s'.versions = s.versions)
    (hr : s'.rotations = s.rotations ++ [row]) (hc : row.credentialId = c) :
    s'.slice c = (s.slice c).pushRotation row.link := by
  simp [Store.slice, Slice.pushRotation, Store.versionsOf, List.filter_append, hv, hr, hc]

lemma slice_pushRotation_of_ne (row : Rotation) (hv : s'.versions = s.versions)
    (hr : s'.rotations = s.rotations ++ [row]) (hc : row.credentialId ≠ c) :
    s'.slice c = s.slice c := by
  simp [Store.slice, Store.versionsOf, List.filter_append, hv, hr, hc]

end ProjectVault
