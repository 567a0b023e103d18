import ProjectVault.Rotation.Inversion

/-!
The rotation operations as changes of histories.
-/

namespace ProjectVault

open Js

variable {now : ℕ} {s s' : Store}
variable {ack : Acknowledgement} {locked : Bool} {p : CredentialVersion}
  {g : CredentialVersion → CredentialVersion} {input : InitiateRotationInput}
  {res : InitiateRotationResult} {sup : Option ℕ} {r : Rotation} {f : Rotation → Rotation}
  {params : RotationParams} {rt : Runtime}

/-! ### Transitions of a rotation -/

lemma shape_purgeUnlessPurged (now : ℕ) (v : CredentialVersion) :
    (purgeUnlessPurged now v).shape = v.shape := by
  unfold purgeUnlessPurged
  split <;> rfl

lemma touches_move (h : s.WellFormed) (hr : r ∈ s.rotations) (hact : r.isActive = true)
    (hf : ∀ r, (f r).shape = r.shape) {id : ℕ} (ho : s.Owns r.credentialId id)
    (hg : ∀ v, (g v).shape = v.shape) :
    Touches r.credentialId s ((s.updateRotation r.id f).updateVersion id g) := by
  have hrot := touches_updateRotation h hr hact hf
  exact hrot.trans (touches_updateVersion (h.of_sameShape hrot.shape) (hrot.shape.owns ho) hg)

/-- The slice after moving a rotation and one of its versions. -/
lemma slice_move (h : s.WellFormed) (hr : r ∈ s.rotations) (hf : ∀ r, (f r).shape = r.shape)
    (id : ℕ) (hg : ∀ v, (g v).shape = v.shape) :
    ((s.updateRotation r.id f).updateVersion id g).slice r.credentialId =
      ((s.slice r.credentialId).setStatus r.id (f r).status).updateVersion id g := by
  rw [slice_updateVersion _ _ _ hg, slice_updateRotation_self h hr hf]

lemma acquireLoadAndAcknowledgeRotation_inr {expected : RotationStatus}
    {wrongStatus : RotationStatus → TransitionResult}
    {res : Rotation × List ChecklistItem × Bool × ℕ}
    (h : acquireLoadAndAcknowledgeRotation s locked params ack expected wrongStatus = .inr res) :
    findRotationInScope s params = some res.1 ∧ res.1.status = expected := by
  rw [acquireLoadAndAcknowledgeRotation] at h
  cases hf : acquireRotationScopedLockAndFind s locked params with
  | lockedConflict v => rw [hf] at h; simp at h
  | notFound => rw [hf] at h; simp at h
  | found r =>
    rw [hf] at h
    by_cases hst : r.status = expected
    · simp only [hst, ne_eq, not_true_eq_false, if_false] at h
      split at h
      · simp at h
      · simp only [Sum.inr.injEq] at h
        subst h
        exact ⟨acquireRotationScopedLockAndFind_found hf, hst⟩
    · simp [hst] at h

/-- The rotation a promotion or a retirement answers with. -/
def TransitionResult.moved : TransitionResult → Option Rotation
  | .promoted rotation _ _ _ => some rotation
  | .retired rotation _ _ _ => some rotation
  | _ => none

lemma evaluateChecklistAcknowledgement_inl {items : List ChecklistItem} {res : TransitionResult}
    (h : evaluateChecklistAcknowledgement items ack = .inl res) :
    res.moved = none := by
  rw [evaluateChecklistAcknowledgement] at h
  split at h
  · split at h
    · simp only [Sum.inl.injEq] at h
      rw [← h]
      rfl
    · simp at h
  · split at h
    · split at h
      · simp only [Sum.inl.injEq] at h
        rw [← h]
        rfl
      · simp at h
    · simp at h

lemma acquireLoadAndAcknowledgeRotation_inl {expected : RotationStatus}
    {wrongStatus : RotationStatus → TransitionResult} (hw : ∀ st, (wrongStatus st).moved = none)
    {res : TransitionResult}
    (h : acquireLoadAndAcknowledgeRotation s locked params ack expected wrongStatus = .inl res) :
    res.moved = none := by
  rw [acquireLoadAndAcknowledgeRotation] at h
  split at h
  · simp only [Sum.inl.injEq] at h
    rw [← h]
    rfl
  · simp only [Sum.inl.injEq] at h
    rw [← h]
    rfl
  · split at h
    · simp only [Sum.inl.injEq] at h
      rw [← h]
      exact hw _
    · dsimp only at h
      split at h
      · rename_i hev
        simp only [Sum.inl.injEq] at h
        rw [← h]
        exact evaluateChecklistAcknowledgement_inl hev
      · simp at h

/-- `promoteRotation` refuses and leaves the store alone, or moves the staged
rotation it names and makes its new version readable. -/
lemma promoteRotation_cases (h : s.WellFormed) (now : ℕ) (locked : Bool) (params : RotationParams)
    (ack : Acknowledgement) :
    ((promoteRotation s now locked params ack).2 = s ∧
        (promoteRotation s now locked params ack).1.moved = none) ∨
      ∃ r, findRotationInScope s params = some r ∧ r.status = .staged ∧
        (promoteRotation s now locked params ack).1.moved = some (casSet (fun r =>
            { r with status := .promoted, promotedAt := some now }) r.version now r) ∧
        (promoteRotation s now locked params ack).2 =
          (s.updateRotation r.id (casSet (fun r =>
            { r with status := .promoted, promotedAt := some now }) r.version now)).updateVersion
              r.newVersionId fun v => { v with promotedAt := some now } := by
  rw [promoteRotation]
  cases hl : acquireLoadAndAcknowledgeRotation s locked params ack .staged .notPromotable with
  | inl res => exact .inl ⟨rfl, acquireLoadAndAcknowledgeRotation_inl (fun _ => rfl) hl⟩
  | inr res =>
    obtain ⟨r, items, acknowledged, pendingCount⟩ := res
    obtain ⟨hfind, hst⟩ := acquireLoadAndAcknowledgeRotation_inr hl
    dsimp only at hfind hst ⊢
    split
    · rename_i hcas
      exact .inl ⟨casTransitionRotation_inr hcas, rfl⟩
    · rename_i hcas
      obtain ⟨-, -, rfl, rfl⟩ := casTransitionRotation_loaded h hfind hcas
      exact .inr ⟨r, hfind, hst, rfl, rfl⟩

/-- `retireRotation` refuses and leaves the store alone, or moves the promoted
rotation it names and purges its superseded version. -/
lemma retireRotation_cases (h : s.WellFormed) (now : ℕ) (locked : Bool) (params : RotationParams)
    (ack : Acknowledgement) :
    ((retireRotation s now locked params ack).2 = s ∧
        (retireRotation s now locked params ack).1.moved = none) ∨
      ∃ r, findRotationInScope s params = some r ∧ r.status = .promoted ∧
        (retireRotation s now locked params ack).1.moved = some (casSet (fun r =>
            { r with status := .retired, retiredAt := some now }) r.version now r) ∧
        (retireRotation s now locked params ack).2 =
          (s.updateRotation r.id (casSet (fun r =>
            { r with status := .retired, retiredAt := some now }) r.version now)).updateVersion
              r.previousVersionId (purgeUnlessPurged now) := by
  rw [retireRotation]
  cases hl : acquireLoadAndAcknowledgeRotation s locked params ack .promoted .notRetirable with
  | inl res => exact .inl ⟨rfl, acquireLoadAndAcknowledgeRotation_inl (fun _ => rfl) hl⟩
  | inr res =>
    obtain ⟨r, items, acknowledged, pendingCount⟩ := res
    obtain ⟨hfind, hst⟩ := acquireLoadAndAcknowledgeRotation_inr hl
    dsimp only at hfind hst ⊢
    split
    · rename_i hcas
      exact .inl ⟨casTransitionRotation_inr hcas, rfl⟩
    · rename_i hcas
      obtain ⟨-, -, rfl, rfl⟩ := casTransitionRotation_loaded h hfind hcas
      exact .inr ⟨r, hfind, hst, rfl, rfl⟩

lemma acquireAndLoadRotation_ok {allowed : List RotationStatus}
    (h : acquireAndLoadRotation s locked params allowed = .ok r) :
    findRotationInScope s params = some r ∧ r.status ∈ allowed := by
  rw [acquireAndLoadRotation] at h
  cases hf : acquireRotationScopedLockAndFind s locked params with
  | lockedConflict v => rw [hf] at h; simp at h
  | notFound => rw [hf] at h; simp at h
  | found q =>
    rw [hf] at h
    by_cases hst : q.status ∈ allowed
    · simp only [hst, if_true, RotationLockOutcome.ok.injEq] at h
      subst h
      exact ⟨acquireRotationScopedLockAndFind_found hf, hst⟩
    · simp [hst] at h

/-- `completeRotation` answers and leaves the store alone, or moves the
rotation in progress, whose checklist is confirmed or acknowledged to be empty,
and releases its superseded version. -/
lemma completeRotation_cases (h : s.WellFormed) (now : ℕ) (locked : Bool) (params : RotationParams)
    (ack : Bool) :
    (completeRotation s now locked params ack).2 = s ∨
      ∃ r, findRotationInScope s params = some r ∧ r.status = .inProgress ∧
        (∀ i ∈ loadChecklistItems s r.id, i.status = .confirmed) ∧
        (loadChecklistItems s r.id = [] → ack = true) ∧
        (completeRotation s now locked params ack).2 =
          (s.updateRotation r.id (casSet (fun r =>
            { r with status := .completed, completedAt := some now }) r.version now)).updateVersion
              r.previousVersionId fun v => { v with rotationLockedAt := none } := by
  rw [completeRotation]
  cases hl : acquireAndLoadRotation s locked params [.inProgress] with
  | lockedConflict v => exact .inl rfl
  | notFound => exact .inl rfl
  | notActive r =>
    dsimp only
    split <;> exact .inl rfl
  | ok r =>
    obtain ⟨hfind, hst⟩ := acquireAndLoadRotation_ok hl
    have hid : params.rotationId = r.id := (findRotationInScope_mem hfind).2.1.symm
    dsimp only
    rw [hid]
    split
    · exact .inl rfl
    · rename_i hpending
      split
      · exact .inl rfl
      · rename_i hempty
        split
        · rename_i hcas
          exact .inl (casTransitionRotation_inr hcas)
        · rename_i hcas
          obtain ⟨-, -, -, rfl⟩ := casTransitionRotation_loaded h hfind hcas
          refine .inr ⟨r, hfind, by simpa using hst, fun i hi => ?_, fun hnil => ?_, rfl⟩
          · have hdone := List.filter_eq_nil_iff.mp (not_not.mp hpending) i hi
            simpa [ChecklistItem.isPending] using hdone
          · simpa [hnil] using hempty

/-- `resumeRotation` answers and leaves the store alone, or moves the stale
rotation. -/
lemma resumeRotation_cases (h : s.WellFormed) (now : ℕ) (locked : Bool) (params : RotationParams) :
    (resumeRotation s now locked params).2 = s ∨
      ∃ r, findRotationInScope s params = some r ∧ r.status = .staleRecovery ∧
        (resumeRotation s now locked params).2 =
          s.updateRotation r.id (casSet (fun r => { r with status := .inProgress })
            r.version now) := by
  rw [resumeRotation]
  cases hl : acquireRotationScopedLockAndFind s locked params with
  | lockedConflict v => exact .inl rfl
  | notFound => exact .inl rfl
  | found r =>
    have hfind := acquireRotationScopedLockAndFind_found hl
    dsimp only
    split
    · exact .inl rfl
    · rename_i hst
      split
      · rename_i hcas
        exact .inl (casTransitionRotation_inr hcas)
      · rename_i hcas
        obtain ⟨-, -, -, rfl⟩ := casTransitionRotation_loaded h hfind hcas
        exact .inr ⟨r, hfind, by simpa using hst, rfl⟩

/-- `abandonRotation` answers and leaves the store alone, or moves an unpromoted
active rotation, gives its new version up and releases the superseded one. -/
lemma abandonRotation_cases (h : s.WellFormed) (now : ℕ) (locked : Bool) (params : RotationParams) :
    (abandonRotation s now locked params).2 = s ∨
      ∃ r, findRotationInScope s params = some r ∧ r.isActive = true ∧ r.status ≠ .promoted ∧
        (abandonRotation s now locked params).2 =
          abandonVersions (s.updateRotation r.id
            (casSet (fun r => { r with status := .abandoned }) r.version now))
            now r.newVersionId r.previousVersionId := by
  rw [abandonRotation]
  cases hl : acquireRotationScopedLockAndFind s locked params with
  | lockedConflict v => exact .inl rfl
  | notFound => exact .inl rfl
  | found r =>
    have hfind := acquireRotationScopedLockAndFind_found hl
    dsimp only
    split
    · exact .inl rfl
    · rename_i hprom
      split
      · exact .inl rfl
      · rename_i hst
        have hact : r.isActive = true := by
          rw [Rotation.isActive, decide_eq_true_eq]
          by_cases hstale : r.status = .staleRecovery
          · simp [hstale, activeRotationStatuses]
          · have hstaged : r.status = .staged := by
              by_contra hne
              exact hst ⟨hstale, hne⟩
            simp [hstaged, activeRotationStatuses]
        split
        · rename_i hcas
          exact .inl (casTransitionRotation_inr hcas)
        · rename_i hcas
          obtain ⟨-, -, rfl, rfl⟩ := casTransitionRotation_loaded h hfind hcas
          exact .inr ⟨r, hfind, hact, hprom, rfl⟩

/-- Moving a rotation and one of its versions is one change of its history. -/
lemma micro_move (h : s.WellFormed) (hr : r ∈ s.rotations) (hact : r.isActive = true)
    (hf : ∀ r, (f r).shape = r.shape) {id : ℕ} (ho : s.Owns r.credentialId id)
    (hg : ∀ v, (g v).shape = v.shape) {k : Slice.Change}
    (hstep : Slice.Step now (s.slice r.credentialId) k
      (((s.slice r.credentialId).setStatus r.id (f r).status).updateVersion id g)) :
    Micro now r.credentialId k s ((s.updateRotation r.id f).updateVersion id g) := by
  refine (touches_move h hr hact hf ho hg).micro h ?_
  rw [slice_move h hr hf id hg]
  exact hstep

lemma micro_resume (h : s.WellFormed) (hr : r ∈ s.rotations) (hst : r.status = .staleRecovery)
    (hf : ∀ r, (f r).shape = r.shape) (hf' : (f r).status = .inProgress) :
    Micro now r.credentialId .resume s (s.updateRotation r.id f) := by
  have hact : r.isActive = true := by simp [Rotation.isActive, hst, activeRotationStatuses]
  refine (touches_updateRotation h hr hact hf).micro h ?_
  rw [slice_updateRotation_self h hr hf, hf']
  exact Slice.Step.resume (link_mem_slice hr) hst

/-- Giving up an active rotation, by `abandonRotation` or in front of a
break-glass rotation. -/
lemma micro_abandon (h : s.WellFormed) (hr : r ∈ s.rotations) (hact : r.isActive = true)
    (hprom : r.status ≠ .promoted) (hf : ∀ r, (f r).shape = r.shape)
    (hst : (f r).status = .abandoned) :
    Micro now r.credentialId .abandon s
      (abandonVersions (s.updateRotation r.id f) now r.newVersionId r.previousVersionId) := by
  have hg : ∀ v : CredentialVersion, ({ v with abandonedAt := some now } : CredentialVersion).shape
      = v.shape := fun _ => rfl
  have hg' : ∀ v : CredentialVersion, ({ v with rotationLockedAt := none } : CredentialVersion).shape
      = v.shape := fun _ => rfl
  have hmove := touches_move h hr hact hf (h.owns_new hr) hg
  have hrelease := touches_updateVersion (h.of_sameShape hmove.shape)
    (hmove.shape.owns (h.owns_previous hr)) hg'
  refine (hmove.trans hrelease).micro h ?_
  rw [slice_updateVersion _ _ _ hg', slice_move h hr hf _ hg, hst]
  exact Slice.Step.abandon (link_mem_slice hr) hact hprom

/-! ### Rotations that bring a version -/

/-- Inserting the next version of a credential, marking the superseded one and
joining both by a rotation. -/
lemma insert_linked (h : s.WellFormed) {values : VersionValues} {rv : RotationValues}
    {row : CredentialVersion} {rot : Rotation} {s₁ s₂ : Store}
    {f : CredentialVersion → CredentialVersion} (hi : s.insertVersion now values = .ok (row, s₁))
    (hir : (s₁.updateVersion p.id f).insertRotation now rv = .ok (rot, s₂))
    (hf : ∀ v, (f v).shape = v.shape) (hc : values.credentialId < s.nextId)
    (hn : values.versionNumber = nextCredentialVersionNumber s values.credentialId)
    (hp : currentNonPurgedVersion s values.credentialId = some p)
    (hrc : rv.credentialId = values.credentialId) (hrp : rv.previousVersionId = p.id)
    (hrn : rv.newVersionId = row.id) :
    s₂.WellFormed ∧ (s.slice values.credentialId).Next row ∧
      s₂.slice values.credentialId =
        (((s.slice values.credentialId).push row).updateVersion p.id f).pushRotation
          ⟨rot.id, p.id, row.id, rv.status⟩ ∧
      (∀ d, d ≠ values.credentialId → s₂.slice d = s.slice d) ∧
      s₂.credentials = s.credentials := by
  obtain ⟨rfl, hs₁⟩ := insertVersion_ok hi
  obtain ⟨rfl, hs₂, hfree⟩ := insertRotation_ok hir
  have hlt : ∀ v ∈ s.versions, v.credentialId = values.credentialId →
      v.versionNumber < values.versionNumber := fun v hv hvc => by
    have := versionNumber_le_maxVersionNumber hv hvc
    rw [hn, nextCredentialVersionNumber]
    omega
  have hnext := next_of_fresh h now hlt
  have hpmem := mem_versionsOf.mp (List.mem_of_mem_filter (List.argmax_mem hp))
  have hwf₁ : s₁.WellFormed := hs₁ ▸ h.pushVersion (values.row s.nextId now) rfl hc hlt
  have hv₁ : s₁.versions = s.versions ++ [values.row s.nextId now] := by rw [hs₁]
  have hr₁ : s₁.rotations = s.rotations := by rw [hs₁]
  have hp₁ : p ∈ s₁.versions := by rw [hv₁]; exact List.mem_append_left _ hpmem.1
  have hrow₁ : values.row s.nextId now ∈ s₁.versions := by rw [hv₁]; simp
  have howns : s₁.Owns values.credentialId p.id := ⟨p, hp₁, rfl, hpmem.2⟩
  have htouch := touches_updateVersion hwf₁ howns hf
  have hwf₁' := hwf₁.of_sameShape htouch.shape
  have hv₂ : s₂.versions = (s₁.updateVersion p.id f).versions := by rw [hs₂]
  have hr₂ : s₂.rotations = (s₁.updateVersion p.id f).rotations ++
      [rv.row (s₁.updateVersion p.id f).nextId now] := by rw [hs₂]
  have hcred : (values.row s.nextId now).credentialId = values.credentialId := rfl
  refine ⟨?_, hnext, ?_, fun d hd => ?_, by rw [hs₂, hs₁]; rfl⟩
  · -- both ends of the new rotation are still in the table
    obtain ⟨p', hp', hpp⟩ := exists_of_map_eq htouch.shape.versions.symm hp₁
    obtain ⟨n', hn', hnn⟩ := exists_of_map_eq htouch.shape.versions.symm hrow₁
    simp only [CredentialVersion.shape, Prod.mk.injEq] at hpp hnn
    have hnum := hlt p hpmem.1 hpmem.2
    have hpush := hwf₁'.pushRotation (rv.row (s₁.updateVersion p.id f).nextId now) rfl
      (fun hact => hfree (of_decide_eq_true hact))
      ⟨p', hp', n', hn', hpp.1.trans hrp.symm, hnn.1.trans hrn.symm,
        hpp.2.1.trans (hpmem.2.trans hrc.symm), hnn.2.1.trans hrc.symm,
        by rw [hpp.2.2, hnn.2.2]; exact hnum⟩
    rw [hs₂]
    exact hpush
  · rw [slice_pushRotation _ hv₂ hr₂ hrc, slice_updateVersion _ _ _ hf,
      slice_pushVersion _ hv₁ hr₁ hcred]
    rw [Rotation.link, ← hrp, ← hrn]
    rfl
  · have hrne : (rv.row (s₁.updateVersion p.id f).nextId now).credentialId ≠ d := by
      intro heq
      exact hd (heq.symm.trans hrc)
    rw [slice_pushRotation_of_ne _ hv₂ hr₂ hrne, htouch.others d hd,
      slice_pushVersion_of_ne _ hv₁ hr₁ (by rw [hcred]; exact Ne.symm hd)]

/-- The steps of `stageRotation`. -/
lemma stageRotation_ok {preflight : Preflight}
    (h : stageRotation rt s now input p preflight = .ok (res, s')) :
    ∃ fields row s₁ rot s₂,
      buildNewVersionInsertFields rt p preflight.previousPlaintext preflight.targets
        input.body.newValue preflight.fieldValues = .ok fields ∧
      s.insertVersion now
        { orgId := input.orgId, credentialId := input.credentialId,
          encryptedValue := fields.encryptedValue, keyVersion := currentKeyVersion s,
          versionNumber := nextCredentialVersionNumber s input.credentialId,
          createdBy := input.userId, schemaVersion := fields.schemaVersion.getD 1,
          fieldMeta := fields.fieldMeta } = .ok (row, s₁) ∧
      (s₁.updateVersion p.id fun v => { v with rotationLockedAt := some now }).insertRotation now
        { orgId := input.orgId, projectId := input.projectId, credentialId := input.credentialId,
          newVersionId := row.id, previousVersionId := p.id, initiatedBy := input.userId,
          notes := input.body.notes, targetFields := preflight.targets } = .ok (rot, s₂) ∧
      ∃ items, res = .initiated rot items preflight.sameValueAsPrevious
        preflight.sameValueConfirmed ∧
      s' = { s₂ with checklistItems := s₂.checklistItems ++ items,
                     nextId := s₂.nextId + items.length } := by
  rw [stageRotation, bind_eq_ok] at h
  obtain ⟨fields, hfields, h⟩ := h
  rw [bind_eq_ok] at h
  obtain ⟨⟨row, s₁⟩, hrow, h⟩ := h
  dsimp only at h
  rw [bind_eq_ok] at h
  obtain ⟨⟨rot, s₂⟩, hrot, h⟩ := h
  simp only [pure, Except.pure, Except.ok.injEq, Prod.mk.injEq] at h
  exact ⟨fields, row, s₁, rot, s₂, hfields, hrow, hrot, _, h.1.symm, h.2.symm⟩

lemma lockCurrentNonPurgedVersion_ok {c : ℕ} {msg : String}
    (h : lockCurrentNonPurgedVersion s c msg = .ok p) : currentNonPurgedVersion s c = some p := by
  rw [lockCurrentNonPurgedVersion] at h
  cases hp : currentNonPurgedVersion s c with
  | none => rw [hp] at h; simp at h
  | some q =>
    rw [hp] at h
    simp only [Except.ok.injEq] at h
    rw [h]

lemma loadRotationTargetForUpdate_inr (h : loadRotationTargetForUpdate s input = .ok (.inr p)) :
    s.Places ⟨input.credentialId, input.projectId⟩ ∧
      currentNonPurgedVersion s input.credentialId = some p := by
  rw [loadRotationTargetForUpdate] at h
  split at h
  · simp at h
  · split at h
    · simp at h
    · split at h
      · simp at h
      · rename_i credential hfind
        split at h
        · simp at h
        · rw [bind_eq_ok] at h
          obtain ⟨row, hrow, hret⟩ := h
          cases hret
          exact ⟨places_iff.mpr ⟨credential, hfind⟩, lockCurrentNonPurgedVersion_ok hrow⟩

/-- An answer of `initiateRotation` that stages nothing. -/
def InitiateRotationResult.isRefusal : InitiateRotationResult → Bool
  | .initiated .. => false
  | _ => true

lemma loadRotationTargetForUpdate_inl (h : loadRotationTargetForUpdate s input = .ok (.inl res)) :
    res.isRefusal = true := by
  rw [loadRotationTargetForUpdate] at h
  split at h
  · cases h
    rfl
  · split at h
    · cases h
      rfl
    · split at h
      · cases h
        rfl
      · split at h
        · cases h
          rfl
        · rw [bind_eq_ok] at h
          obtain ⟨row, -, hret⟩ := h
          simp [pure, Except.pure] at hret

lemma computeSameValueAsPrevious_plaintext {targets : Option (List String)} {newValue : String}
    {fieldValues : Option (List (String × String))} {check : SameValueCheck}
    (h : computeSameValueAsPrevious rt p targets newValue fieldValues = .ok check) :
    check.previousPlaintext = p.encryptedValue.map withSecret := by
  rw [computeSameValueAsPrevious] at h
  cases he : p.encryptedValue with
  | none =>
    rw [he] at h
    cases h
    rfl
  | some e =>
    rw [he] at h
    cases targets with
    | none =>
      obtain ⟨value, -, hret⟩ := bind_eq_ok.mp h
      cases hret
      rfl
    | some targets =>
      obtain ⟨snapshot, -, hret⟩ := bind_eq_ok.mp h
      cases hret
      rfl

/-- A preflight refuses, or passes on the values of the superseded version. -/
lemma resolveInitiateRotationPreflight_ok {body : InitiateRotationBody}
    {res : InitiateRotationResult ⊕ Preflight}
    (h : resolveInitiateRotationPreflight rt p body = .ok res) :
    (∃ r, res = .inl r ∧ r.isRefusal = true) ∨
      ∃ preflight, res = .inr preflight ∧
        preflight.previousPlaintext = p.encryptedValue.map withSecret := by
  rw [resolveInitiateRotationPreflight] at h
  split at h
  · simp only [Except.ok.injEq] at h
    exact .inl ⟨_, h.symm, rfl⟩
  · split at h
    · simp only [Except.ok.injEq] at h
      exact .inl ⟨_, h.symm, rfl⟩
    · dsimp only at h
      split at h
      · simp only [Except.ok.injEq] at h
        exact .inl ⟨_, h.symm, rfl⟩
      · rw [bind_eq_ok] at h
        obtain ⟨check, hcheck, h⟩ := h
        split at h
        · simp only [pure, Except.pure, Except.ok.injEq] at h
          exact .inl ⟨_, h.symm, rfl⟩
        · simp only [pure, Except.pure, Except.ok.injEq] at h
          refine .inr ⟨_, h.symm, ?_⟩
          exact computeSameValueAsPrevious_plaintext hcheck

/-- `initiateRotation` refuses and leaves the store alone, or passes its
preflight and stages the rotation. -/
lemma initiateRotation_ok (h : initiateRotation rt s now locked input = .ok (res, s')) :
    (s' = s ∧ res.isRefusal = true) ∨
    ∃ p preflight, s.Places ⟨input.credentialId, input.projectId⟩ ∧
      currentNonPurgedVersion s input.credentialId = some p ∧
      preflight.previousPlaintext = p.encryptedValue.map withSecret ∧
      stageRotation rt s now input p preflight = .ok (res, s') := by
  rw [initiateRotation] at h
  split at h
  · simp at h
  · split at h
    · simp only [Except.ok.injEq, Prod.mk.injEq] at h
      exact .inl ⟨h.2.symm, by rw [← h.1]; rfl⟩
    · have hsp : initiateInSavepoint rt s now input = .ok (res, s') := by
        rw [rotationConflictOnUnique.eq_def] at h
        split at h
        · simp at h
        · exact h
      rw [initiateInSavepoint, bind_eq_ok] at hsp
      obtain ⟨loaded, hload, hsp⟩ := hsp
      cases loaded with
      | inl r =>
        simp only [pure, Except.pure, Except.ok.injEq, Prod.mk.injEq] at hsp
        exact .inl ⟨hsp.2.symm, by rw [← hsp.1]; exact loadRotationTargetForUpdate_inl hload⟩
      | inr p =>
        dsimp only at hsp
        rw [bind_eq_ok] at hsp
        obtain ⟨pre, hpre, hsp⟩ := hsp
        rcases resolveInitiateRotationPreflight_ok hpre with
          ⟨r, rfl, hr⟩ | ⟨preflight, rfl, hplain⟩
        · simp only [pure, Except.pure, Except.ok.injEq, Prod.mk.injEq] at hsp
          exact .inl ⟨hsp.2.symm, by rw [← hsp.1]; exact hr⟩
        · obtain ⟨hcred, hp⟩ := loadRotationTargetForUpdate_inr hload
          exact .inr ⟨p, preflight, hcred, hp, hplain, hsp⟩

/-- A rotation that blocks another keeps the history from being quiet. -/
lemma quiet_slice {c : ℕ}
    (h : ∀ r ∈ s.rotations, r.credentialId = c → r.isActive = false) : (s.slice c).Quiet := by
  intro l hl
  obtain ⟨r, hr, hrc, rfl⟩ := mem_slice_rotations.mp hl
  exact h r hr hrc

/-- Staging a rotation. -/
lemma micro_stage (h : s.WellFormed) {preflight : Preflight}
    (hcred : s.Places ⟨input.credentialId, input.projectId⟩)
    (hp : currentNonPurgedVersion s input.credentialId = some p)
    (hstage : stageRotation rt s now input p preflight = .ok (res, s')) :
    Micro now input.credentialId .stage s s' := by
  obtain ⟨fields, row, s₁, rot, s₂, -, hrow, hrot, items, -, hs'⟩ := stageRotation_ok hstage
  have hv : s'.versions = s₂.versions := by rw [hs']
  have hr : s'.rotations = s₂.rotations := by rw [hs']
  have hlt : input.credentialId < s.nextId := h.lt_of_places hcred
  obtain ⟨hwf, hnext, hslice, hothers, hcreds⟩ := insert_linked h hrow hrot (fun _ => rfl) hlt rfl
    hp rfl rfl rfl
  have hquiet : (s.slice input.credentialId).Quiet := by
    obtain ⟨-, -, hfree⟩ := insertRotation_ok hrot
    obtain ⟨-, rfl⟩ := insertVersion_ok hrow
    exact quiet_slice (hfree (by simp [activeRotationStatuses]))
  dsimp only at hslice hnext hothers
  refine ⟨?_, ?_, fun d hd => (slice_congr hv hr d).trans (hothers d hd),
    [], ?_, by simp⟩
  · rw [hs']
    exact hwf.of_sameShape ⟨rfl, successor_refl _, rfl, Nat.le_add_right _ _⟩
  · rw [slice_congr hv hr input.credentialId, hslice]
    obtain ⟨rfl, -⟩ := insertVersion_ok hrow
    exact Slice.Step.stage hquiet hp hnext rfl
  · rw [hs', List.append_nil]
    exact congrArg _ hcreds

/-! ### Break-glass -/

/-- What `supersedeActiveRotation` leaves: nothing was active, or the one active
rotation was given up. -/
lemma supersedeActiveRotation_ok {rowLock : Bool} {c : ℕ}
    (h : supersedeActiveRotation s now rowLock c = .ok sup s') :
    (s' = s ∧ ∀ r ∈ s.rotations, r.credentialId = c → r.isActive = false) ∨
      ∃ r ∈ s.rotations, r.credentialId = c ∧ r.isActive = true ∧ r.status ≠ .promoted ∧
        s' = abandonVersions (s.updateRotation r.id fun q =>
          { q with status := .abandoned, version := r.version + 1, updatedAt := now })
          now r.newVersionId r.previousVersionId := by
  rw [supersedeActiveRotation] at h
  split at h
  · rename_i hnone
    simp only [SupersedeResult.ok.injEq] at h
    refine .inl ⟨h.2.symm, fun r hr hrc => ?_⟩
    have hno := List.find?_eq_none.mp hnone r hr
    simpa [hrc] using hno
  · rename_i r hfind
    have hmem := List.mem_of_find?_eq_some hfind
    have hp := List.find?_some hfind
    simp only [decide_eq_true_eq] at hp
    split at h
    · simp at h
    · split at h
      · simp at h
      · rename_i hprom
        simp only [SupersedeResult.ok.injEq] at h
        exact .inr ⟨r, hmem, hp.1, hp.2, hprom, h.2.symm⟩

/-- After the one active rotation has been given up, none is left. -/
lemma inactive_after_abandon (h : s.WellFormed) (hr : r ∈ s.rotations) (hact : r.isActive = true)
    (hst : (f r).status = .abandoned) {n p : ℕ} :
    ∀ q ∈ (abandonVersions (s.updateRotation r.id f) now n p).rotations,
      q.credentialId = r.credentialId → q.isActive = false := by
  intro q hq hqc
  obtain ⟨q', hq', heq⟩ := Db.mem_updateWhere.mp hq
  by_cases hid : q'.id = r.id
  · obtain rfl := h.rotation_eq hq' hr hid
    simp only [decide_true, if_true] at heq
    rw [← heq, Rotation.isActive, hst]
    rfl
  · simp only [hid, decide_false, Bool.false_eq_true, if_false] at heq
    subst heq
    -- two active rotations of one credential would break the unique index
    refine Bool.eq_false_iff.mpr fun hq'act => hid ?_
    exact h.one_active q' hq' r hr hqc hq'act hact

lemma supersedeActiveRotation_wellFormed (h : s.WellFormed) {rowLock : Bool} {c : ℕ}
    (hsup : supersedeActiveRotation s now rowLock c = .ok sup s') :
    s'.WellFormed := by
  rcases supersedeActiveRotation_ok hsup with ⟨rfl, -⟩ | ⟨r, hr, -, hact, hprom, hs'⟩
  · exact h
  · have hm : Micro now r.credentialId .abandon s s' := by
      rw [hs']
      exact micro_abandon h hr hact hprom (fun _ => rfl) rfl
    exact hm.wellFormed

/-- The steps of `installBreakGlass`. -/
lemma installBreakGlass_ok {input : BreakGlassInput} {res : BreakGlassResult}
    (h : installBreakGlass s now input sup = .ok (res, s')) :
    ∃ p row s₁ rot, currentNonPurgedVersion s input.credentialId = some p ∧
      s.insertVersion now
        { orgId := input.orgId, credentialId := input.credentialId,
          encryptedValue := encryptValue input.newValue, keyVersion := currentKeyVersion s,
          versionNumber := nextCredentialVersionNumber s input.credentialId,
          createdBy := input.userId, promotedAt := some now } = .ok (row, s₁) ∧
      (s₁.updateVersion p.id fun v =>
        { v with rotationLockedAt := some now,
                 breakGlassOverlapExpiresAt := some (now + input.overlapMinutes * 60000)
          }).insertRotation now
        { orgId := input.orgId, projectId := input.projectId, credentialId := input.credentialId,
          newVersionId := row.id, previousVersionId := p.id, status := .breakGlassComplete,
          initiatedBy := input.userId, notes := some input.reason } = .ok (rot, s') ∧
      ∃ deps, res = .ok rot sup p.versionNumber (now + input.overlapMinutes * 60000) deps false := by
  rw [installBreakGlass, bind_eq_ok] at h
  obtain ⟨⟨p, row, s₁⟩, hcreate, h⟩ := h
  dsimp only at h
  rw [bind_eq_ok] at h
  obtain ⟨⟨rot, s₂⟩, hrot, h⟩ := h
  cases h
  rw [createBreakGlassVersion, bind_eq_ok] at hcreate
  obtain ⟨p', hp', hcreate⟩ := hcreate
  rw [bind_eq_ok] at hcreate
  obtain ⟨⟨row', s₁'⟩, hrow, hret⟩ := hcreate
  simp only [pure, Except.pure, Except.ok.injEq, Prod.mk.injEq] at hret
  obtain ⟨rfl, rfl, rfl⟩ := hret
  exact ⟨p', row', s₁', rot, lockCurrentNonPurgedVersion_ok hp', hrow, hrot, _, rfl⟩

lemma micro_breakGlass (h : s.WellFormed) {input : BreakGlassInput} {res : BreakGlassResult}
    (hcred : s.Places ⟨input.credentialId, input.projectId⟩)
    (hquiet : ∀ r ∈ s.rotations, r.credentialId = input.credentialId → r.isActive = false)
    (hinstall : installBreakGlass s now input sup = .ok (res, s')) :
    Micro now input.credentialId .breakGlass s s' := by
  obtain ⟨p, row, s₁, rot, hp, hrow, hrot, -⟩ := installBreakGlass_ok hinstall
  have hlt : input.credentialId < s.nextId := h.lt_of_places hcred
  obtain ⟨hwf, hnext, hslice, hothers, hcreds⟩ := insert_linked h hrow hrot (fun _ => rfl) hlt rfl
    hp rfl rfl rfl
  dsimp only at hslice hnext hothers
  refine ⟨hwf, ?_, hothers, [], by rw [hcreds, List.append_nil], by simp⟩
  rw [hslice]
  obtain ⟨rfl, -⟩ := insertVersion_ok hrow
  exact Slice.Step.breakGlass (quiet_slice hquiet) hp hnext rfl

/-- `breakGlassRotation` answers and leaves the store alone, or installs a
version after nothing active is left. -/
lemma breakGlassRotation_ok {rowLock : Bool} {input : BreakGlassInput} {res : BreakGlassResult}
    (h : breakGlassRotation s now locked rowLock input = .ok (res, s')) :
    (s' = s ∧ ∀ rot sup n t deps, res ≠ .ok rot sup n t deps false) ∨
      ∃ s₁ sup, s.Places ⟨input.credentialId, input.projectId⟩ ∧
        supersedeActiveRotation s now rowLock input.credentialId = .ok sup s₁ ∧
        installBreakGlass s₁ now input sup = .ok (res, s') := by
  rw [breakGlassRotation] at h
  split at h
  · simp only [Except.ok.injEq, Prod.mk.injEq] at h
    exact .inl ⟨h.2.symm, by simp [← h.1]⟩
  · split at h
    · simp only [Except.ok.injEq, Prod.mk.injEq] at h
      exact .inl ⟨h.2.symm, by simp [← h.1]⟩
    · rename_i credential hfind
      split at h
      · simp only [Except.ok.injEq, Prod.mk.injEq] at h
        exact .inl ⟨h.2.symm, by simp [← h.1]⟩
      · split at h
        · simp only [Except.ok.injEq, Prod.mk.injEq] at h
          exact .inl ⟨h.2.symm, by simp [← h.1, buildDedupedBreakGlassResult]⟩
        · split at h
          · simp only [Except.ok.injEq, Prod.mk.injEq] at h
            exact .inl ⟨h.2.symm, by simp [← h.1]⟩
          · simp only [Except.ok.injEq, Prod.mk.injEq] at h
            exact .inl ⟨h.2.symm, by simp [← h.1]⟩
          · rename_i sup s₁ hsup
            exact .inr ⟨s₁, sup, places_iff.mpr ⟨credential, hfind⟩, hsup, h⟩

end ProjectVault
