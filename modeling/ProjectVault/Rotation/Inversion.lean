import ProjectVault.Rotation.History

/-!
What each transaction does to the history of each credential.
-/

namespace ProjectVault

open Js

variable {row : CredentialVersion} {st : Option RotationStatus} {r : Rotation}
  {f : Rotation → Rotation} {params : RotationParams} {values : VersionValues} {c : ℕ}

/-! ### Changes of a store -/

/-- A change of one credential's history; a credential that was not there before
has a version afterwards. -/
structure Micro (now c : ℕ) (k : Slice.Change) (s s' : Store) : Prop where
  wellFormed : s'.WellFormed
  step : Slice.Step now (s.slice c) k (s'.slice c)
  others : ∀ d, d ≠ c → s'.slice d = s.slice d
  credentials : ∃ new, s'.credentials.map Credential.place =
      s.credentials.map Credential.place ++ new ∧ ∀ x ∈ new, (s'.slice x.1).versions ≠ []

/-- A change of the store that no history sees. -/
structure Silent (s s' : Store) : Prop where
  wellFormed : s'.WellFormed
  slices : ∀ c, s'.slice c = s.slice c
  credentials : s'.credentials.map Credential.place = s.credentials.map Credential.place

/-- Sequences of changes, each admitted where it happens. -/
def Path (emit : Store → ℕ → Slice.Change → Prop) (now : ℕ) : Store → Store → Prop :=
  Relation.ReflTransGen fun s s' => Silent s s' ∨ ∃ c k, emit s c k ∧ Micro now c k s s'

variable {emit : Store → ℕ → Slice.Change → Prop} {now : ℕ} {s s' : Store}

lemma Silent.path (h : Silent s s') : Path emit now s s' := Relation.ReflTransGen.single (.inl h)

lemma Micro.path {k : Slice.Change} (h : Micro now c k s s') (he : emit s c k) :
    Path emit now s s' :=
  Relation.ReflTransGen.single (.inr ⟨c, k, he, h⟩)

lemma Path.refl (s : Store) : Path emit now s s := Relation.ReflTransGen.refl

lemma Path.trans {s'' : Store} (h : Path emit now s s') (h' : Path emit now s' s'') :
    Path emit now s s'' :=
  Relation.ReflTransGen.trans h h'

lemma Path.wellFormed (h : Path emit now s s') (hs : s.WellFormed) : s'.WellFormed := by
  induction h with
  | refl => exact hs
  | tail _ hlast _ =>
    rcases hlast with hsil | ⟨c, k, -, hm⟩
    · exact hsil.wellFormed
    · exact hm.wellFormed

/-- A change of columns outside the tables of versions and rotations. -/
lemma Silent.of_sameShape (h : s.WellFormed) (hs : SameShape s s')
    (hv : s'.versions = s.versions) (hr : s'.rotations = s.rotations) : Silent s s' :=
  ⟨h.of_sameShape hs, slice_congr hv hr, hs.credentials⟩

lemma Silent.refl (h : s.WellFormed) : Silent s s := ⟨h, fun _ => rfl, rfl⟩

/-! ### New versions -/

lemma insertVersionAndSetCurrent_ok (h : insertVersionAndSetCurrent s now values = .ok (row, s')) :
    row = values.row s.nextId now ∧
      s' = { s with
        versions := s.versions ++ [row]
        nextId := s.nextId + 1
        credentials := Db.updateWhere (fun c => c.id = values.credentialId)
          (fun c => { c with currentVersionId := some row.id }) s.credentials } := by
  rw [insertVersionAndSetCurrent, bind_eq_ok] at h
  obtain ⟨⟨row', s₁⟩, hi, hret⟩ := h
  obtain ⟨hrow, rfl⟩ := insertVersion_ok hi
  cases hret
  exact ⟨hrow, rfl⟩

lemma insertVersionAndSetCurrent_places
    (h : insertVersionAndSetCurrent s now values = .ok (row, s')) :
    s'.credentials.map Credential.place = s.credentials.map Credential.place := by
  rw [(insertVersionAndSetCurrent_ok h).2]
  exact Db.map_updateWhere _ fun _ _ _ => rfl

/-- A row with a fresh key and a number above its credential's is next in line. -/
lemma next_of_fresh (h : s.WellFormed) (now : ℕ)
    (hn : ∀ v ∈ s.versions, v.credentialId = values.credentialId →
      v.versionNumber < values.versionNumber) :
    (s.slice values.credentialId).Next (values.row s.nextId now) where
  purgedAt := rfl
  abandonedAt := rfl
  unlocked := rfl
  overlap := rfl
  stored := by simp [VersionValues.row]
  id_lt := fun v hv => (h.versions_fresh v (mem_slice_versions.mp hv).1).1
  number_lt := fun v hv =>
    hn v (mem_slice_versions.mp hv).1 (mem_slice_versions.mp hv).2

/-- The change an insert of a version is, by what it does to `promotedAt`. -/
def insertChange (values : VersionValues) : Slice.Change :=
  if values.promotedAt = none then .imported else .edit

lemma micro_insertVersionAndSetCurrent (h : s.WellFormed) (hc : values.credentialId < s.nextId)
    (hn : ∀ v ∈ s.versions, v.credentialId = values.credentialId →
      v.versionNumber < values.versionNumber)
    (hp : values.promotedAt = none ∨ values.promotedAt = some now)
    (hi : insertVersionAndSetCurrent s now values = .ok (row, s')) :
    Micro now values.credentialId (insertChange values) s s' := by
  have hplaces := insertVersionAndSetCurrent_places hi
  obtain ⟨rfl, hs'⟩ := insertVersionAndSetCurrent_ok hi
  have hv : s'.versions = s.versions ++ [values.row s.nextId now] := by rw [hs']
  have hr : s'.rotations = s.rotations := by rw [hs']
  have hnext := next_of_fresh h now hn
  refine ⟨?_, ?_, fun d hd => slice_pushVersion_of_ne _ hv hr (Ne.symm hd), [], ?_, by simp⟩
  · refine (h.pushVersion (values.row s.nextId now) rfl hc hn).of_sameShape ?_
    rw [hs']
    exact ⟨rfl, successor_refl _, Db.map_updateWhere _ fun _ _ _ => rfl, le_rfl⟩
  · have hcred : (values.row s.nextId now).credentialId = values.credentialId := rfl
    rw [slice_pushVersion _ hv hr hcred]
    rcases hp with hp | hp
    · rw [insertChange, if_pos hp]
      exact Slice.Step.imported hnext hp
    · rw [insertChange, if_neg (by simp [hp])]
      exact Slice.Step.edit hnext hp
  · rw [hplaces, List.append_nil]

/-- The credential a creation inserts, together with its first version. -/
lemma micro_create (h : s.WellFormed) {credential : Credential} (hid : credential.id = s.nextId)
    (hc : values.credentialId = s.nextId)
    (hp : values.promotedAt = none ∨ values.promotedAt = some now) (hi : insertVersionAndSetCurrent
      { s with credentials := s.credentials ++ [credential], nextId := s.nextId + 1 } now values =
        .ok (row, s')) :
    Micro now s.nextId (insertChange values) s s' := by
  have hm := micro_insertVersionAndSetCurrent (h.pushCredential credential hid)
    (by rw [hc]; exact Nat.lt_succ_self _)
    (fun v hv hvc => absurd (h.versions_fresh v hv).2 (by rw [hvc, hc]; exact lt_irrefl _)) hp hi
  have hslice : ∀ d, Store.slice
      { s with credentials := s.credentials ++ [credential], nextId := s.nextId + 1 } d =
        s.slice d := slice_congr rfl rfl
  obtain ⟨hrow, hs'⟩ := insertVersionAndSetCurrent_ok hi
  rw [hc] at hm
  refine ⟨hm.wellFormed, hslice _ ▸ hm.step, fun d hd => (hm.others d hd).trans (hslice d),
    [credential.place], ?_, fun x hx => ?_⟩
  · rw [insertVersionAndSetCurrent_places hi, List.map_append]
    rfl
  · refine List.ne_nil_of_mem (a := row) (mem_slice_versions.mpr ⟨by rw [hs']; simp, ?_⟩)
    rw [List.mem_singleton.mp hx, hrow]
    exact hc.trans hid.symm

/-- A credential without a key in use has no history. -/
lemma slice_eq_empty (h : s.WellFormed) (hc : s.nextId ≤ c) :
    s.slice c = Slice.empty := by
  have hv : (s.slice c).versions = [] := List.eq_nil_iff_forall_not_mem.mpr fun v hv => by
    obtain ⟨hmem, rfl⟩ := mem_slice_versions.mp hv
    have := (h.versions_fresh v hmem).2
    omega
  have hr : (s.slice c).rotations = [] := List.eq_nil_iff_forall_not_mem.mpr fun l hl => by
    obtain ⟨r, hr, rfl, rfl⟩ := mem_slice_rotations.mp hl
    obtain ⟨p, hp, n, hn, -, -, hpc, -, -⟩ := h.rotations_linked r hr
    have := (h.versions_fresh p hp).2
    omega
  rw [Slice.empty, ← hv, ← hr]

/-! ### Changes in place -/

/-- Changes in place of rows that belong to one credential. -/
structure Touches (c : ℕ) (s s' : Store) : Prop where
  shape : SameShape s s'
  others : ∀ d, d ≠ c → s'.slice d = s.slice d

lemma Touches.trans {s'' : Store} (h : Touches c s s') (h' : Touches c s' s'') :
    Touches c s s'' :=
  ⟨h.shape.trans h'.shape, fun d hd => (h'.others d hd).trans (h.others d hd)⟩

lemma Touches.micro {k : Slice.Change} (h : Touches c s s') (hs : s.WellFormed)
    (hstep : Slice.Step now (s.slice c) k (s'.slice c)) : Micro now c k s s' :=
  ⟨hs.of_sameShape h.shape, hstep, h.others,
    [], by rw [h.shape.credentials, List.append_nil], by simp⟩

/-- The version with a given key belongs to a given credential. -/
def Store.Owns (s : Store) (c id : ℕ) : Prop := ∃ v ∈ s.versions, v.id = id ∧ v.credentialId = c

lemma SameShape.owns {id : ℕ} (h : SameShape s s') (ho : s.Owns c id) : s'.Owns c id := by
  obtain ⟨v, hv, hid, hc⟩ := ho
  obtain ⟨w, hw, hwv⟩ := exists_of_map_eq h.versions.symm hv
  simp only [CredentialVersion.shape, Prod.mk.injEq] at hwv
  exact ⟨w, hw, hwv.1.trans hid, hwv.2.1.trans hc⟩

lemma Store.WellFormed.owns_new (h : s.WellFormed) (hr : r ∈ s.rotations) :
    s.Owns r.credentialId r.newVersionId := by
  obtain ⟨p, -, n, hn, -, hnid, -, hnc, -⟩ := h.rotations_linked r hr
  exact ⟨n, hn, hnid, hnc⟩

lemma Store.WellFormed.owns_previous (h : s.WellFormed) (hr : r ∈ s.rotations) :
    s.Owns r.credentialId r.previousVersionId := by
  obtain ⟨p, hp, n, -, hpid, -, hpc, -, -⟩ := h.rotations_linked r hr
  exact ⟨p, hp, hpid, hpc⟩

lemma touches_updateVersion (h : s.WellFormed) {id : ℕ} (ho : s.Owns c id)
    {f : CredentialVersion → CredentialVersion} (hf : ∀ v, (f v).shape = v.shape) :
    Touches c s (s.updateVersion id f) := by
  obtain ⟨v, hv, rfl, rfl⟩ := ho
  exact ⟨sameShape_updateVersion s v.id hf, fun d hd =>
    slice_updateVersion_of_ne h hv (Ne.symm hd) hf⟩

lemma touches_updateRotation (h : s.WellFormed) (hr : r ∈ s.rotations) (hact : r.isActive = true)
    (hf : ∀ r, (f r).shape = r.shape) :
    Touches r.credentialId s (s.updateRotation r.id f) := by
  refine ⟨sameShape_updateRotation s r.id hf fun q hq hid => ?_, fun _ hd =>
    slice_updateRotation_of_ne h hr (Ne.symm hd) hf⟩
  rw [h.rotation_eq hq hr hid]
  exact hact

/-- Setting a rotation to the status it has changes nothing. -/
lemma Slice.setStatus_self {σ : Slice} (h : σ.WellFormed) {l : RotationLink}
    (hl : l ∈ σ.rotations) : σ.setStatus l.id l.status = σ := by
  rw [Slice.setStatus, Db.updateWhere_eq_self]
  intro m hm hid
  rw [h.rotation_eq hm hl (of_decide_eq_true hid)]

lemma link_mem_slice (hr : r ∈ s.rotations) :
    r.link ∈ (s.slice r.credentialId).rotations :=
  mem_slice_rotations.mpr ⟨r, hr, rfl, rfl⟩

lemma slice_updateRotation_self (h : s.WellFormed) (hr : r ∈ s.rotations)
    (hf : ∀ r, (f r).shape = r.shape) :
    (s.updateRotation r.id f).slice r.credentialId =
      (s.slice r.credentialId).setStatus r.id (f r).status :=
  slice_updateRotation s r.credentialId r.id (f r).status hf fun q hq hid => by
    rw [h.rotation_eq hq hr hid]

/-! ### The compare-and-swap -/

/-- The columns `casTransitionRotation` writes besides the given ones. -/
def casSet (setFields : Rotation → Rotation) (observedVersion now : ℕ) (r : Rotation) : Rotation :=
  { setFields r with version := observedVersion + 1, updatedAt := now }

lemma casTransitionRotation_inr {v : ℕ} {w : Option ℕ}
    (h : casTransitionRotation s now params v f st = (.inr w, s')) : s' = s := by
  rw [casTransitionRotation] at h
  split at h
  · simp only [Prod.mk.injEq] at h
    exact h.2.symm
  · simp at h

/-- A successful compare-and-swap moves the rotation of that key. -/
lemma casTransitionRotation_inl (hs : s.WellFormed) {v : ℕ} {updated : Rotation}
    (h : casTransitionRotation s now params v f st = (.inl updated, s')) :
    ∃ r ∈ s.rotations, r.id = params.rotationId ∧ updated = casSet f v now r ∧
      s' = s.updateRotation r.id (casSet f v now) := by
  rw [casTransitionRotation] at h
  split at h
  · simp at h
  · rename_i r hr
    simp only [Prod.mk.injEq, Sum.inl.injEq] at h
    have hmem := List.mem_of_find?_eq_some hr
    have hmatch := List.find?_some hr
    simp only [casMatches, decide_eq_true_eq] at hmatch
    refine ⟨r, hmem, hmatch.1, h.1.symm, ?_⟩
    rw [← h.2, Store.updateRotation]
    congr 1
    refine Db.updateWhere_congr (fun q hq => ?_) fun _ _ _ => rfl
    by_cases hid : q.id = r.id
    · rw [hs.rotation_eq hq hmem hid]
      simp [casMatches, hmatch]
    · have hne : q.id ≠ params.rotationId := fun hq' => hid (hq'.trans hmatch.1.symm)
      simp [casMatches, hid, hne]

lemma findRotationInScope_mem (h : findRotationInScope s params = some r) :
    r ∈ s.rotations ∧ r.id = params.rotationId ∧ r.credentialId = params.credentialId := by
  have hp := List.find?_some h
  simp only [decide_eq_true_eq] at hp
  exact ⟨List.mem_of_find?_eq_some h, hp.1, hp.2.1⟩

lemma acquireRotationScopedLockAndFind_found {locked : Bool}
    (h : acquireRotationScopedLockAndFind s locked params = .found r) :
    findRotationInScope s params = some r := by
  rw [acquireRotationScopedLockAndFind] at h
  split at h
  · simp at h
  · split at h
    · simp at h
    · rename_i q hq
      simp only [RotationScopedLockResult.found.injEq] at h
      rw [hq, h]

/-- The rotation a compare-and-swap moves is the one that was loaded. -/
lemma casTransitionRotation_loaded (hs : s.WellFormed) (hr : findRotationInScope s params = some r)
    {v : ℕ} {updated : Rotation}
    (h : casTransitionRotation s now params v f st = (.inl updated, s')) :
    r ∈ s.rotations ∧ r.credentialId = params.credentialId ∧ updated = casSet f v now r ∧
      s' = s.updateRotation r.id (casSet f v now) := by
  obtain ⟨hmem, hid, hc⟩ := findRotationInScope_mem hr
  obtain ⟨q, hq, hqid, hupd, hs'⟩ := casTransitionRotation_inl hs h
  obtain rfl := hs.rotation_eq hq hmem (hqid.trans hid.symm)
  exact ⟨hmem, hc, hupd, hs'⟩

end ProjectVault
