import ProjectVault.Rotation.Machine

/-!
The shape of the version and rotation tables: keys, numbering and references.
-/

namespace ProjectVault

open Js

variable {ref : CredentialRef} {v : CredentialVersion} {s s' : Store} {α : Type*}

/-! ### Shapes -/

/-- The key, owner and number of a version. -/
def CredentialVersion.shape (v : CredentialVersion) : ℕ × ℕ × ℕ :=
  (v.id, v.credentialId, v.versionNumber)

/-- The key, owner and references of a rotation. -/
def Rotation.shape (r : Rotation) : ℕ × ℕ × ℕ × ℕ :=
  (r.id, r.credentialId, r.previousVersionId, r.newVersionId)

/-- Keys, numbering and references of the tables. -/
structure Store.WellFormed (s : Store) : Prop where
  versions_sorted : s.versions.Pairwise fun a b => a.id < b.id
  versions_fresh : ∀ v ∈ s.versions, v.id < s.nextId ∧ v.credentialId < s.nextId
  numbers_sorted : s.versions.Pairwise fun a b =>
    a.credentialId = b.credentialId → a.versionNumber < b.versionNumber
  rotations_sorted : s.rotations.Pairwise fun a b => a.id < b.id
  rotations_fresh : ∀ r ∈ s.rotations, r.id < s.nextId
  rotations_linked : ∀ r ∈ s.rotations, ∃ p ∈ s.versions, ∃ n ∈ s.versions,
    p.id = r.previousVersionId ∧ n.id = r.newVersionId ∧ p.credentialId = r.credentialId ∧
      n.credentialId = r.credentialId ∧ p.versionNumber < n.versionNumber
  one_active : ∀ a ∈ s.rotations, ∀ b ∈ s.rotations, a.credentialId = b.credentialId →
    a.isActive = true → b.isActive = true → a.id = b.id
  credentials_fresh : ∀ c ∈ s.credentials, c.id < s.nextId

/-- A rotation after a change that keeps its shape and activates nothing. -/
def Rotation.Successor (q r : Rotation) : Prop :=
  q.shape = r.shape ∧ (q.isActive = true → r.isActive = true)

lemma Rotation.Successor.refl (r : Rotation) : Rotation.Successor r r := ⟨rfl, fun h => h⟩

/-- The key of a credential and the project it belongs to. -/
def Credential.place (c : Credential) : ℕ × ℕ := (c.id, c.projectId)

/-- Stores with the same keys, numbers and references, the second with no more
active rotations and at least as many keys used up. -/
structure SameShape (s s' : Store) : Prop where
  versions : s'.versions.map CredentialVersion.shape = s.versions.map CredentialVersion.shape
  rotations : List.Forall₂ Rotation.Successor s'.rotations s.rotations
  credentials : s'.credentials.map Credential.place = s.credentials.map Credential.place
  nextId : s.nextId ≤ s'.nextId

lemma successor_refl (l : List Rotation) : List.Forall₂ Rotation.Successor l l :=
  List.forall₂_same.mpr fun r _ => .refl r

lemma successor_trans {l₁ l₂ : List Rotation} (h : List.Forall₂ Rotation.Successor l₁ l₂) :
    ∀ {l₃ : List Rotation}, List.Forall₂ Rotation.Successor l₂ l₃ →
      List.Forall₂ Rotation.Successor l₁ l₃ := by
  induction h with
  | nil => exact fun h' => h'
  | cons hab _ ih =>
    intro l₃ h'
    cases h' with
    | cons hbc htl =>
      exact List.Forall₂.cons ⟨hab.1.trans hbc.1, fun ha => hbc.2 (hab.2 ha)⟩ (ih htl)

lemma SameShape.trans {s'' : Store} (h : SameShape s s') (h' : SameShape s' s'') :
    SameShape s s'' :=
  ⟨h'.versions.trans h.versions, successor_trans h'.rotations h.rotations,
    h'.credentials.trans h.credentials, h.nextId.trans h'.nextId⟩

/-- Every row has a partner of the same shape. -/
lemma exists_of_map_eq {β : Type*} {g : α → β} {l l' : List α} (h : l'.map g = l.map g) {x : α}
    (hx : x ∈ l') : ∃ y ∈ l, g y = g x := by
  have hmem : g x ∈ l.map g := by
    rw [← h]
    exact List.mem_map_of_mem hx
  obtain ⟨y, hy, hyx⟩ := List.mem_map.mp hmem
  exact ⟨y, hy, hyx⟩

lemma pairwise_of_map_eq {β : Type*} {g : α → β} {R : β → β → Prop} {l l' : List α}
    (h : l'.map g = l.map g) (hl : l.Pairwise fun a b => R (g a) (g b)) :
    l'.Pairwise fun a b => R (g a) (g b) := by
  have hmap : (l.map g).Pairwise R := List.pairwise_map.mpr hl
  rw [← h] at hmap
  exact List.pairwise_map.mp hmap

lemma exists_of_forall₂ {β : Type*} {S : α → β → Prop} {l' : List α} {l : List β}
    (h : List.Forall₂ S l' l) {x : α} (hx : x ∈ l') : ∃ y ∈ l, S x y := by
  induction h with
  | nil => simp at hx
  | cons hab _ ih =>
    rcases List.mem_cons.mp hx with rfl | hx'
    · exact ⟨_, List.mem_cons_self, hab⟩
    · obtain ⟨y, hy, hxy⟩ := ih hx'
      exact ⟨y, List.mem_cons_of_mem _ hy, hxy⟩

lemma pairwise_of_forall₂ {S R : α → α → Prop} {l l' : List α} (h : List.Forall₂ S l' l)
    (hR : ∀ a' a b' b, S a' a → S b' b → R a b → R a' b') (hl : l.Pairwise R) : l'.Pairwise R := by
  induction h with
  | nil => exact List.Pairwise.nil
  | cons hab htl ih =>
    obtain ⟨hhead, htail⟩ := List.pairwise_cons.mp hl
    refine List.pairwise_cons.mpr ⟨fun x hx => ?_, ih htail⟩
    obtain ⟨y, hy, hxy⟩ := exists_of_forall₂ htl hx
    exact hR _ _ _ _ hab hxy (hhead y hy)

/-- Well-formedness depends on the shape only. -/
lemma Store.WellFormed.of_sameShape (h : s.WellFormed) (hs : SameShape s s') :
    s'.WellFormed where
  versions_sorted := pairwise_of_map_eq (R := fun x y => x.1 < y.1) hs.versions h.versions_sorted
  versions_fresh := fun v hv => by
    obtain ⟨w, hw, hwv⟩ := exists_of_map_eq hs.versions hv
    have hfresh := h.versions_fresh w hw
    have hle := hs.nextId
    simp only [CredentialVersion.shape, Prod.mk.injEq] at hwv
    omega
  numbers_sorted :=
    pairwise_of_map_eq (R := fun x y => x.2.1 = y.2.1 → x.2.2 < y.2.2) hs.versions h.numbers_sorted
  rotations_sorted := by
    refine pairwise_of_forall₂ hs.rotations (fun a' a b' b ha hb hab => ?_) h.rotations_sorted
    have ha' := congrArg Prod.fst ha.1
    have hb' := congrArg Prod.fst hb.1
    simp only [Rotation.shape] at ha' hb'
    omega
  one_active := fun a' ha' b' hb' hc hacta hactb => by
    obtain ⟨a, ha, haa, hact⟩ := exists_of_forall₂ hs.rotations ha'
    obtain ⟨b, hb, hbb, hact'⟩ := exists_of_forall₂ hs.rotations hb'
    simp only [Rotation.shape, Prod.mk.injEq] at haa hbb
    have hid := h.one_active a ha b hb (by omega) (hact hacta) (hact' hactb)
    omega
  rotations_fresh := fun r hr => by
    obtain ⟨q, hq, hqr, -⟩ := exists_of_forall₂ hs.rotations hr
    have hfresh := h.rotations_fresh q hq
    have hle := hs.nextId
    simp only [Rotation.shape, Prod.mk.injEq] at hqr
    omega
  rotations_linked := fun r hr => by
    obtain ⟨q, hq, hqr, -⟩ := exists_of_forall₂ hs.rotations hr
    obtain ⟨p, hp, n, hn, hpid, hnid, hpc, hnc, hlt⟩ := h.rotations_linked q hq
    obtain ⟨p', hp', hpp⟩ := exists_of_map_eq hs.versions.symm hp
    obtain ⟨n', hn', hnn⟩ := exists_of_map_eq hs.versions.symm hn
    simp only [CredentialVersion.shape, Rotation.shape, Prod.mk.injEq] at hqr hpp hnn
    exact ⟨p', hp', n', hn', by omega, by omega, by omega, by omega, by omega⟩
  credentials_fresh := fun c hc => by
    obtain ⟨d, hd, hdc⟩ := exists_of_map_eq hs.credentials hc
    have hfresh := h.credentials_fresh d hd
    have hle := hs.nextId
    have hid := congrArg Prod.fst hdc
    simp only [Credential.place] at hid
    omega

lemma sameShape_updateVersion (s : Store) (id : ℕ) {f : CredentialVersion → CredentialVersion}
    (hf : ∀ v, (f v).shape = v.shape) : SameShape s (s.updateVersion id f) :=
  ⟨Db.map_updateWhere _ fun v _ _ => hf v, successor_refl _, rfl, le_rfl⟩

lemma sameShape_updateRotation (s : Store) (id : ℕ) {f : Rotation → Rotation}
    (hf : ∀ r, (f r).shape = r.shape) (hact : ∀ r ∈ s.rotations, r.id = id → r.isActive = true) :
    SameShape s (s.updateRotation id f) := by
  refine ⟨rfl, ?_, rfl, le_rfl⟩
  rw [Store.updateRotation, Db.updateWhere]
  refine List.forall₂_map_left_iff.mpr (List.forall₂_same.mpr fun r hr => ?_)
  by_cases hid : r.id = id
  · simp only [hid, decide_true, if_true]
    exact ⟨hf r, fun _ => hact r hr hid⟩
  · simp only [hid, decide_false, Bool.false_eq_true, if_false]
    exact .refl r

/-! ### Rows of a well-formed store -/

lemma Store.WellFormed.version_eq (h : s.WellFormed) {w : CredentialVersion} (hv : v ∈ s.versions)
    (hw : w ∈ s.versions) (hid : v.id = w.id) : v = w :=
  Db.eq_of_key_eq h.versions_sorted hv hw hid

lemma Store.WellFormed.rotation_eq (h : s.WellFormed) {r q : Rotation} (hr : r ∈ s.rotations)
    (hq : q ∈ s.rotations) (hid : r.id = q.id) : r = q :=
  Db.eq_of_key_eq h.rotations_sorted hr hq hid

lemma mem_versionsOf {c : ℕ} :
    v ∈ s.versionsOf c ↔ v ∈ s.versions ∧ v.credentialId = c := by
  simp [Store.versionsOf]

lemma le_foldr_max {l : List ℕ} {n : ℕ} (h : n ∈ l) : n ≤ l.foldr max 0 := by
  induction l with
  | nil => simp at h
  | cons a l ih =>
    rw [List.foldr_cons]
    rcases List.mem_cons.mp h with rfl | h'
    · exact le_max_left _ _
    · exact (ih h').trans (le_max_right _ _)

/-- The next version number is above every number in use. -/
lemma versionNumber_le_maxVersionNumber {c : ℕ} (hv : v ∈ s.versions) (hc : v.credentialId = c) :
    v.versionNumber ≤ s.maxVersionNumber c :=
  le_foldr_max (List.mem_map_of_mem (mem_versionsOf.mpr ⟨hv, hc⟩))

/-- The credential is in the project. -/
def Store.Places (s : Store) (ref : CredentialRef) : Prop :=
  (ref.credentialId, ref.projectId) ∈ s.credentials.map Credential.place

lemma places_iff :
    s.Places ref ↔ ∃ c, findCredentialInProject s ref = some c := by
  rw [Store.Places, findCredentialInProject, ← Option.isSome_iff_exists, List.find?_isSome]
  simp [Credential.place]

lemma findCredentialInProject_mem {c : Credential} (h : findCredentialInProject s ref = some c) :
    c ∈ s.credentials ∧ c.id = ref.credentialId := by
  refine ⟨List.mem_of_find?_eq_some h, ?_⟩
  have hp := List.find?_some h
  simp only [decide_eq_true_eq] at hp
  exact hp.1

lemma Store.WellFormed.lt_of_places (h : s.WellFormed) (hp : s.Places ref) :
    ref.credentialId < s.nextId := by
  obtain ⟨c, hc⟩ := places_iff.mp hp
  obtain ⟨hmem, hid⟩ := findCredentialInProject_mem hc
  exact hid ▸ h.credentials_fresh c hmem

/-! ### Inserts -/

/-- The store a transaction answered with. -/
lemma store_eq_of_ok {α : Type} {a b : α}
    (h : (Except.ok (a, s) : Except VaultError (α × Store)) = .ok (b, s')) : s' = s :=
  (congrArg Prod.snd (Except.ok.inj h)).symm

lemma insertVersion_ok {now : ℕ} {values : VersionValues} {row : CredentialVersion}
    (h : s.insertVersion now values = .ok (row, s')) :
    row = values.row s.nextId now ∧
      s' = { s with versions := s.versions ++ [row], nextId := s.nextId + 1 } := by
  rw [Store.insertVersion] at h
  split at h
  · exact absurd h (by simp)
  · cases h
    exact ⟨rfl, rfl⟩

lemma insertRotation_ok {now : ℕ} {values : RotationValues} {row : Rotation}
    (h : s.insertRotation now values = .ok (row, s')) :
    row = values.row s.nextId now ∧
      s' = { s with rotations := s.rotations ++ [row], nextId := s.nextId + 1 } ∧
      (values.status ∈ activeRotationStatuses →
        ∀ r ∈ s.rotations, r.credentialId = values.credentialId → r.isActive = false) := by
  rw [Store.insertRotation] at h
  split at h
  · exact absurd h (by simp)
  · rename_i hno
    cases h
    refine ⟨rfl, rfl, fun hact r hr hc => ?_⟩
    simp only [hact, true_and, List.any_eq_true, not_exists, not_and, Bool.and_eq_true,
      decide_eq_true_eq] at hno
    exact Bool.eq_false_iff.mpr fun h => hno r hr hc h

lemma pairwise_append_singleton {R : α → α → Prop} {l : List α} {x : α} (hl : l.Pairwise R)
    (hx : ∀ a ∈ l, R a x) : (l ++ [x]).Pairwise R := by
  refine List.pairwise_append.mpr ⟨hl, List.pairwise_singleton _ _, fun a ha b hb => ?_⟩
  rw [List.mem_singleton.mp hb]
  exact hx a ha

/-- Appending a version with a fresh key and the next number. -/
lemma Store.WellFormed.pushVersion (h : s.WellFormed) (row : CredentialVersion)
    (hid : row.id = s.nextId) (hc : row.credentialId < s.nextId)
    (hn : ∀ v ∈ s.versions, v.credentialId = row.credentialId → v.versionNumber < row.versionNumber)
    :
    Store.WellFormed { s with versions := s.versions ++ [row], nextId := s.nextId + 1 } where
  versions_sorted := pairwise_append_singleton h.versions_sorted fun v hv => by
    have := (h.versions_fresh v hv).1
    omega
  versions_fresh := fun v hv => by
    rcases List.mem_append.mp hv with hv | hv
    · have := h.versions_fresh v hv
      exact ⟨by simp only; omega, by simp only; omega⟩
    · rw [List.mem_singleton.mp hv]
      exact ⟨by simp only; omega, by simp only; omega⟩
  numbers_sorted := pairwise_append_singleton h.numbers_sorted fun v hv hvc => hn v hv hvc
  rotations_sorted := h.rotations_sorted
  rotations_fresh := fun r hr => Nat.lt_succ_of_lt (h.rotations_fresh r hr)
  rotations_linked := fun r hr => by
    obtain ⟨p, hp, n, hn', hrest⟩ := h.rotations_linked r hr
    exact ⟨p, List.mem_append_left _ hp, n, List.mem_append_left _ hn', hrest⟩
  one_active := h.one_active
  credentials_fresh := fun c hcr => Nat.lt_succ_of_lt (h.credentials_fresh c hcr)

/-- Appending a rotation between two versions of its credential. -/
lemma Store.WellFormed.pushRotation (h : s.WellFormed) (row : Rotation) (hid : row.id = s.nextId)
    (hfree : row.isActive = true →
      ∀ r ∈ s.rotations, r.credentialId = row.credentialId → r.isActive = false)
    (hlink : ∃ p ∈ s.versions, ∃ n ∈ s.versions, p.id = row.previousVersionId ∧
      n.id = row.newVersionId ∧ p.credentialId = row.credentialId ∧
      n.credentialId = row.credentialId ∧ p.versionNumber < n.versionNumber) :
    Store.WellFormed { s with rotations := s.rotations ++ [row], nextId := s.nextId + 1 } where
  versions_sorted := h.versions_sorted
  versions_fresh := fun v hv => by
    have := h.versions_fresh v hv
    exact ⟨by simp only; omega, by simp only; omega⟩
  numbers_sorted := h.numbers_sorted
  rotations_sorted := pairwise_append_singleton h.rotations_sorted fun r hr => by
    have := h.rotations_fresh r hr
    omega
  rotations_fresh := fun r hr => by
    rcases List.mem_append.mp hr with hr | hr
    · exact Nat.lt_succ_of_lt (h.rotations_fresh r hr)
    · rw [List.mem_singleton.mp hr, hid]
      exact Nat.lt_succ_self _
  rotations_linked := fun r hr => by
    rcases List.mem_append.mp hr with hr | hr
    · exact h.rotations_linked r hr
    · rw [List.mem_singleton.mp hr]
      exact hlink
  one_active := fun a ha b hb hc hacta hactb => by
    rcases List.mem_append.mp ha with ha | ha <;> rcases List.mem_append.mp hb with hb | hb
    · exact h.one_active a ha b hb hc hacta hactb
    · rw [List.mem_singleton.mp hb] at hc hactb
      exact absurd hacta (by simp [hfree hactb a ha hc])
    · rw [List.mem_singleton.mp ha] at hc hacta
      exact absurd hactb (by simp [hfree hacta b hb hc.symm])
    · rw [List.mem_singleton.mp ha, List.mem_singleton.mp hb]
  credentials_fresh := fun c hc => Nat.lt_succ_of_lt (h.credentials_fresh c hc)

/-- Appending a credential with a fresh key. -/
lemma Store.WellFormed.pushCredential (h : s.WellFormed) (row : Credential)
    (hid : row.id = s.nextId) :
    Store.WellFormed { s with credentials := s.credentials ++ [row], nextId := s.nextId + 1 } where
  versions_sorted := h.versions_sorted
  versions_fresh := fun v hv => by
    have := h.versions_fresh v hv
    exact ⟨by simp only; omega, by simp only; omega⟩
  numbers_sorted := h.numbers_sorted
  rotations_sorted := h.rotations_sorted
  rotations_fresh := fun r hr => Nat.lt_succ_of_lt (h.rotations_fresh r hr)
  rotations_linked := h.rotations_linked
  one_active := h.one_active
  credentials_fresh := fun c hc => by
    rcases List.mem_append.mp hc with hc | hc
    · exact Nat.lt_succ_of_lt (h.credentials_fresh c hc)
    · rw [List.mem_singleton.mp hc, hid]
      exact Nat.lt_succ_self _

lemma wellFormed_empty : Store.empty.WellFormed := by
  constructor <;> simp [Store.empty]

end ProjectVault
