import ProjectVault.Rotation.Paths

/-!
Every transaction as a sequence of changes of histories, and the rule this gives
for invariants of reachable stores.
-/

namespace ProjectVault

open Js

variable {now : ℕ} {s s' : Store}
variable {locked : Bool} {res : ChecklistResult} {input : ConfirmImportInput}
  {row v : CredentialVersion} {p : CredentialVersion → Bool}
  {f : CredentialVersion → CredentialVersion} {item : PendingImportItem} {params : RotationParams}
  {rt : Runtime} {σ : Slice} {k : Slice.Change} {emit : Store → ℕ → Slice.Change → Prop}
  {ok : VaultState → Timed → Prop} {c itemId userId : ℕ}

/-! ### Creations and edits -/

/-- The values of the first version of a credential. -/
def CreateCredentialInput.versionValues (input : CreateCredentialInput) (s : Store) (now : ℕ)
    (resolved : ResolvedFieldSet) : VersionValues :=
  { orgId := input.orgId, credentialId := s.nextId,
    encryptedValue := encryptValue (serializeFieldEnvelope resolved.fields),
    keyVersion := currentKeyVersion s, versionNumber := 1, createdBy := input.userId,
    schemaVersion := 2, fieldMeta := some (buildFieldMeta resolved), promotedAt := some now }

lemma createCredentialWithFirstVersion_ok {input : CreateCredentialInput}
    {detail : CredentialDetail}
    (h : createCredentialWithFirstVersion rt s now input = .ok (detail, s')) :
    ∃ resolved row, resolveFieldSet rt input.body none = .ok resolved ∧
      detail.credential = input.row s.nextId now ∧
      insertVersionAndSetCurrent
        { s with credentials := s.credentials ++ [input.row s.nextId now], nextId := s.nextId + 1 }
        now (input.versionValues s now resolved) = .ok (row, s') := by
  rw [createCredentialWithFirstVersion, bind_eq_ok] at h
  obtain ⟨resolved, hres, h⟩ := h
  rw [bind_eq_ok] at h
  obtain ⟨⟨row, s₁⟩, hins, hret⟩ := h
  cases hret
  exact ⟨resolved, row, hres, rfl, hins⟩

/-- The values of a version an edit adds. -/
def AddVersionInput.versionValues (input : AddVersionInput) (s : Store) (now : ℕ)
    (resolved : ResolvedFieldSet) : VersionValues :=
  { orgId := input.orgId, credentialId := input.credentialId,
    encryptedValue := encryptValue (serializeFieldEnvelope resolved.fields),
    keyVersion := currentKeyVersion s,
    versionNumber := s.maxVersionNumber input.credentialId + 1, createdBy := input.userId,
    schemaVersion := 2, fieldMeta := some (buildFieldMeta resolved), promotedAt := some now }

lemma versionConflictOnUnique_ok {α : Type} {x : Except VaultError α} {a : α}
    (h : versionConflictOnUnique x = .ok a) : x = .ok a := by
  rw [versionConflictOnUnique.eq_def] at h
  split at h
  · simp at h
  · exact h

/-- `addCredentialVersion` finds no credential and leaves the store alone, or
inserts the next version. -/
lemma addCredentialVersion_ok {input : AddVersionInput} {res : Option AddCredentialVersionResult}
    (h : addCredentialVersion rt s now input = .ok (res, s')) :
    (s' = s ∧ res = none) ∨
      ∃ resolved row, s.Places ⟨input.credentialId, input.projectId⟩ ∧
        resolveFieldSet rt input.body (currentFieldsForDiff s input.credentialId) = .ok resolved ∧
        insertVersionAndSetCurrent s now (input.versionValues s now resolved) = .ok (row, s') := by
  rw [addCredentialVersion] at h
  split at h
  · simp only [Except.ok.injEq, Prod.mk.injEq] at h
    exact .inl ⟨h.2.symm, h.1.symm⟩
  · rename_i credential hfind
    rw [bind_eq_ok] at h
    obtain ⟨-, -, h⟩ := h
    rw [bind_eq_ok] at h
    obtain ⟨resolved, hres, h⟩ := h
    rw [bind_eq_ok] at h
    obtain ⟨⟨row, s₁⟩, hins, hret⟩ := h
    cases hret
    exact .inr ⟨resolved, row, places_iff.mpr ⟨credential, hfind⟩, hres,
      versionConflictOnUnique_ok hins⟩

/-- The number after the highest is above every number of the credential. -/
lemma lt_maxVersionNumber_succ (hv : v ∈ s.versions) (hc : v.credentialId = c) :
    v.versionNumber < s.maxVersionNumber c + 1 :=
  Nat.lt_succ_of_le (versionNumber_le_maxVersionNumber hv hc)

/-! ### Imports -/

/-- The items a confirmation writes. -/
def writtenItems (s : Store) (now : ℕ) (input : ConfirmImportInput) : List PendingImportItem :=
  match findPendingImport s input with
  | none => []
  | some record =>
    if record.expiresAt < now then []
    else record.items.filter fun item =>
      resolveImportAction item input.defaultAction input.overrides ≠ .skip

/-- Stores between which only unreadable versions have been added. -/
structure Agrees (s₀ s : Store) : Prop where
  nextId_le : s₀.nextId ≤ s.nextId
  rotations : ∀ c, (s.slice c).rotations = (s₀.slice c).rotations
  served : ∀ c, (s.slice c).served = (s₀.slice c).served

/-- The changes a confirmation of `written` items causes, starting from `s₀`. -/
def ImportEmits (s₀ : Store) (written : List PendingImportItem) (input : ConfirmImportInput)
    (s : Store) (c : ℕ) (k : Slice.Change) : Prop :=
  k = .imported ∧ Agrees s₀ s ∧ ∃ item ∈ written, s₀.slice c = Slice.empty ∨
    (resolveImportAction item input.defaultAction input.overrides = .newVersion ∧
      item.conflictsWith = some c)

lemma Slice.served_push_unpromoted (hp : row.promotedAt = none) :
    (σ.push row).served = σ.served := by
  simp [Slice.served, Slice.push, List.filter_append, CredentialVersion.isServable, hp]

/-- An import adds an unreadable version. -/
lemma Slice.Step.imported_push {σ' : Slice} (h : Slice.Step now σ .imported σ') :
    ∃ row, σ.Next row ∧ row.promotedAt = none ∧ σ' = σ.push row := by
  cases h with
  | imported hrow hp => exact ⟨_, hrow, hp, rfl⟩

lemma Agrees.micro {s₀ : Store} (h : Agrees s₀ s) (hn : s.nextId ≤ s'.nextId)
    (hm : Micro now c .imported s s') : Agrees s₀ s' := by
  obtain ⟨row, -, hp, hpush⟩ := hm.step.imported_push
  refine ⟨h.nextId_le.trans hn, fun d => ?_, fun d => ?_⟩
  · by_cases hd : d = c
    · rw [hd, hpush, Slice.push_rotations, h.rotations c]
    · rw [hm.others d hd, h.rotations d]
  · by_cases hd : d = c
    · rw [hd, hpush, Slice.served_push_unpromoted hp, h.served c]
    · rw [hm.others d hd, h.served d]

/-- The values of an imported version. -/
def importedValues (orgId credentialId versionNumber userId : ℕ) (item : PendingImportItem) :
    VersionValues :=
  { orgId, credentialId, encryptedValue := item.encryptedValue, keyVersion := item.keyVersion,
    versionNumber, createdBy := userId, schemaVersion := 2, fieldMeta := some importFieldMeta }

lemma insertImportedVersionRow_ok {orgId credentialId versionNumber : ℕ}
    (h : insertImportedVersionRow s now orgId credentialId versionNumber userId item = .ok s') :
    ∃ row, insertVersionAndSetCurrent s now
      (importedValues orgId credentialId versionNumber userId item) = .ok (row, s') := by
  rw [insertImportedVersionRow, bind_eq_ok] at h
  obtain ⟨⟨row, s₁⟩, hins, hret⟩ := h
  cases hret
  exact ⟨row, hins⟩

lemma importConflictOnUnique_ok {α : Type} {x : Except VaultError α} {a : α}
    (h : importConflictOnUnique x = .ok a) : x = .ok a := by
  rw [importConflictOnUnique.eq_def] at h
  split at h
  · simp at h
  · exact h

lemma insertImportedVersion_ok (h : insertImportedVersion s now input c item = .ok s') :
    s.Places ⟨c, input.projectId⟩ ∧
      ∃ row, insertVersionAndSetCurrent s now (importedValues input.orgId c
        (s.maxVersionNumber c + 1) input.userId item) = .ok (row, s') := by
  rw [insertImportedVersion] at h
  split at h
  · simp at h
  · rename_i credential hfind
    rw [bind_eq_ok] at h
    obtain ⟨-, -, h⟩ := h
    exact ⟨places_iff.mpr ⟨credential, hfind⟩,
      insertImportedVersionRow_ok (importConflictOnUnique_ok h)⟩

lemma insertImportedCredential_ok {name : String}
    (h : insertImportedCredential s now input name item = .ok (c, s')) :
    c = s.nextId ∧ ∃ credential row, credential.place = (s.nextId, input.projectId) ∧
      insertVersionAndSetCurrent
        { s with credentials := s.credentials ++ [credential], nextId := s.nextId + 1 } now
        (importedValues input.orgId s.nextId 1 input.userId item) = .ok (row, s') := by
  rw [insertImportedCredential, bind_eq_ok] at h
  obtain ⟨s₁, hins, hret⟩ := h
  cases hret
  obtain ⟨row, hrow⟩ := insertImportedVersionRow_ok hins
  exact ⟨rfl, _, row, rfl, hrow⟩

lemma insertVersionAndSetCurrent_nextId {values : VersionValues}
    (h : insertVersionAndSetCurrent s now values = .ok (row, s')) : s'.nextId = s.nextId + 1 := by
  rw [(insertVersionAndSetCurrent_ok h).2]

/-- A written item adds one unreadable version, to the credential it conflicts
with or to a new one. -/
lemma confirmImportItem_path {s₀ : Store} (written : List PendingImportItem) {i : ℕ}
    {res : ImportItemResult} (h : s.WellFormed) (h₀ : s₀.WellFormed) (hag : Agrees s₀ s)
    (hmem : resolveImportAction item input.defaultAction input.overrides ≠ .skip → item ∈ written)
    (hok : confirmImportItem s now input item i = .ok (res, s')) :
    Path (ImportEmits s₀ written input) now s s' ∧ Agrees s₀ s' := by
  rw [confirmImportItem] at hok
  split at hok
  · cases hok
    exact ⟨Path.refl _, hag⟩
  · rename_i hact
    split at hok
    · simp at hok
    · rename_i c hconf
      rw [bind_eq_ok] at hok
      obtain ⟨s₁, hins, hret⟩ := hok
      cases hret
      obtain ⟨hplace, row, hrow⟩ := insertImportedVersion_ok hins
      have hm := micro_insertVersionAndSetCurrent h (h.lt_of_places hplace)
        (fun v hv hvc => lt_maxVersionNumber_succ hv hvc) (.inl rfl) hrow
      have hn := insertVersionAndSetCurrent_nextId hrow
      exact ⟨hm.path ⟨rfl, hag, item, hmem (by simp [hact]), .inr ⟨hact, hconf⟩⟩,
        hag.micro (by omega) hm⟩
  · rename_i hact
    rw [bind_eq_ok] at hok
    obtain ⟨⟨c, s₁⟩, hins, hret⟩ := hok
    cases hret
    obtain ⟨-, credential, row, hid, hrow⟩ := insertImportedCredential_ok hins
    have hm := micro_create h (congrArg Prod.fst hid) rfl (.inl rfl) hrow
    have hn := insertVersionAndSetCurrent_nextId hrow
    dsimp only at hn
    refine ⟨hm.path ⟨rfl, hag, item, hmem (by simp [hact]), .inl ?_⟩, hag.micro (by omega) hm⟩
    exact slice_eq_empty h₀ hag.nextId_le

/-- The items of a confirmation, in order. -/
lemma confirmImportItems_path {s₀ : Store} (written : List PendingImportItem) (h₀ : s₀.WellFormed)
    {items : List PendingImportItem}
    (hmem : ∀ item ∈ items, resolveImportAction item input.defaultAction input.overrides ≠ .skip →
      item ∈ written) :
    ∀ {s s' : Store} {i : ℕ} {res : List ImportItemResult}, s.WellFormed → Agrees s₀ s →
      confirmImportItems now input s i items = .ok (res, s') →
      Path (ImportEmits s₀ written input) now s s' ∧ Agrees s₀ s' := by
  induction items with
  | nil =>
    intro s s' i res _ hag hok
    simp only [confirmImportItems, Except.ok.injEq, Prod.mk.injEq] at hok
    rw [← hok.2]
    exact ⟨Path.refl _, hag⟩
  | cons item items ih =>
    intro s s' i res h hag hok
    rw [confirmImportItems, bind_eq_ok] at hok
    obtain ⟨⟨r, s₁⟩, hitem, hok⟩ := hok
    dsimp only at hok
    rw [bind_eq_ok] at hok
    obtain ⟨⟨rs, s₂⟩, hrest, hret⟩ := hok
    cases hret
    obtain ⟨hpath, hag₁⟩ := confirmImportItem_path written h h₀ hag (hmem item (by simp)) hitem
    obtain ⟨hpath₂, hag₂⟩ := ih (fun it hit => hmem it (by simp [hit])) (hpath.wellFormed h) hag₁
      hrest
    exact ⟨hpath.trans hpath₂, hag₂⟩

/-- `confirmCredentialImport` adds unreadable versions only. -/
lemma confirmCredentialImport_path {res : ConfirmImportResult} (h : s.WellFormed)
    (hok : confirmCredentialImport s now input = .ok (res, s')) :
    Path (ImportEmits s (writtenItems s now input) input) now s s' := by
  rw [confirmCredentialImport] at hok
  split at hok
  · cases hok
    exact Path.refl _
  · rename_i record hrec
    split at hok
    · cases hok
      exact Path.refl _
    · rename_i hexp
      rw [bind_eq_ok] at hok
      obtain ⟨⟨rs, s₁⟩, hitems, hret⟩ := hok
      cases hret
      have hwritten : writtenItems s now input = record.items.filter fun item =>
          resolveImportAction item input.defaultAction input.overrides ≠ .skip := by
        rw [writtenItems, hrec]
        simp only [hexp, if_false]
      have hmem : ∀ item ∈ record.items,
          resolveImportAction item input.defaultAction input.overrides ≠ .skip →
            item ∈ writtenItems s now input := fun item hit hact => by
        rw [hwritten]
        exact List.mem_filter.mpr ⟨hit, by simpa using hact⟩
      have hpath := (confirmImportItems_path _ h hmem h ⟨le_rfl, fun _ => rfl, fun _ => rfl⟩ hitems).1
      refine hpath.trans (Silent.path ?_)
      exact Silent.of_sameShape (hpath.wellFormed h) ⟨rfl, successor_refl _, rfl, le_rfl⟩ rfl rfl

/-! ### Jobs -/

lemma foldl_purgeVersion (now : ℕ) {cs : List CredentialVersion} :
    ∀ {s : Store}, (cs.map CredentialVersion.id).Nodup →
      (∀ v ∈ cs, ∃ w ∈ s.versions, w.id = v.id ∧ w.rotationLockedAt = none ∧ w.purgedAt = none) →
      cs.foldl (fun s candidate => purgeVersion s now candidate.id) s =
        { s with versions := Db.updateWhere (fun v => v.id ∈ cs.map CredentialVersion.id)
                   (CredentialVersion.purge now) s.versions } := by
  induction cs with
  | nil =>
    intro s _ _
    simp [Db.updateWhere]
  | cons c cs ih =>
    intro s hnd hex
    obtain ⟨hnot, hnd'⟩ := List.nodup_cons.mp hnd
    have hpurge : purgeVersion s now c.id =
        s.updateVersion c.id (CredentialVersion.purge now) := by
      rw [purgeVersion, if_pos]
      obtain ⟨w, hw, hwid, hlock, hpurged⟩ := hex c (by simp)
      exact List.any_eq_true.mpr ⟨w, hw, by simp [hwid, hlock, hpurged]⟩
    rw [List.foldl_cons, hpurge, ih hnd' ?_]
    · simp only [Store.updateVersion]
      congr 1
      rw [Db.updateWhere_updateWhere]
      · refine Db.updateWhere_congr (fun v _ => ?_) fun _ _ _ => rfl
        simp
      · intro v _ hv
        have hid : v.id = c.id := of_decide_eq_true hv
        simpa [CredentialVersion.purge, hid] using hnot
    · intro v hv
      obtain ⟨w, hw, hwid, hrest⟩ := hex v (by simp [hv])
      refine ⟨w, Db.mem_updateWhere.mpr ⟨w, hw, if_neg ?_⟩, hwid, hrest⟩
      have hne : w.id ≠ c.id := fun he =>
        hnot (List.mem_map.mpr ⟨v, hv, by rw [← hwid, he]⟩)
      simpa using hne

lemma mem_ranking : v ∈ σ.ranking ↔
    v ∈ σ.versions ∧ v.purgedAt = none ∧ v.rotationLockedAt = none := by
  simp [Slice.ranking]

lemma mem_purgeCandidates {k : ℕ} (h : v ∈ σ.purgeCandidates k) : v ∈ σ.ranking :=
  List.mem_of_mem_drop (List.mem_of_mem_filter h)

/-- The ranked versions have distinct keys. -/
lemma nodup_ranking (h : σ.WellFormed) :
    (σ.ranking.map CredentialVersion.id).Nodup := by
  have hnd : (σ.versions.map CredentialVersion.id).Nodup :=
    (List.pairwise_map.mpr h.versions_sorted).imp fun hlt => Nat.ne_of_lt hlt
  have hfilter := hnd.sublist ((List.filter_sublist
    (p := fun v => v.purgedAt.isNone && v.rotationLockedAt.isNone)).map CredentialVersion.id)
  exact ((List.perm_insertionSort _ _).map _).nodup_iff.mpr hfilter

lemma nodup_purgeCandidates (h : σ.WellFormed) (k : ℕ) :
    ((σ.purgeCandidates k).map CredentialVersion.id).Nodup := by
  refine (nodup_ranking h).sublist (List.Sublist.map _ ?_)
  exact List.filter_sublist.trans (List.drop_sublist _ _)

/-- A live candidate is ranked below the version the pruner takes to be current. -/
lemma exists_live_above (h : σ.WellFormed) {k : ℕ} (hv : v ∈ σ.purgeCandidates k)
    (ha : v.abandonedAt = none) :
    ∃ w ∈ σ.ranking, w.abandonedAt = none ∧ v.versionNumber < w.versionNumber := by
  have hmem := mem_purgeCandidates hv
  have hne := (List.mem_filter.mp hv).2
  cases hf : σ.ranking.find? fun v => v.abandonedAt.isNone with
  | none => exact absurd (List.find?_eq_none.mp hf v hmem) (by simp [ha])
  | some w =>
    rw [hf] at hne
    have hwa := List.find?_some hf
    obtain ⟨-, as, bs, happ, has⟩ := List.find?_eq_some_iff_append.mp hf
    have hpw := Db.sortDesc_pairwise CredentialVersion.versionNumber
      (σ.versions.filter fun v => v.purgedAt.isNone && v.rotationLockedAt.isNone)
    rw [show Db.sortDesc _ _ = σ.ranking from rfl, happ] at hpw
    have hvw : v ≠ w := fun he => by simp [he] at hne
    have hle : v.versionNumber ≤ w.versionNumber := by
      rw [happ] at hmem
      rcases List.mem_append.mp hmem with hmem | hmem
      · exact absurd (has v hmem) (by simp [ha])
      · rcases List.mem_cons.mp hmem with rfl | hmem
        · exact le_rfl
        · exact (List.pairwise_cons.mp (List.pairwise_append.mp hpw).2.1).1 v hmem
    have hwmem := List.mem_of_find?_eq_some hf
    refine ⟨w, hwmem, by simpa using hwa, lt_of_le_of_ne hle fun he => hvw ?_⟩
    exact h.eq_of_number (mem_ranking.mp (mem_purgeCandidates hv)).1 (mem_ranking.mp hwmem).1 he

/-- The top of the ranking is never a candidate. -/
lemma exists_above (h : σ.WellFormed) {k : ℕ} (hv : v ∈ σ.purgeCandidates k) :
    ∃ w ∈ σ.ranking, v.versionNumber < w.versionNumber := by
  have hdrop := List.mem_of_mem_filter hv
  have hpw := Db.sortDesc_pairwise CredentialVersion.versionNumber
    (σ.versions.filter fun v => v.purgedAt.isNone && v.rotationLockedAt.isNone)
  have hnd := nodup_ranking h
  rw [show Db.sortDesc _ _ = σ.ranking from rfl] at hpw
  cases hr : σ.ranking with
  | nil => rw [hr] at hdrop; simp at hdrop
  | cons w rest =>
    rw [hr] at hdrop hpw hnd
    have hv' : v ∈ rest := by
      obtain ⟨m, hm⟩ : ∃ m, max k 1 = m + 1 := ⟨max k 1 - 1, by omega⟩
      rw [hm, List.drop_succ_cons] at hdrop
      exact List.mem_of_mem_drop hdrop
    have hle := (List.pairwise_cons.mp hpw).1 v hv'
    refine ⟨w, by simp, lt_of_le_of_ne hle fun he => ?_⟩
    have hvmem := (mem_ranking.mp (mem_purgeCandidates hv)).1
    have hwmem := (mem_ranking.mp (hr ▸ List.mem_cons_self : w ∈ σ.ranking)).1
    have hvw := h.eq_of_number hvmem hwmem he
    rw [hvw] at hv'
    rw [List.map_cons, List.nodup_cons] at hnd
    exact hnd.1 (List.mem_map_of_mem hv')

/-- The retention transaction of a credential purges its candidates. -/
lemma pruneCredentialVersions_eq (h : s.WellFormed) (c k : ℕ) :
    pruneCredentialVersions s now c k false =
      { s with versions := Db.updateWhere
                 (fun v => v.id ∈ ((s.slice c).purgeCandidates k).map CredentialVersion.id)
                 (CredentialVersion.purge now) s.versions } := by
  have hcand : purgeCandidatesForCredential s c k = (s.slice c).purgeCandidates k := rfl
  rw [pruneCredentialVersions, if_neg Bool.false_ne_true, hcand]
  refine foldl_purgeVersion now (nodup_purgeCandidates (h.slice c) k) fun v hv => ?_
  obtain ⟨hmem, hp, hl⟩ := mem_ranking.mp (mem_purgeCandidates hv)
  exact ⟨v, (mem_slice_versions.mp hmem).1, rfl, hl, hp⟩

/-- An update of versions in place, seen from a slice. -/
lemma slice_updateWhere (hf : ∀ v, (f v).shape = v.shape) (c : ℕ) :
    Store.slice { s with versions := Db.updateWhere p f s.versions } c =
      { (s.slice c) with versions := Db.updateWhere p f (s.slice c).versions } := by
  have hc : ∀ v, (f v).credentialId = v.credentialId := fun v => congrArg (fun x => x.2.1) (hf v)
  have hfilter := Db.filter_updateWhere (p := p) (q := fun v => decide (v.credentialId = c))
    (f := f) s.versions fun v _ _ => by simp only [hc v]
  simp only [Store.slice, Store.versionsOf]
  rw [hfilter]

/-- An update of versions in place that meets rows of one credential only. -/
lemma touches_updateWhere (hf : ∀ v, (f v).shape = v.shape)
    (hp : ∀ v ∈ s.versions, p v = true → v.credentialId = c) :
    Touches c s { s with versions := Db.updateWhere p f s.versions } := by
  refine ⟨⟨Db.map_updateWhere _ fun v _ _ => hf v, successor_refl _, rfl, le_rfl⟩, fun d hd => ?_⟩
  rw [slice_updateWhere hf, Db.updateWhere_eq_self]
  intro v hv hpv
  obtain ⟨hmem, hvd⟩ := mem_slice_versions.mp hv
  exact absurd (hp v hmem hpv) (by rw [hvd]; exact hd)

lemma micro_updateWhere (h : s.WellFormed) (hstep : Slice.Step now (s.slice c) k
      ⟨Db.updateWhere p f (s.slice c).versions, (s.slice c).rotations⟩)
    (hp : ∀ v ∈ s.versions, p v = true → v.credentialId = c) (hf : ∀ v, (f v).shape = v.shape) :
    Micro now c k s { s with versions := Db.updateWhere p f s.versions } := by
  refine (touches_updateWhere hf hp).micro h ?_
  rw [slice_updateWhere hf]
  exact hstep

lemma micro_prune (h : s.WellFormed) (c k : ℕ) :
    Micro now c (.prune k) s (pruneCredentialVersions s now c k false) := by
  rw [pruneCredentialVersions_eq h]
  refine micro_updateWhere h (Slice.Step.prune k) (fun v hv hid => ?_) fun _ => rfl
  obtain ⟨w, hw, hwid⟩ := List.mem_map.mp (of_decide_eq_true hid)
  obtain ⟨hmem, hwc⟩ := mem_slice_versions.mp (mem_ranking.mp (mem_purgeCandidates hw)).1
  rw [h.version_eq hv hmem hwid.symm, hwc]

/-- The expiry of an overlap is a change of the history the version belongs to. -/
lemma expireOneVersion_path (h : s.WellFormed) (he : ∀ c, emit s c .expire) (locked : Bool) (id : ℕ)
    :
    Path emit now s (expireOneVersion s now locked id) := by
  rw [expireOneVersion]
  split
  · exact Path.refl _
  · by_cases hex : ∃ v ∈ s.versions, v.id = id
    · obtain ⟨v, hv, rfl⟩ := hex
      refine Micro.path (micro_updateWhere h (Slice.Step.expire v.id) (fun w hw hp => ?_)
        fun _ => rfl) (he v.credentialId)
      simp only [Bool.and_eq_true, decide_eq_true_eq] at hp
      rw [h.version_eq hw hv hp.1]
    · rw [Db.updateWhere_eq_self]
      · exact Path.refl _
      · intro v hv hp
        simp only [Bool.and_eq_true, decide_eq_true_eq] at hp
        exact absurd ⟨v, hv, hp.1⟩ hex

/-- The recovery of a stale rotation moves it and resets its checklist. -/
lemma recoverOneRotation_path (h : s.WellFormed) (he : ∀ c, emit s c .recover) (locked : Bool)
    (id : ℕ) :
    Path emit now s (recoverOneRotation s now locked id) := by
  rw [recoverOneRotation]
  split
  · exact Path.refl _
  · split
    · rename_i hany
      obtain ⟨r, hr, hp⟩ := List.any_eq_true.mp hany
      simp only [decide_eq_true_eq] at hp
      obtain ⟨rfl, hst⟩ := hp
      have hact : r.isActive = true := by simp [Rotation.isActive, hst, activeRotationStatuses]
      have hf : ∀ q : Rotation, (q.markStale now).shape = q.shape := fun _ => rfl
      have htouch := touches_updateRotation h hr hact hf
      have hm : Micro now r.credentialId .recover s (s.updateRotation r.id (Rotation.markStale now)) :=
        htouch.micro h (by
          rw [slice_updateRotation_self h hr hf]
          exact Slice.Step.recover (link_mem_slice hr) hst)
      have heq : Db.updateWhere (fun q => decide (q.id = r.id ∧ q.status = .inProgress))
          (Rotation.markStale now) s.rotations =
            (s.updateRotation r.id (Rotation.markStale now)).rotations := by
        refine Db.updateWhere_congr (fun q hq => ?_) fun _ _ _ => rfl
        by_cases hid : q.id = r.id
        · rw [h.rotation_eq hq hr hid]
          simp [hst]
        · simp [hid]
      refine (hm.path (he _)).trans (Silent.path ?_)
      refine Silent.of_sameShape hm.wellFormed ⟨rfl, ?_, rfl, le_rfl⟩ rfl heq
      rw [heq]
      exact successor_refl _
    · exact Path.refl _

lemma acquireLockAndItem_inr {res : Rotation × ChecklistItem}
    (h : acquireLockAndItem s locked params itemId = .inr res) :
    findRotationInScope s params = some res.1 ∧ res.1.isActive = true := by
  rw [acquireLockAndItem] at h
  split at h
  · simp at h
  · simp at h
  · simp at h
  · rename_i r hload
    obtain ⟨hfind, hst⟩ := acquireAndLoadRotation_ok hload
    split at h
    · simp at h
    · simp only [Sum.inr.injEq] at h
      subst h
      refine ⟨hfind, ?_⟩
      rw [Rotation.isActive, decide_eq_true_eq]
      simp only [checklistActionAllowedStatuses, List.mem_cons, List.not_mem_nil, or_false] at hst
      rcases hst with hst | hst | hst <;> simp [hst, activeRotationStatuses]

/-- A checklist action bumps the version of its rotation, which no history sees. -/
lemma reserveVersionAndUpdateItem_silent (h : s.WellFormed) {r : Rotation}
    (hfind : findRotationInScope s params = some r) (hact : r.isActive = true) {v : ℕ}
    {st : Option ChecklistStatus} {f : ChecklistItem → ChecklistItem} {label : String}
    {res : Option ℕ ⊕ ChecklistItem × ℕ}
    (hok : reserveVersionAndUpdateItem s now params itemId v st f label = .ok (res, s')) :
    Silent s s' := by
  have hself := Silent.refl h
  rw [reserveVersionAndUpdateItem] at hok
  split at hok
  · rename_i hcas
    simp only [Except.ok.injEq, Prod.mk.injEq] at hok
    rw [← hok.2, casTransitionRotation_inr hcas]
    exact hself
  · rename_i updated s₁ hcas
    obtain ⟨hr, -, -, hs₁⟩ := casTransitionRotation_loaded h hfind hcas
    have hf : ∀ q : Rotation, (casSet id v now q).shape = q.shape := fun _ => rfl
    have htouch := touches_updateRotation h hr hact hf
    have hslices : ∀ c, (s.updateRotation r.id (casSet id v now)).slice c = s.slice c := by
      intro c
      by_cases hc : c = r.credentialId
      · rw [hc, slice_updateRotation_self h hr hf]
        exact Slice.setStatus_self (h.slice _) (link_mem_slice hr)
      · exact htouch.others c hc
    split at hok
    · simp at hok
    · simp only [Except.ok.injEq, Prod.mk.injEq] at hok
      rw [← hok.2, hs₁]
      refine ⟨(h.of_sameShape htouch.shape).of_sameShape ⟨rfl, successor_refl _, rfl, le_rfl⟩,
        fun c => ?_, rfl⟩
      exact (slice_congr rfl rfl c).trans (hslices c)

/-- A checklist action ends in the store its reservation left. -/
lemma reserve_bind_silent (h : s.WellFormed) {r : Rotation}
    (hfind : findRotationInScope s params = some r) (hact : r.isActive = true) {v : ℕ}
    {st : Option ChecklistStatus} {f : ChecklistItem → ChecklistItem} {label : String}
    {k : (Option ℕ ⊕ ChecklistItem × ℕ) × Store → Except VaultError (ChecklistResult × Store)}
    (hk : ∀ x res s', k x = .ok (res, s') → s' = x.2)
    (hok : (reserveVersionAndUpdateItem s now params itemId v st f label >>= k) = .ok (res, s')) :
    Silent s s' := by
  obtain ⟨x, hres, hret⟩ := bind_eq_ok.mp hok
  rw [hk x res s' hret]
  exact reserveVersionAndUpdateItem_silent h hfind hact hres

lemma confirmChecklistItem_silent (h : s.WellFormed) {notes : Option String}
    (hok : confirmChecklistItem s now locked params itemId userId notes = .ok (res, s')) :
    Silent s s' := by
  have hself := Silent.refl h
  rw [confirmChecklistItem] at hok
  split at hok
  · rw [store_eq_of_ok hok]
    exact hself
  · rename_i r item hload
    obtain ⟨hfind, hact⟩ := acquireLockAndItem_inr hload
    split at hok
    · rw [store_eq_of_ok hok]
      exact hself
    · refine reserve_bind_silent h hfind hact ?_ hok
      rintro ⟨w | y, s₁⟩ res s' hx <;> exact store_eq_of_ok hx

lemma failChecklistItem_silent (h : s.WellFormed) {reason : String} {retryScheduledAt : Option ℕ}
    (hok : failChecklistItem s now locked params itemId userId reason retryScheduledAt =
      .ok (res, s')) : Silent s s' := by
  have hself := Silent.refl h
  rw [failChecklistItem] at hok
  split at hok
  · rw [store_eq_of_ok hok]
    exact hself
  · rename_i r item hload
    obtain ⟨hfind, hact⟩ := acquireLockAndItem_inr hload
    split at hok
    · rw [store_eq_of_ok hok]
      exact hself
    · refine reserve_bind_silent h hfind hact ?_ hok
      rintro ⟨w | y, s₁⟩ res s' hx <;> exact store_eq_of_ok hx

lemma retryChecklistItem_silent (h : s.WellFormed) {maxRetries : ℕ}
    (hok : retryChecklistItem s now locked params itemId userId maxRetries = .ok (res, s')) :
    Silent s s' := by
  have hself := Silent.refl h
  rw [retryChecklistItem] at hok
  split at hok
  · rw [store_eq_of_ok hok]
    exact hself
  · rename_i r item hload
    obtain ⟨hfind, hact⟩ := acquireLockAndItem_inr hload
    split at hok
    · rw [store_eq_of_ok hok]
      exact hself
    · split at hok
      · refine reserve_bind_silent h hfind hact ?_ hok
        rintro ⟨w | y, s₁⟩ res s' hx <;> exact store_eq_of_ok hx
      · refine reserve_bind_silent h hfind hact ?_ hok
        rintro ⟨w | y, s₁⟩ res s' hx <;> exact store_eq_of_ok hx

/-! ### All operations -/

/-- The changes that neither add a readable or imported version nor promote one. -/
def Slice.Change.isRoutine : Slice.Change → Bool
  | .edit => false
  | .imported => false
  | .promote _ => false
  | _ => true

/-- The changes an operation, started in `s₀`, can cause in a store `s` it passes
through. -/
def Op.Emits (s₀ : Store) (now : ℕ) (op : Op) (s : Store) (c : ℕ) (k : Slice.Change) : Prop :=
  match op with
  | .createCredential _ => k = .edit ∧ s.slice c = Slice.empty
  | .addVersion input => k = .edit ∧ s = s₀ ∧ c = input.credentialId
  | .confirmImport input => ImportEmits s₀ (writtenItems s₀ now input) input s c k
  | .promote _ params _ => ∃ r, findRotationInScope s₀ params = some r ∧ r.status = .staged ∧
      s = s₀ ∧ c = r.credentialId ∧ k = .promote r.newVersionId
  | _ => k.isRoutine = true

/-- A rolled back or committed transaction, from the committed ones. -/
lemma committed_path {α : Type} {x : Except VaultError (α × Store)}
    (h : ∀ a s', x = .ok (a, s') → Path emit now s s') : Path emit now s (committed s x) := by
  cases hx : x with
  | error e => exact Path.refl _
  | ok res =>
    obtain ⟨a, s'⟩ := res
    exact h a s' hx

lemma createCredential_path (h : s.WellFormed) {input : CreateCredentialInput}
    {detail : CredentialDetail}
    (hok : createCredentialWithFirstVersion rt s now input = .ok (detail, s')) :
    Path (Op.Emits s now (.createCredential input)) now s s' := by
  obtain ⟨resolved, row, -, -, hins⟩ := createCredentialWithFirstVersion_ok hok
  have hm := micro_create h rfl rfl (.inr rfl) hins
  exact hm.path ⟨rfl, slice_eq_empty h le_rfl⟩

lemma addVersion_path (h : s.WellFormed) {input : AddVersionInput}
    {res : Option AddCredentialVersionResult}
    (hok : addCredentialVersion rt s now input = .ok (res, s')) :
    Path (Op.Emits s now (.addVersion input)) now s s' := by
  rcases addCredentialVersion_ok hok with ⟨rfl, -⟩ | ⟨resolved, row, hplace, -, hins⟩
  · exact Path.refl _
  · have hm := micro_insertVersionAndSetCurrent h (h.lt_of_places hplace)
      (fun v hv hvc => lt_maxVersionNumber_succ hv hvc) (.inr rfl) hins
    exact hm.path ⟨rfl, rfl, rfl⟩

lemma breakGlass_path (h : s.WellFormed) (emit : Store → ℕ → Slice.Change → Prop)
    (he : ∀ s c k, Slice.Change.isRoutine k = true → emit s c k) {rowLock : Bool}
    {input : BreakGlassInput} {res : BreakGlassResult}
    (hok : breakGlassRotation s now locked rowLock input = .ok (res, s')) :
    Path emit now s s' := by
  rcases breakGlassRotation_ok hok with ⟨rfl, -⟩ | ⟨s₁, sup, hcred, hsup, hinst⟩
  · exact Path.refl _
  · rcases supersedeActiveRotation_ok hsup with ⟨rfl, hfree⟩ | ⟨r, hr, hrc, hact, hprom, rfl⟩
    · exact (micro_breakGlass h hcred hfree hinst).path (he _ _ _ rfl)
    · have hm : Micro now r.credentialId .abandon s (abandonVersions (s.updateRotation r.id
          fun q => { q with status := .abandoned, version := r.version + 1, updatedAt := now })
          now r.newVersionId r.previousVersionId) :=
        micro_abandon h hr hact hprom (fun _ => rfl) rfl
      refine (hm.path (he _ _ _ rfl)).trans
        ((micro_breakGlass hm.wellFormed hcred (fun q hq hqc => ?_) hinst).path (he _ _ _ rfl))
      exact inactive_after_abandon h hr hact rfl q hq (hqc.trans hrc.symm)

/-- Every transaction is a sequence of changes of histories, through well-formed
stores. -/
theorem apply_path (rt : Runtime) (h : s.WellFormed) (now : ℕ) (op : Op) :
    Path (op.Emits s now) now s (op.apply rt s now) := by
  cases op with
  | createCredential input => exact committed_path fun _ _ hok => createCredential_path h hok
  | addVersion input => exact committed_path fun _ _ hok => addVersion_path h hok
  | stageImport input =>
    refine Silent.path (Silent.of_sameShape h ?_ ?_ ?_)
    · simp only [Op.apply, stageCredentialImport]
      split
      · exact ⟨rfl, successor_refl _, rfl, le_rfl⟩
      · split
        · exact ⟨rfl, successor_refl _, rfl, le_rfl⟩
        · exact ⟨rfl, successor_refl _, rfl, Nat.le_succ _⟩
    · simp only [Op.apply, stageCredentialImport]
      split
      · rfl
      · split <;> rfl
    · simp only [Op.apply, stageCredentialImport]
      split
      · rfl
      · split <;> rfl
  | confirmImport input =>
    exact committed_path fun _ _ hok => confirmCredentialImport_path h hok
  | initiate locked input =>
    refine committed_path fun _ _ hok => ?_
    rcases initiateRotation_ok hok with ⟨rfl, -⟩ | ⟨p, preflight, hcred, hp, -, hstage⟩
    · exact Path.refl _
    · exact (micro_stage h hcred hp hstage).path rfl
  | confirmItem locked params itemId userId notes =>
    exact committed_path fun _ _ hok => (confirmChecklistItem_silent h hok).path
  | failItem locked params itemId userId reason retryScheduledAt =>
    exact committed_path fun _ _ hok => (failChecklistItem_silent h hok).path
  | retryItem locked params itemId userId maxRetries =>
    exact committed_path fun _ _ hok => (retryChecklistItem_silent h hok).path
  | complete locked params ack =>
    rcases completeRotation_cases h now locked params ack with
      heq | ⟨r, hfind, hst, -, -, heq⟩
    · rw [Op.apply, heq]
      exact Path.refl _
    · rw [Op.apply, heq]
      have hr := (findRotationInScope_mem hfind).1
      have hact : r.isActive = true := by simp [Rotation.isActive, hst, activeRotationStatuses]
      refine Micro.path (c := r.credentialId) (k := .complete) ?_ rfl
      refine micro_move h hr hact ?_ (h.owns_previous hr) ?_
        (Slice.Step.complete (link_mem_slice hr) hst)
      · exact fun _ => rfl
      · exact fun _ => rfl
  | promote locked params ack =>
    rcases promoteRotation_cases h now locked params ack with
      ⟨heq, -⟩ | ⟨r, hfind, hst, -, heq⟩
    · rw [Op.apply, heq]
      exact Path.refl _
    · rw [Op.apply, heq]
      have hr := (findRotationInScope_mem hfind).1
      have hact : r.isActive = true := by simp [Rotation.isActive, hst, activeRotationStatuses]
      refine Micro.path (c := r.credentialId) (k := .promote r.newVersionId) ?_
        ⟨r, hfind, hst, rfl, rfl, rfl⟩
      refine micro_move h hr hact ?_ (h.owns_new hr) ?_
        (Slice.Step.promote (link_mem_slice hr) hst)
      · exact fun _ => rfl
      · exact fun _ => rfl
  | retire locked params ack =>
    rcases retireRotation_cases h now locked params ack with
      ⟨heq, -⟩ | ⟨r, hfind, hst, -, heq⟩
    · rw [Op.apply, heq]
      exact Path.refl _
    · rw [Op.apply, heq]
      have hr := (findRotationInScope_mem hfind).1
      have hact : r.isActive = true := by simp [Rotation.isActive, hst, activeRotationStatuses]
      refine Micro.path (c := r.credentialId) (k := .retire) ?_ rfl
      refine micro_move h hr hact ?_ (h.owns_previous hr) (shape_purgeUnlessPurged now)
        (Slice.Step.retire (link_mem_slice hr) hst)
      exact fun _ => rfl
  | resume locked params =>
    rcases resumeRotation_cases h now locked params with heq | ⟨r, hfind, hst, heq⟩
    · rw [Op.apply, heq]
      exact Path.refl _
    · rw [Op.apply, heq]
      refine Micro.path (c := r.credentialId) (k := .resume) ?_ rfl
      exact micro_resume h (findRotationInScope_mem hfind).1 hst (fun _ => rfl) rfl
  | abandon locked params =>
    rcases abandonRotation_cases h now locked params with
      heq | ⟨r, hfind, hact, hprom, heq⟩
    · rw [Op.apply, heq]
      exact Path.refl _
    · rw [Op.apply, heq]
      refine Micro.path (c := r.credentialId) (k := .abandon) ?_ rfl
      exact micro_abandon h (findRotationInScope_mem hfind).1 hact hprom (fun _ => rfl) rfl
  | breakGlass locked rowLock input =>
    exact committed_path fun _ _ hok => breakGlass_path h _ (fun _ _ _ hk => hk) hok
  | expireOverlap locked versionId => exact expireOneVersion_path h (fun _ => rfl) locked versionId
  | recover locked rotationId => exact recoverOneRotation_path h (fun _ => rfl) locked rotationId
  | prune credentialId retentionCount dryRun =>
    cases dryRun with
    | true => exact Path.refl _
    | false => exact (micro_prune h credentialId retentionCount).path rfl
  | archiveCredential credentialId archivedAt =>
    exact Silent.path (Silent.of_sameShape h
      ⟨rfl, successor_refl _, Db.map_updateWhere _ fun _ _ _ => rfl, le_rfl⟩ rfl rfl)
  | environment projects memberships dependencies =>
    exact Silent.path (Silent.of_sameShape h ⟨rfl, successor_refl _, rfl, le_rfl⟩ rfl rfl)

/-! ### Invariants of reachable stores -/

/-- What every admitted change of a slice keeps, a sequence of changes keeps. -/
lemma Path.slice_invariant {I : ℕ → Slice → Prop}
    (hstep : ∀ s c k σ', s.WellFormed → σ'.WellFormed → I c (s.slice c) → emit s c k →
      Slice.Step now (s.slice c) k σ' → I c σ') (hpath : Path emit now s s') (hs : s.WellFormed)
    (hI : ∀ c, I c (s.slice c)) :
    ∀ c, I c (s'.slice c) := by
  induction hpath with
  | refl => exact hI
  | tail hprev hlast ih =>
    intro d
    rcases hlast with hsil | ⟨c, k, hk, hm⟩
    · rw [hsil.slices d]
      exact ih d
    · by_cases hd : d = c
      · rw [hd]
        exact hstep _ c k _ (Path.wellFormed hprev hs) (hm.wellFormed.slice c) (ih c) hk hm.step
      · rw [hm.others d hd]
        exact ih d

/-- **Invariant rule for histories**: what every admitted change of a slice keeps
holds of every slice of every store a run with admitted transactions reaches. -/
theorem slice_invariant {I : ℕ → Slice → Prop} {G : ℕ → Slice → Slice.Change → Prop}
    (hempty : I 0 Slice.empty) (hmono : ∀ t now σ, t ≤ now → I t σ → I now σ)
    (hguard : ∀ v a, ok v a → ∀ s c k, a.op.Emits v.store a.now s c k → G a.now (s.slice c) k)
    (hstep : ∀ now σ σ' k, σ.WellFormed → σ'.WellFormed → I now σ → G now σ k →
      Slice.Step now σ k σ' → I now σ') {v : VaultState} (h : (vault rt).Reaches ok v) :
    v.store.WellFormed ∧ ∀ c, I v.clock (v.store.slice c) := by
  refine Run.System.Reaches.invariant (P := fun v : VaultState =>
    v.store.WellFormed ∧ ∀ c, I v.clock (v.store.slice c)) ?_ ?_ h
  · exact ⟨wellFormed_empty, fun c => hempty⟩
  · rintro ⟨s, t⟩ ⟨now, op⟩ v' ⟨hwf, hI⟩ hok hv'
    simp only [vault] at hv'
    split at hv'
    · rename_i hle
      cases hv'
      have hpath := apply_path rt hwf now op
      refine ⟨hpath.wellFormed hwf, hpath.slice_invariant (I := fun _ => I now) ?_ hwf
        fun c => hmono t now _ hle (hI c)⟩
      intro s' c k σ' hs' hσ' hIc hk hst
      exact hstep now _ σ' k (hs'.slice c) hσ' hIc (hguard _ _ hok s' c k hk) hst
    · simp at hv'

/-! ### Facts of every run -/

/-- A row that was not purged still has its value, and no row was promoted later
than now. -/
def CredentialVersion.Sound (now : ℕ) (v : CredentialVersion) : Prop :=
  (v.purgedAt = none → v.encryptedValue ≠ none) ∧ ∀ t, v.promotedAt = some t → t ≤ now

/-- Every row of the slice is sound. -/
def Slice.Sound (now : ℕ) (σ : Slice) : Prop := ∀ v ∈ σ.versions, v.Sound now

lemma sound_updateWhere {vs : List CredentialVersion} (h : ∀ v ∈ vs, v.Sound now)
    (hf : ∀ v, v.Sound now → (f v).Sound now) : ∀ x ∈ Db.updateWhere p f vs, x.Sound now := by
  intro x hx
  obtain ⟨v, hv, rfl⟩ := Db.mem_updateWhere.mp hx
  split
  · exact hf v (h v hv)
  · exact h v hv

lemma Slice.Sound.push (h : σ.Sound now) (hrow : σ.Next row)
    (hp : row.promotedAt = none ∨ row.promotedAt = some now) :
    (σ.push row).Sound now := by
  intro x hx
  rcases Slice.mem_push.mp hx with hx | rfl
  · exact h x hx
  · refine ⟨fun _ => hrow.stored, fun t ht => ?_⟩
    rcases hp with hp | hp
    · simp [hp] at ht
    · rw [hp] at ht
      exact le_of_eq (Option.some.inj ht).symm

lemma sound_purge (h : v.Sound now) : (v.purge now).Sound now :=
  ⟨by simp [CredentialVersion.purge], h.2⟩

lemma sound_purgeUnlessPurged (h : v.Sound now) :
    (purgeUnlessPurged now v).Sound now := by
  unfold purgeUnlessPurged
  split
  · exact ⟨by simp, h.2⟩
  · exact h

/-- Every change keeps the rows sound. -/
lemma Slice.Sound.step {σ' : Slice} (h : σ.Sound now) (hstep : Slice.Step now σ k σ') :
    σ'.Sound now := by
  cases hstep with
  | edit hrow hp => exact h.push hrow (.inr hp)
  | imported hrow hp => exact h.push hrow (.inl hp)
  | stage _ _ hrow hp =>
    refine sound_updateWhere (h.push hrow (.inl hp)) ?_
    exact fun v hv => hv
  | promote =>
    refine sound_updateWhere h ?_
    exact fun v hv => ⟨hv.1, fun t ht => le_of_eq (Option.some.inj ht).symm⟩
  | retire => exact sound_updateWhere h fun _ => sound_purgeUnlessPurged
  | complete =>
    refine sound_updateWhere h ?_
    exact fun v hv => hv
  | resume => exact h
  | recover => exact h
  | abandon =>
    refine sound_updateWhere (sound_updateWhere h ?_) ?_
    · exact fun v hv => hv
    · exact fun v hv => hv
  | breakGlass _ _ hrow hp =>
    refine sound_updateWhere (h.push hrow (.inr hp)) ?_
    exact fun v hv => hv
  | expire id =>
    refine sound_updateWhere h ?_
    exact fun v hv => hv
  | prune k => exact sound_updateWhere h fun _ => sound_purge

lemma Slice.Sound.mono {t : ℕ} (h : σ.Sound t) (ht : t ≤ now) : σ.Sound now :=
  fun v hv => ⟨(h v hv).1, fun u hu => ((h v hv).2 u hu).trans ht⟩

/-- In every reachable store the tables are well formed and the rows sound. -/
theorem reachable_sound {v : VaultState} (h : (vault rt).Reaches ok v) :
    v.store.WellFormed ∧ ∀ c, (v.store.slice c).Sound v.clock :=
  slice_invariant (I := Slice.Sound) (G := fun _ _ _ => True) (fun v hv => by simp [Slice.empty] at hv)
    (fun _ _ _ ht hI => hI.mono ht) (fun _ _ _ _ _ _ _ => trivial)
    (fun _ _ _ _ _ _ hI _ hst => hI.step hst) h

/-- No change takes the last version away. -/
lemma Slice.Step.versions_ne_nil {σ' : Slice} (hstep : Slice.Step now σ k σ') (h : σ.versions ≠ [])
    : σ'.versions ≠ [] := by
  cases hstep <;> simp [Slice.push, Slice.pushRotation, Slice.updateVersion, Slice.setStatus,
    Db.updateWhere, h]

lemma Micro.versions_ne_nil {d : ℕ} (hm : Micro now c k s s') (h : (s.slice d).versions ≠ []) :
    (s'.slice d).versions ≠ [] := by
  by_cases hd : d = c
  · rw [hd]
    exact hm.step.versions_ne_nil (hd ▸ h)
  · rw [hm.others d hd]
    exact h

/-- Every credential has a version. -/
def Store.Inhabited (s : Store) : Prop :=
  ∀ x ∈ s.credentials.map Credential.place, (s.slice x.1).versions ≠ []

/-- A sequence of changes keeps the credentials it finds and gives every new one a
version. -/
lemma Path.credentials (hpath : Path emit now s s') :
    ∃ new, s'.credentials.map Credential.place = s.credentials.map Credential.place ++ new ∧
      ∀ x ∈ new, (s'.slice x.1).versions ≠ [] := by
  induction hpath with
  | refl => exact ⟨[], by simp, by simp⟩
  | tail _ hlast ih =>
    obtain ⟨new, heq, hnew⟩ := ih
    rcases hlast with hsil | ⟨c, k, -, hm⟩
    · exact ⟨new, by rw [hsil.credentials, heq], fun x hx => by
        rw [hsil.slices]
        exact hnew x hx⟩
    · obtain ⟨new', heq', hnew'⟩ := hm.credentials
      refine ⟨new ++ new', by rw [heq', heq, List.append_assoc], fun x hx => ?_⟩
      rcases List.mem_append.mp hx with hx | hx
      · exact hm.versions_ne_nil (hnew x hx)
      · exact hnew' x hx

/-- Credentials stay in their project. -/
lemma Path.places (hpath : Path emit now s s') {ref : CredentialRef} (h : s.Places ref) :
    s'.Places ref := by
  obtain ⟨new, heq, -⟩ := hpath.credentials
  rw [Store.Places, heq]
  exact List.mem_append_left _ h

lemma Path.inhabited (hpath : Path emit now s s') (hs : s.WellFormed) (h : s.Inhabited) :
    s'.Inhabited := by
  intro x hx
  obtain ⟨new, heq, hnew⟩ := hpath.credentials
  rw [heq] at hx
  rcases List.mem_append.mp hx with hx | hx
  · exact hpath.slice_invariant (I := fun c σ => c = x.1 → σ.versions ≠ [])
      (fun _ _ _ _ _ _ hI _ hst hc => hst.versions_ne_nil (hI hc)) hs
      (fun c hc => hc ▸ h x hx) x.1 rfl
  · exact hnew x hx

/-- In every reachable store every credential has a version. -/
theorem reachable_inhabited {v : VaultState} (h : (vault rt).Reaches ok v) : v.store.Inhabited := by
  refine (Run.System.Reaches.invariant (P := fun v : VaultState =>
    v.store.WellFormed ∧ v.store.Inhabited) ?_ ?_ h).2
  · exact ⟨wellFormed_empty, fun x hx => by simp [vault, Store.empty] at hx⟩
  · rintro ⟨s, t⟩ ⟨now, op⟩ v' ⟨hwf, hinh⟩ - hv'
    simp only [vault] at hv'
    split at hv'
    · cases hv'
      have hpath := apply_path rt hwf now op
      exact ⟨hpath.wellFormed hwf, hpath.inhabited hwf hinh⟩
    · simp at hv'

/-- **Invariant rule for one history**: what every change of a slice keeps, every
run keeps. -/
lemma steps_slice_invariant {I : Slice → Prop}
    (hstep : ∀ now σ σ' k, I σ → Slice.Step now σ k σ' → I σ') {w v : VaultState}
    (h : (vault rt).Steps ok w v) (hwf : w.store.WellFormed) (hI : I (w.store.slice c)) :
    v.store.WellFormed ∧ I (v.store.slice c) := by
  refine Run.System.Steps.invariant (P := fun v : VaultState =>
    v.store.WellFormed ∧ I (v.store.slice c)) ?_ h ⟨hwf, hI⟩
  rintro ⟨s, t⟩ ⟨now, op⟩ v' ⟨hwf, hI⟩ - hv'
  simp only [vault] at hv'
  split at hv'
  · cases hv'
    have hpath := apply_path rt hwf now op
    refine ⟨hpath.wellFormed hwf, hpath.slice_invariant (I := fun d σ => d = c → I σ) ?_ hwf
      (fun d hd => hd ▸ hI) c rfl⟩
    intro s' d k σ' _ _ hId _ hst hd
    exact hstep now _ σ' k (hId hd) hst
  · simp at hv'

lemma steps_places {w v : VaultState} (h : (vault rt).Steps ok w v) (hwf : w.store.WellFormed)
    {ref : CredentialRef} (hp : w.store.Places ref) : v.store.Places ref := by
  refine (Run.System.Steps.invariant (P := fun v : VaultState =>
    v.store.WellFormed ∧ v.store.Places ref) ?_ h ⟨hwf, hp⟩).2
  rintro ⟨s, t⟩ ⟨now, op⟩ v' ⟨hwf, hp⟩ - hv'
  simp only [vault] at hv'
  split at hv'
  · cases hv'
    have hpath := apply_path rt hwf now op
    exact ⟨hpath.wellFormed hwf, hpath.places hp⟩
  · simp at hv'

/-- A transaction keeps the rows sound. -/
lemma Path.sound (hpath : Path emit now s s') (hs : s.WellFormed) (h : ∀ c, (s.slice c).Sound now) :
    ∀ c, (s'.slice c).Sound now :=
  hpath.slice_invariant (I := fun _ σ => σ.Sound now) (fun _ _ _ _ _ _ hI _ hst => hI.step hst) hs h

end ProjectVault
