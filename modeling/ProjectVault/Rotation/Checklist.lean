import ProjectVault.Rotation.Reachable

/-!
The checklist of a rotation and the gate it puts before `completed`.
-/

namespace ProjectVault

open Js

variable {s s' : Store} {now : ℕ}
variable {locked : Bool} {res : ChecklistResult} {input : ConfirmImportInput}
  {ds : List CredentialDependency} {params : RotationParams} {M itemId rotationId : ℕ}

/-! ### Transactions that leave the checklists alone -/

/-- No item changes and no rotation becomes completed. -/
structure Plain (s s' : Store) : Prop where
  nextId : s.nextId ≤ s'.nextId
  items : s'.checklistItems = s.checklistItems
  completed : ∀ r ∈ s'.rotations, r.status = .completed →
    ∃ q ∈ s.rotations, q.id = r.id ∧ q.status = .completed

lemma Plain.of_rotations (hn : s.nextId ≤ s'.nextId) (hi : s'.checklistItems = s.checklistItems)
    (hr : s'.rotations = s.rotations) : Plain s s' :=
  ⟨hn, hi, fun r hmem hst => ⟨r, hr ▸ hmem, rfl, hst⟩⟩

lemma Plain.refl (s : Store) : Plain s s := .of_rotations le_rfl rfl rfl

lemma Plain.trans {s'' : Store} (h : Plain s s') (h' : Plain s' s'') : Plain s s'' := by
  refine ⟨h.nextId.trans h'.nextId, h'.items.trans h.items, fun r hr hst => ?_⟩
  obtain ⟨q, hq, hqid, hqst⟩ := h'.completed r hr hst
  obtain ⟨p, hp, hpid, hpst⟩ := h.completed q hq hqst
  exact ⟨p, hp, hpid.trans hqid, hpst⟩

lemma plain_updateVersion (s : Store) (id : ℕ) (f : CredentialVersion → CredentialVersion) :
    Plain s (s.updateVersion id f) :=
  .of_rotations le_rfl rfl rfl

/-- A rotation that moves elsewhere than to `completed`. -/
lemma plain_updateRotation (s : Store) (id : ℕ) {f : Rotation → Rotation}
    (hid : ∀ r, (f r).id = r.id) (hst : ∀ r, (f r).status = .completed → r.status = .completed) :
    Plain s (s.updateRotation id f) := by
  refine ⟨le_rfl, rfl, fun x hx hxst => ?_⟩
  obtain ⟨r, hr, rfl⟩ := Db.mem_updateWhere.mp hx
  split at hxst
  · rename_i hsel
    exact ⟨r, hr, by rw [if_pos hsel, hid], hst r hxst⟩
  · rename_i hsel
    exact ⟨r, hr, by rw [if_neg hsel], hxst⟩

lemma plain_abandonVersions (s : Store) (now n p : ℕ) : Plain s (abandonVersions s now n p) :=
  (plain_updateVersion s n _).trans (plain_updateVersion _ p _)

lemma plain_insertVersion {values : VersionValues} {row : CredentialVersion}
    (h : s.insertVersion now values = .ok (row, s')) : Plain s s' := by
  rw [(insertVersion_ok h).2]
  exact .of_rotations (Nat.le_succ _) rfl rfl

lemma plain_insertVersionAndSetCurrent {values : VersionValues} {row : CredentialVersion}
    (h : insertVersionAndSetCurrent s now values = .ok (row, s')) : Plain s s' := by
  rw [(insertVersionAndSetCurrent_ok h).2]
  exact .of_rotations (Nat.le_succ _) rfl rfl

/-- A new rotation that is not completed at once. -/
lemma plain_insertRotation {values : RotationValues} {row : Rotation}
    (h : s.insertRotation now values = .ok (row, s')) (hst : values.status ≠ .completed) :
    Plain s s' := by
  obtain ⟨rfl, rfl, -⟩ := insertRotation_ok h
  refine ⟨Nat.le_succ _, rfl, fun r hr hrst => ?_⟩
  rcases List.mem_append.mp hr with hr | hr
  · exact ⟨r, hr, rfl, hrst⟩
  · obtain rfl := List.mem_singleton.mp hr
    exact absurd hrst hst

lemma plain_confirmImportItem {item : PendingImportItem} {i : ℕ} {res : ImportItemResult}
    (h : confirmImportItem s now input item i = .ok (res, s')) :
    Plain s s' := by
  rw [confirmImportItem] at h
  split at h
  · rw [store_eq_of_ok h]
    exact .refl s
  · split at h
    · simp at h
    · rw [bind_eq_ok] at h
      obtain ⟨s₁, hins, hret⟩ := h
      cases hret
      obtain ⟨-, row, hrow⟩ := insertImportedVersion_ok hins
      exact plain_insertVersionAndSetCurrent hrow
  · rw [bind_eq_ok] at h
    obtain ⟨⟨c, s₁⟩, hins, hret⟩ := h
    cases hret
    obtain ⟨-, credential, row, -, hrow⟩ := insertImportedCredential_ok hins
    refine Plain.trans ?_ (plain_insertVersionAndSetCurrent hrow)
    exact .of_rotations (Nat.le_succ _) rfl rfl

lemma plain_confirmImportItems {items : List PendingImportItem} :
    ∀ {s s' : Store} {i : ℕ} {res : List ImportItemResult},
      confirmImportItems now input s i items = .ok (res, s') → Plain s s' := by
  induction items with
  | nil =>
    intro s s' i res h
    rw [store_eq_of_ok h]
    exact .refl s
  | cons item items ih =>
    intro s s' i res h
    rw [confirmImportItems, bind_eq_ok] at h
    obtain ⟨⟨r, s₁⟩, hitem, h⟩ := h
    dsimp only at h
    rw [bind_eq_ok] at h
    obtain ⟨⟨rs, s₂⟩, hrest, hret⟩ := h
    cases hret
    exact (plain_confirmImportItem hitem).trans (ih hrest)

lemma plain_confirmCredentialImport {res : ConfirmImportResult}
    (h : confirmCredentialImport s now input = .ok (res, s')) : Plain s s' := by
  rw [confirmCredentialImport] at h
  split at h
  · rw [store_eq_of_ok h]
    exact .refl s
  · split at h
    · rw [store_eq_of_ok h]
      exact .refl s
    · rw [bind_eq_ok] at h
      obtain ⟨⟨rs, s₁⟩, hitems, hret⟩ := h
      cases hret
      exact (plain_confirmImportItems hitems).trans (.of_rotations le_rfl rfl rfl)

lemma plain_breakGlassRotation {rowLock : Bool} {input : BreakGlassInput} {res : BreakGlassResult}
    (h : breakGlassRotation s now locked rowLock input = .ok (res, s')) :
    Plain s s' := by
  rcases breakGlassRotation_ok h with ⟨rfl, -⟩ | ⟨s₁, sup, -, hsup, hinst⟩
  · exact .refl _
  · have hfirst : Plain s s₁ := by
      rcases supersedeActiveRotation_ok hsup with ⟨rfl, -⟩ | ⟨r, -, -, -, -, rfl⟩
      · exact .refl _
      · refine Plain.trans ?_ (plain_abandonVersions _ now _ _)
        exact plain_updateRotation s r.id (fun _ => rfl) (by simp)
    obtain ⟨p, row, s₂, rot, -, hrow, hrot, -⟩ := installBreakGlass_ok hinst
    exact hfirst.trans ((plain_insertVersion hrow).trans
      ((plain_updateVersion s₂ p.id _).trans (plain_insertRotation hrot (by simp))))

lemma plain_pruneCredentialVersions (h : s.WellFormed) (c k : ℕ) (dryRun : Bool) :
    Plain s (pruneCredentialVersions s now c k dryRun) := by
  cases dryRun with
  | true => exact .refl s
  | false =>
    rw [pruneCredentialVersions_eq h]
    exact .of_rotations le_rfl rfl rfl

/-! ### What happens to an item -/

/-- An item and what a transaction makes of it. -/
structure Ticked (M : ℕ) (i j : ChecklistItem) : Prop where
  id : j.id = i.id
  rotationId : j.rotationId = i.rotationId
  confirmed : i.status = .confirmed → j.status = .confirmed
  retryCount : i.retryCount ≤ M → j.retryCount ≤ M

lemma Ticked.refl (M : ℕ) (i : ChecklistItem) : Ticked M i i :=
  ⟨rfl, rfl, fun h => h, fun h => h⟩

/-- Items added by a transaction from `s` to `s'`. -/
structure Added (M : ℕ) (s s' : Store) (j : ChecklistItem) : Prop where
  id_fresh : s.nextId ≤ j.id ∧ j.id < s'.nextId
  rotation_fresh : s.nextId ≤ j.rotationId
  retryCount : j.retryCount ≤ M

/-- Items change in place or are added, and no rotation becomes completed. -/
structure Ticks (M : ℕ) (s s' : Store) : Prop where
  nextId : s.nextId ≤ s'.nextId
  items : ∃ g new, s'.checklistItems = s.checklistItems.map g ++ new ∧
    (∀ i ∈ s.checklistItems, Ticked M i (g i)) ∧
    (new.Pairwise fun a b => a.id < b.id) ∧ ∀ j ∈ new, Added M s s' j
  completed : ∀ r ∈ s'.rotations, r.status = .completed →
    ∃ q ∈ s.rotations, q.id = r.id ∧ q.status = .completed

lemma Plain.ticks (h : Plain s s') : Ticks M s s' :=
  ⟨h.nextId, ⟨id, [], by simp [h.items], fun i _ => Ticked.refl M i, by simp, by simp⟩, h.completed⟩

lemma ticks_updateWhere {p : ChecklistItem → Bool} {f : ChecklistItem → ChecklistItem}
    (hn : s'.nextId = s.nextId) (hi : s'.checklistItems = Db.updateWhere p f s.checklistItems)
    (hr : ∀ r ∈ s'.rotations, r.status = .completed →
      ∃ q ∈ s.rotations, q.id = r.id ∧ q.status = .completed)
    (hf : ∀ i ∈ s.checklistItems, p i = true → Ticked M i (f i)) : Ticks M s s' := by
  refine ⟨hn.ge, ⟨fun i => if p i then f i else i, [], ?_, fun i hmem => ?_, by simp, by simp⟩, hr⟩
  · rw [hi, List.append_nil]
    rfl
  · dsimp only
    by_cases hp : p i = true
    · rw [if_pos hp]
      exact hf i hmem hp
    · rw [if_neg hp]
      exact .refl M i

/-- Keys in order, retries within the limit, completed rotations confirmed. -/
structure Gated (M : ℕ) (s : Store) : Prop where
  items_sorted : s.checklistItems.Pairwise fun a b => a.id < b.id
  items_fresh : ∀ i ∈ s.checklistItems, i.id < s.nextId
  retries : ∀ i ∈ s.checklistItems, i.retryCount ≤ M
  completed : ∀ r ∈ s.rotations, r.status = .completed →
    ∀ i ∈ s.checklistItems, i.rotationId = r.id → i.status = .confirmed

/-- What the transaction leaves of an item. -/
lemma Ticks.image (h : Ticks M s s') {i : ChecklistItem} (hi : i ∈ s.checklistItems) :
    ∃ j ∈ s'.checklistItems, Ticked M i j := by
  obtain ⟨g, new, hitems, hg, -⟩ := h.items
  exact ⟨g i, by rw [hitems]; simp [List.mem_map_of_mem hi], hg i hi⟩

/-- **Step lemma**: actions on items keep the gate shut. -/
lemma Gated.ticks (h : Gated M s) (hwf : s.WellFormed) (ht : Ticks M s s') :
    Gated M s' := by
  obtain ⟨g, new, hitems, hg, hsorted, hnew⟩ := ht.items
  have hcases : ∀ j ∈ s'.checklistItems,
      (∃ i ∈ s.checklistItems, Ticked M i j) ∨ Added M s s' j := by
    intro j hj
    rw [hitems] at hj
    rcases List.mem_append.mp hj with hj | hj
    · obtain ⟨i, hi, rfl⟩ := List.mem_map.mp hj
      exact .inl ⟨i, hi, hg i hi⟩
    · exact .inr (hnew j hj)
  refine ⟨?_, fun j hj => ?_, fun j hj => ?_, fun r hr hst j hj hjr => ?_⟩
  · rw [hitems, List.pairwise_append]
    refine ⟨List.pairwise_map.mpr (h.items_sorted.imp_of_mem fun {a b} ha hb hab => ?_), hsorted,
      fun a ha b hb => ?_⟩
    · rw [(hg a ha).id, (hg b hb).id]
      exact hab
    · obtain ⟨i, hi, rfl⟩ := List.mem_map.mp ha
      rw [(hg i hi).id]
      exact lt_of_lt_of_le (h.items_fresh i hi) (hnew b hb).id_fresh.1
  · rcases hcases j hj with ⟨i, hi, hij⟩ | hj'
    · rw [hij.id]
      exact lt_of_lt_of_le (h.items_fresh i hi) ht.nextId
    · exact hj'.id_fresh.2
  · rcases hcases j hj with ⟨i, hi, hij⟩ | hj'
    · exact hij.retryCount (h.retries i hi)
    · exact hj'.retryCount
  · obtain ⟨q, hq, hqid, hqst⟩ := ht.completed r hr hst
    rcases hcases j hj with ⟨i, hi, hij⟩ | hj'
    · refine hij.confirmed (h.completed q hq hqst i hi ?_)
      rw [← hij.rotationId, hjr, hqid]
    · -- a new item belongs to a rotation that was not there before
      have hlt := hwf.rotations_fresh q hq
      have hge := hj'.rotation_fresh
      omega

/-! ### The transactions -/

/-- A checklist action bumps the version of its rotation and updates one item. -/
lemma ticks_reserve (hwf : s.WellFormed) {v : ℕ} {st : Option ChecklistStatus}
    {f : ChecklistItem → ChecklistItem} {label : String}
    {k : (Option ℕ ⊕ ChecklistItem × ℕ) × Store → Except VaultError (ChecklistResult × Store)}
    (hk : ∀ x res s', k x = .ok (res, s') → s' = x.2)
    (hf : ∀ i ∈ s.checklistItems, itemScopeWhere params.rotationId itemId st i = true →
      Ticked M i (f i))
    (hok : (reserveVersionAndUpdateItem s now params itemId v st f label >>= k) = .ok (res, s')) :
    Ticks M s s' := by
  obtain ⟨x, hres, hret⟩ := bind_eq_ok.mp hok
  rw [hk x res s' hret]
  rw [reserveVersionAndUpdateItem] at hres
  split at hres
  · rename_i hcas
    cases hres
    rw [casTransitionRotation_inr hcas]
    exact (Plain.refl s).ticks
  · rename_i hcas
    obtain ⟨r, hr, -, -, rfl⟩ := casTransitionRotation_inl hwf hcas
    split at hres
    · simp at hres
    · cases hres
      exact ticks_updateWhere rfl rfl
        (plain_updateRotation s r.id (f := casSet id v now) (fun _ => rfl) fun _ hst => hst).completed
        hf

/-- The matched item is the one that was loaded. -/
lemma eq_of_itemScope (h : Gated M s) {st : Option ChecklistStatus} {i item : ChecklistItem}
    (hi : i ∈ s.checklistItems) (hscope : itemScopeWhere rotationId itemId st i = true)
    (hload : findChecklistItemInScope s rotationId itemId = some item) : i = item := by
  have hmem := List.mem_of_find?_eq_some hload
  have hid := List.find?_some hload
  simp only [decide_eq_true_eq] at hid
  simp only [itemScopeWhere, decide_eq_true_eq] at hscope
  exact Db.eq_of_key_eq h.items_sorted hi hmem (hscope.1.trans hid.1.symm)

lemma acquireLockAndItem_item {res : Rotation × ChecklistItem}
    (h : acquireLockAndItem s locked params itemId = .inr res) :
    findChecklistItemInScope s params.rotationId itemId = some res.2 := by
  rw [acquireLockAndItem] at h
  split at h
  · simp at h
  · simp at h
  · simp at h
  · split at h
    · simp at h
    · rename_i hload
      cases h
      exact hload

lemma ticks_confirmChecklistItem (hwf : s.WellFormed) {userId : ℕ} {notes : Option String}
    (hok : confirmChecklistItem s now locked params itemId userId notes = .ok (res, s')) :
    Ticks M s s' := by
  rw [confirmChecklistItem] at hok
  split at hok
  · rw [store_eq_of_ok hok]
    exact (Plain.refl s).ticks
  · split at hok
    · rw [store_eq_of_ok hok]
      exact (Plain.refl s).ticks
    · refine ticks_reserve hwf ?_ ?_ hok
      · rintro ⟨w | y, s₁⟩ res s' hx <;> exact store_eq_of_ok hx
      · exact fun i _ _ => ⟨rfl, rfl, fun _ => rfl, fun h => h⟩

lemma ticks_failChecklistItem (hwf : s.WellFormed) {userId : ℕ} {reason : String}
    {retryScheduledAt : Option ℕ}
    (hok : failChecklistItem s now locked params itemId userId reason retryScheduledAt =
      .ok (res, s')) : Ticks M s s' := by
  rw [failChecklistItem] at hok
  split at hok
  · rw [store_eq_of_ok hok]
    exact (Plain.refl s).ticks
  · split at hok
    · rw [store_eq_of_ok hok]
      exact (Plain.refl s).ticks
    · refine ticks_reserve hwf ?_ ?_ hok
      · rintro ⟨w | y, s₁⟩ res s' hx <;> exact store_eq_of_ok hx
      · refine fun i _ hi => ⟨rfl, rfl, fun hst => ?_, fun h => h⟩
        simp [itemScopeWhere, hst] at hi

/-- A retry counts up only an item whose count is below the limit. -/
lemma ticks_retryChecklistItem (h : Gated M s) (hwf : s.WellFormed) {userId : ℕ}
    (hok : retryChecklistItem s now locked params itemId userId M = .ok (res, s')) :
    Ticks M s s' := by
  rw [retryChecklistItem] at hok
  split at hok
  · rw [store_eq_of_ok hok]
    exact (Plain.refl s).ticks
  · rename_i r item hload
    split at hok
    · rw [store_eq_of_ok hok]
      exact (Plain.refl s).ticks
    · split at hok
      · refine ticks_reserve hwf ?_ ?_ hok
        · rintro ⟨w | y, s₁⟩ res s' hx <;> exact store_eq_of_ok hx
        · refine fun i _ hi => ⟨rfl, rfl, fun hst => ?_, fun h => h⟩
          simp [itemScopeWhere, hst] at hi
      · rename_i hlt
        refine ticks_reserve hwf ?_ ?_ hok
        · rintro ⟨w | y, s₁⟩ res s' hx <;> exact store_eq_of_ok hx
        · refine fun i hmem hi => ⟨rfl, rfl, fun hst => ?_, fun _ => ?_⟩
          · simp [itemScopeWhere, hst] at hi
          · rw [eq_of_itemScope h hmem hi (acquireLockAndItem_item hload)]
            exact Nat.lt_of_not_le hlt

/-- The recovery resets items that were not confirmed and keeps their counts. -/
lemma ticks_recoverOneRotation (locked : Bool) (rotationId : ℕ) :
    Ticks M s (recoverOneRotation s now locked rotationId) := by
  rw [recoverOneRotation]
  split
  · exact (Plain.refl s).ticks
  · split
    · refine ticks_updateWhere rfl rfl (fun x hx hst => ?_) fun i _ hi =>
        ⟨rfl, rfl, fun hst => ?_, fun h => h⟩
      · obtain ⟨r, hr, rfl⟩ := Db.mem_updateWhere.mp hx
        split at hst
        · simp [Rotation.markStale] at hst
        · rename_i hsel
          exact ⟨r, hr, by rw [if_neg hsel], hst⟩
      · simp [resettableStatuses, hst] at hi
    · exact (Plain.refl s).ticks

/-- The rows of a new checklist: consecutive keys, no retries. -/
lemma mem_checklistRows {orgId : ℕ} :
    ∀ {id : ℕ} {j : ChecklistItem}, j ∈ checklistRows orgId rotationId id ds →
      id ≤ j.id ∧ j.id < id + ds.length ∧ j.rotationId = rotationId ∧ j.retryCount = 0 := by
  induction ds with
  | nil => simp [checklistRows]
  | cons d ds ih =>
    intro id j hj
    rcases List.mem_cons.mp hj with rfl | hj
    · exact ⟨le_rfl, by simp, rfl, rfl⟩
    · obtain ⟨h1, h2, h3, h4⟩ := ih hj
      refine ⟨by omega, ?_, h3, h4⟩
      rw [List.length_cons]
      omega

lemma checklistRows_sorted {orgId : ℕ} :
    ∀ {id : ℕ}, (checklistRows orgId rotationId id ds).Pairwise fun a b => a.id < b.id := by
  induction ds with
  | nil => simp [checklistRows]
  | cons d ds ih =>
    intro id
    refine List.pairwise_cons.mpr ⟨fun j hj => ?_, ih⟩
    have hle := (mem_checklistRows hj).1
    dsimp only
    omega

lemma length_checklistRows {orgId : ℕ} :
    ∀ {id : ℕ}, (checklistRows orgId rotationId id ds).length = ds.length := by
  induction ds with
  | nil => simp [checklistRows]
  | cons d ds ih =>
    intro id
    rw [checklistRows, List.length_cons, List.length_cons, ih]

/-- A rotation starts with a checklist of its own. -/
lemma ticks_stageRotation {rt : Runtime} {input : InitiateRotationInput} {p : CredentialVersion}
    {preflight : Preflight} {res : InitiateRotationResult}
    (h : stageRotation rt s now input p preflight = .ok (res, s')) : Ticks M s s' := by
  rw [stageRotation, bind_eq_ok] at h
  obtain ⟨fields, -, h⟩ := h
  rw [bind_eq_ok] at h
  obtain ⟨⟨row, s₁⟩, hrow, h⟩ := h
  dsimp only at h
  rw [bind_eq_ok] at h
  obtain ⟨⟨rot, s₂⟩, hrot, h⟩ := h
  cases h
  have hplain : Plain s s₂ := (plain_insertVersion hrow).trans
    ((plain_updateVersion s₁ p.id _).trans (plain_insertRotation hrot (by simp)))
  have hrotid : s.nextId ≤ rot.id := by
    rw [(insertRotation_ok hrot).1]
    exact (plain_insertVersion hrow).nextId
  refine ⟨hplain.nextId.trans (Nat.le_add_right _ _), ⟨id, checklistRows input.orgId rot.id s₂.nextId
    (dependencyChecklist (s₁.updateVersion p.id fun v => { v with rotationLockedAt := some now })
      input.orgId input.credentialId preflight.targets), ?_, fun i _ => .refl M i,
    checklistRows_sorted, fun j hj => ?_⟩, hplain.completed⟩
  · simp [Store.insertChecklistItems, hplain.items]
  · obtain ⟨hle, hlt, hr, hcount⟩ := mem_checklistRows hj
    refine ⟨⟨hplain.nextId.trans hle, ?_⟩, by rw [hr]; exact hrotid, by rw [hcount]; exact Nat.zero_le M⟩
    simpa [Store.insertChecklistItems, length_checklistRows] using hlt

/-- A completion keeps the gate: what it completes was confirmed. -/
lemma Gated.complete (h : Gated M s) {r : Rotation}
    (hconf : ∀ i ∈ loadChecklistItems s r.id, i.status = .confirmed) {f : Rotation → Rotation}
    (hf : ∀ q, (f q).id = q.id) (id : ℕ) (g : CredentialVersion → CredentialVersion) :
    Gated M ((s.updateRotation r.id f).updateVersion id g) := by
  refine ⟨h.items_sorted, h.items_fresh, h.retries, fun x hx hst i hi hir => ?_⟩
  obtain ⟨q, hq, rfl⟩ := Db.mem_updateWhere.mp hx
  by_cases hsel : decide (q.id = r.id) = true
  · rw [if_pos hsel, hf, of_decide_eq_true hsel] at hir
    exact hconf i (List.mem_filter.mpr ⟨hi, by simpa using hir⟩)
  · rw [if_neg hsel] at hst hir
    exact h.completed q hq hst i hi hir

lemma committed_ticks {α : Type} {x : Except VaultError (α × Store)}
    (h : ∀ a s', x = .ok (a, s') → Ticks M s s') : Ticks M s (committed s x) := by
  cases x with
  | error e => exact (Plain.refl s).ticks
  | ok r => exact h r.1 r.2 rfl

/-- The limit on retries an operation is configured with. -/
def Op.RetriesWithin (M : ℕ) : Op → Prop
  | .retryItem _ _ _ _ maxRetries => maxRetries = M
  | _ => True

instance (M : ℕ) (op : Op) : Decidable (op.RetriesWithin M) := by
  cases op <;> unfold Op.RetriesWithin <;> infer_instance

/-- The completions of rotations. -/
def Op.isComplete : Op → Bool
  | .complete _ _ _ => true
  | _ => false

/-- Every transaction but a completion acts on items only as it may. -/
lemma apply_ticks (rt : Runtime) (h : Gated M s) (hwf : s.WellFormed) (now : ℕ) {op : Op}
    (hM : op.RetriesWithin M) (hc : op.isComplete = false) : Ticks M s (op.apply rt s now) := by
  cases op with
  | createCredential input =>
    refine committed_ticks fun _ _ hok => Plain.ticks ?_
    obtain ⟨resolved, row, -, -, hins⟩ := createCredentialWithFirstVersion_ok hok
    refine Plain.trans ?_ (plain_insertVersionAndSetCurrent hins)
    exact .of_rotations (Nat.le_succ _) rfl rfl
  | addVersion input =>
    refine committed_ticks fun _ _ hok => Plain.ticks ?_
    rcases addCredentialVersion_ok hok with ⟨rfl, -⟩ | ⟨resolved, row, -, -, hins⟩
    · exact .refl _
    · exact plain_insertVersionAndSetCurrent hins
  | stageImport input =>
    refine Plain.ticks ?_
    simp only [Op.apply, stageCredentialImport]
    split
    · exact .refl s
    · split
      · exact .refl s
      · exact .of_rotations (Nat.le_succ _) rfl rfl
  | confirmImport input =>
    exact committed_ticks fun _ _ hok => (plain_confirmCredentialImport hok).ticks
  | initiate locked input =>
    refine committed_ticks fun _ _ hok => ?_
    rcases initiateRotation_ok hok with ⟨rfl, -⟩ | ⟨p, preflight, -, -, -, hstage⟩
    · exact (Plain.refl _).ticks
    · exact ticks_stageRotation hstage
  | confirmItem locked params itemId userId notes =>
    exact committed_ticks fun _ _ hok => ticks_confirmChecklistItem hwf hok
  | failItem locked params itemId userId reason retryScheduledAt =>
    exact committed_ticks fun _ _ hok => ticks_failChecklistItem hwf hok
  | retryItem locked params itemId userId maxRetries =>
    obtain rfl : maxRetries = M := hM
    exact committed_ticks fun _ _ hok => ticks_retryChecklistItem h hwf hok
  | complete locked params ack => simp [Op.isComplete] at hc
  | promote locked params ack =>
    rcases promoteRotation_cases hwf now locked params ack with ⟨heq, -⟩ | ⟨r, -, -, -, heq⟩
    · rw [Op.apply, heq]
      exact (Plain.refl s).ticks
    · rw [Op.apply, heq]
      refine Plain.ticks (Plain.trans (plain_updateRotation s r.id ?_ ?_)
        (plain_updateVersion _ _ _))
      · exact fun _ => rfl
      · simp [casSet]
  | retire locked params ack =>
    rcases retireRotation_cases hwf now locked params ack with ⟨heq, -⟩ | ⟨r, -, -, -, heq⟩
    · rw [Op.apply, heq]
      exact (Plain.refl s).ticks
    · rw [Op.apply, heq]
      refine Plain.ticks (Plain.trans (plain_updateRotation s r.id ?_ ?_)
        (plain_updateVersion _ _ _))
      · exact fun _ => rfl
      · simp [casSet]
  | resume locked params =>
    rcases resumeRotation_cases hwf now locked params with heq | ⟨r, -, -, heq⟩
    · rw [Op.apply, heq]
      exact (Plain.refl s).ticks
    · rw [Op.apply, heq]
      refine Plain.ticks (plain_updateRotation s r.id ?_ ?_)
      · exact fun _ => rfl
      · simp [casSet]
  | abandon locked params =>
    rcases abandonRotation_cases hwf now locked params with heq | ⟨r, -, -, -, heq⟩
    · rw [Op.apply, heq]
      exact (Plain.refl s).ticks
    · rw [Op.apply, heq]
      refine Plain.ticks (Plain.trans (plain_updateRotation s r.id ?_ ?_)
        (plain_abandonVersions _ now _ _))
      · exact fun _ => rfl
      · simp [casSet]
  | breakGlass locked rowLock input =>
    exact committed_ticks fun _ _ hok => (plain_breakGlassRotation hok).ticks
  | expireOverlap locked versionId =>
    refine Plain.ticks ?_
    simp only [Op.apply, expireOneVersion]
    split
    · exact .refl s
    · exact .of_rotations le_rfl rfl rfl
  | recover locked rotationId => exact ticks_recoverOneRotation locked rotationId
  | prune credentialId retentionCount dryRun =>
    exact (plain_pruneCredentialVersions hwf credentialId retentionCount dryRun).ticks
  | archiveCredential credentialId archivedAt =>
    exact Plain.ticks (Plain.of_rotations le_rfl rfl rfl)
  | environment projects memberships dependencies =>
    exact Plain.ticks (Plain.of_rotations le_rfl rfl rfl)

/-! ### Runs -/

/-- Runs whose retries all use the limit `M`. -/
def RetryLimit (M : ℕ) (_ : VaultState) (t : Timed) : Prop := t.op.RetriesWithin M

instance (M : ℕ) (v : VaultState) (t : Timed) : Decidable (RetryLimit M v t) :=
  inferInstanceAs (Decidable (t.op.RetriesWithin M))

/-- On the way from `w` to `v` the rotation was completed by a request that
acknowledged it had no dependencies. -/
def Acknowledged (rt : Runtime) (M : ℕ) (w v : VaultState) (rotationId : ℕ) : Prop :=
  ∃ u now locked params u', (vault rt).Steps (RetryLimit M) w u ∧
    (vault rt).step u ⟨now, .complete locked params true⟩ = some u' ∧
    params.rotationId = rotationId ∧ (vault rt).Steps (RetryLimit M) u' v

/-- What holds of a state some way along a run from `w`. -/
structure Along (rt : Runtime) (M : ℕ) (w v : VaultState) : Prop where
  wellFormed : v.store.WellFormed
  gated : Gated M v.store
  confirmed : ∀ i ∈ w.store.checklistItems, i.status = .confirmed →
    ∃ j ∈ v.store.checklistItems, j.id = i.id ∧ j.status = .confirmed
  acknowledged : ∀ r ∈ v.store.rotations, r.status = .completed →
    loadChecklistItems v.store r.id = [] →
      (∃ q ∈ w.store.rotations, q.id = r.id ∧ q.status = .completed) ∨
        Acknowledged rt M w v r.id

/-- **Run lemma**: the gate holds all along a run. -/
lemma steps_along {rt : Runtime} {w v : VaultState} (hw : w.store.WellFormed) (hg : Gated M w.store)
    (h : (vault rt).Steps (RetryLimit M) w v) : Along rt M w v := by
  induction h with
  | refl => exact ⟨hw, hg, fun i hi hst => ⟨i, hi, rfl, hst⟩, fun r hr hst _ => .inl ⟨r, hr, rfl, hst⟩⟩
  | @tail u v hsteps hlast ih =>
    obtain ⟨⟨now, op⟩, hM, hstep⟩ := hlast
    have hmono : ∀ {id}, Acknowledged rt M w u id → Acknowledged rt M w v id := by
      rintro id ⟨a, t, locked, params, b, hab, hb, hid, hbu⟩
      exact ⟨a, t, locked, params, b, hab, hb, hid,
        Relation.ReflTransGen.tail hbu ⟨⟨now, op⟩, hM, hstep⟩⟩
    have hstep' := hstep
    simp only [vault] at hstep'
    split at hstep'
    · cases hstep'
      have hwf := (apply_path rt ih.wellFormed now op).wellFormed ih.wellFormed
      by_cases hc : op.isComplete = true
      · obtain ⟨locked, params, ack, rfl⟩ : ∃ locked params ack,
            op = .complete locked params ack := by
          cases op <;> simp [Op.isComplete] at hc ⊢
        rcases completeRotation_cases ih.wellFormed now locked params ack with
          heq | ⟨q, hfind, hst, hconf, hack, heq⟩
        · dsimp only [Op.apply] at hwf ⊢
          rw [heq] at hwf ⊢
          exact ⟨hwf, ih.gated, ih.confirmed, fun r hr hst hnil =>
            (ih.acknowledged r hr hst hnil).imp_right fun hk => by
              simpa only [Op.apply, heq] using hmono hk⟩
        · have hitems : ((Op.complete locked params ack).apply rt u.store now).checklistItems =
              u.store.checklistItems := by
            rw [Op.apply, heq]
            rfl
          refine ⟨hwf, ?_, fun i hi hst => ?_, fun r hr hrst hnil => ?_⟩
          · dsimp only [Op.apply]
            rw [heq]
            refine ih.gated.complete hconf ?_ _ _
            exact fun _ => rfl
          · obtain ⟨j, hj, hrest⟩ := ih.confirmed i hi hst
            exact ⟨j, by rw [hitems]; exact hj, hrest⟩
          · rw [loadChecklistItems, hitems] at hnil
            dsimp only [Op.apply] at hr
            rw [heq] at hr
            obtain ⟨p, hp, rfl⟩ := Db.mem_updateWhere.mp hr
            by_cases hsel : decide (p.id = q.id) = true
            · rw [if_pos hsel] at hnil ⊢
              have hid : p.id = q.id := of_decide_eq_true hsel
              have hpid : params.rotationId = p.id :=
                hid ▸ (findRotationInScope_mem hfind).2.1.symm
              have htrue : ack = true := hack (by
                rw [← hid]
                exact hnil)
              rw [htrue] at hstep ⊢
              exact .inr ⟨u, now, locked, params, _, hsteps, hstep, hpid,
                Relation.ReflTransGen.refl⟩
            · rw [if_neg hsel] at hrst hnil ⊢
              exact (ih.acknowledged p hp hrst hnil).imp_right hmono
      · have ht := apply_ticks rt ih.gated ih.wellFormed now hM (Bool.eq_false_iff.mpr hc)
        refine ⟨hwf, ih.gated.ticks ih.wellFormed ht, fun i hi hst => ?_,
          fun r hr hrst hnil => ?_⟩
        · obtain ⟨j, hj, hjid, hjst⟩ := ih.confirmed i hi hst
          obtain ⟨k, hk, hjk⟩ := ht.image hj
          exact ⟨k, hk, hjk.id.trans hjid, hjk.confirmed hjst⟩
        · obtain ⟨q, hq, hqid, hqst⟩ := ht.completed r hr hrst
          rw [← hqid] at hnil ⊢
          refine (ih.acknowledged q hq hqst ?_).imp_right hmono
          -- an item of the rotation would have an image
          refine List.filter_eq_nil_iff.mpr fun i hi hir => ?_
          obtain ⟨j, hj, hij⟩ := ht.image hi
          refine List.filter_eq_nil_iff.mp hnil j hj ?_
          simpa [hij.rotationId] using hir
    · simp at hstep'

/-- **The checklist gate**: along every run with `M` retries allowed, a completed
rotation has all of its items confirmed, and if it has none it was completed with
an acknowledgement; a confirmed item stays confirmed; no item is retried more than
`M` times. -/
theorem completed_confirmed {rt : Runtime} {M : ℕ} {w v : VaultState} (hw : w.store.WellFormed)
    (hg : Gated M w.store) (h : (vault rt).Steps (RetryLimit M) w v) :
    (∀ r ∈ v.store.rotations, r.status = .completed →
      (∀ i ∈ loadChecklistItems v.store r.id, i.status = .confirmed) ∧
      (loadChecklistItems v.store r.id = [] →
        (∃ q ∈ w.store.rotations, q.id = r.id ∧ q.status = .completed) ∨
          Acknowledged rt M w v r.id)) ∧
    (∀ i ∈ w.store.checklistItems, i.status = .confirmed →
      (∃ j ∈ v.store.checklistItems, j.id = i.id) ∧
        ∀ j ∈ v.store.checklistItems, j.id = i.id → j.status = .confirmed) ∧
    ∀ i ∈ v.store.checklistItems, i.retryCount ≤ M := by
  have ha := steps_along hw hg h
  refine ⟨fun r hr hst => ⟨fun i hi => ?_, ha.acknowledged r hr hst⟩, fun i hi hst => ?_,
    ha.gated.retries⟩
  · obtain ⟨hi, hir⟩ := List.mem_filter.mp hi
    exact ha.gated.completed r hr hst i hi (by simpa using hir)
  · obtain ⟨j, hj, hjid, hjst⟩ := ha.confirmed i hi hst
    refine ⟨⟨j, hj, hjid⟩, fun k hk hkid => ?_⟩
    rw [Db.eq_of_key_eq ha.gated.items_sorted hk hj (hkid.trans hjid.symm)]
    exact hjst

/-- A store of an earlier release: one rotation in progress, with one item. -/
def legacyStore : Store :=
  { Store.empty with
    versions :=
      [⟨2, 9, 1, some (encryptValue "old"), some 1, 1, some 3, none, none, none, some 1, some 7, 1,
          1, none⟩,
       ⟨3, 9, 1, some (encryptValue "new"), some 1, 2, none, none, none, none, some 3, some 7, 3,
          1, none⟩]
    rotations := [⟨4, 9, 100, 1, 3, 2, .inProgress, 1, some 7, 3, none, none, none, none, none, 3, 3⟩]
    checklistItems := [⟨5, 9, 4, 50, "db", .unconfirmed, none, none, 0, none, none, none, none, none⟩]
    nextId := 6 }

/-- The item fails, is retried and confirmed, and the rotation completes. -/
def legacyRun : List Timed :=
  [⟨5, .failItem true ⟨9, 100, 1, 4⟩ 5 7 "down" none⟩,
   ⟨6, .retryItem true ⟨9, 100, 1, 4⟩ 5 7 3⟩,
   ⟨7, .confirmItem true ⟨9, 100, 1, 4⟩ 5 7 none⟩,
   ⟨8, .complete true ⟨9, 100, 1, 4⟩ false⟩]

lemma wellFormed_legacyStore : legacyStore.WellFormed := by
  constructor <;> decide

lemma gated_legacyStore : Gated 3 legacyStore := by
  constructor <;> decide

/-- The completed legacy rotation has its item confirmed after one retry. -/
theorem completed_confirmed_legacy :
    ∃ v, (vault .ascii).exec (RetryLimit 3) ⟨legacyStore, 4⟩ legacyRun = some v ∧
      ∃ r ∈ v.store.rotations, r.status = .completed ∧ loadChecklistItems v.store r.id ≠ [] ∧
        (∀ i ∈ loadChecklistItems v.store r.id, i.status = .confirmed) ∧
        ∀ i ∈ v.store.checklistItems, i.retryCount ≤ 3 := by
  obtain ⟨v, hv, r, hr, hst, hne⟩ := (vault .ascii).exists_of_exec (RetryLimit 3)
    ⟨legacyStore, 4⟩ legacyRun (fun v => ∃ r ∈ v.store.rotations, r.status = .completed ∧
      loadChecklistItems v.store r.id ≠ []) (by decide)
  obtain ⟨hcomp, -, hcount⟩ := completed_confirmed wellFormed_legacyStore gated_legacyStore
    (Run.System.steps_of_exec hv)
  exact ⟨v, hv, r, hr, hst, hne, (hcomp r hr hst).1, hcount⟩

end ProjectVault
