import ProjectVault.Projects.Lifecycle

/-!
What the transactions of the project lifecycle do.
-/

namespace ProjectVault.Projects

open Db MachineUsers

/-! ### The end of a transaction -/

/-- An answer after which no project has changed. -/
def ProjectAnswer.isMark : ProjectAnswer → Bool
  | .archived _ | .unarchived _ | .deleted _ _ _ | .restored _ | .purged _ _ => true
  | _ => false

/-- An answer after which nothing has changed. -/
def ProjectAnswer.isRefusal : ProjectAnswer → Bool
  | .initiated _ _ | .issued _ _ | .shared _ _ => false
  | answer => !answer.isMark

/-- `markProjectDeleted`, for the row. -/
def Project.markDeleted (now : ℕ) (wasArchived : Bool) (p : Project) : Project :=
  { p with
    deletedAt := some now, purgeAfter := some (purgeAfterFor now)
    archivedAt := if wasArchived then p.archivedAt else some now }

/-- The change of a project row. -/
inductive Mark (answer : ProjectAnswer) (clock n : ℕ) (row : Project) :
    (Project → Project) → Prop where
  | archive (now : ℕ) (hanswer : answer = .archived n) :
      Mark answer clock n row fun p => { p with archivedAt := some now }
  | unarchive (hanswer : answer = .unarchived n) :
      Mark answer clock n row fun p => { p with archivedAt := none }
  | restore (hpurged : row.purgedAt = none) (hanswer : answer = .restored n) :
      Mark answer clock n row fun p => { p with deletedAt := none, purgeAfter := none }
  | delete (now : ℕ) (keys : List ApiKey) (shares : List ProjectShare)
      (hdeleted : row.deletedAt = none) (hanswer : answer = .deleted n keys shares) :
      Mark answer clock n row (Project.markDeleted now row.archivedAt.isSome)
  | purge (now : ℕ) (hdue : isPurgeDue row now = true) (hnow : now ≤ clock)
      (hanswer : answer = .purged n now) :
      Mark answer clock n row fun p => { p with purgedAt := some now }

/-- A project row is marked under its lock. -/
structure Marked (held : Set ProjectLock) (w : ProjectWorld) (ev : ProjectEnd) (n : ℕ)
    (row : Project) (f : Project → Project) : Prop where
  lock : ProjectLock.project n ∈ held
  find : projectTable.find ev.before n = some row
  mark : Mark ev.answer w.clock n row f
  projects : ev.after.projects = updateWhere (fun p => p.id = n) f ev.before.projects

/-- What a delete has made sure of. -/
structure Cleared (w : ProjectWorld) (ev : ProjectEnd) (n : ℕ) (keys : List ApiKey)
    (shares : List ProjectShare) : Prop where
  rotations : ∀ r ∈ ev.before.rotations, r.projectId = n → r.status ∉ blockingRotationStatuses
  keys : ∃ today ≤ w.clock, ∀ k ∈ keys, isActiveKey k today = false
  shares : ∀ s ∈ ev.after.shares, s.isActive = true → ∀ f ∈ shares, f.id ≠ s.id

/-- What the end of a transaction may do. -/
structure ProjectMove (held : Set ProjectLock) (w : ProjectWorld) (ev : ProjectEnd) : Prop where
  projects : (ev.answer.isMark = false ∧ ev.after.projects = ev.before.projects) ∨
    ∃ n row f, Marked held w ev n row f
  machineUsers : ev.after.machineUsers.Sublist ev.before.machineUsers
  credentials : ev.after.credentials.Sublist ev.before.credentials
  rotations : ∀ r ∈ ev.after.rotations, r ∈ ev.before.rotations ∨
    ProjectLock.project r.projectId ∈ held ∧ ev.answer.isMark = false ∧
      ∃ row, projectTable.find ev.before r.projectId = some row ∧ row.archivedAt = none
  keys : ∀ k ∈ ev.after.keys, k ∈ ev.before.keys ∨ ∃ n, ev.answer = .issued n k.id ∧
    ∀ u ∈ ev.before.machineUsers, u.id = k.machineUserId → u.projectId = n
  shares : ∀ s ∈ ev.after.shares, s.isActive = true → s ∈ ev.before.shares ∨
    ∃ n, ev.answer = .shared n s.id ∧
      ∀ c ∈ ev.before.credentials, c.id = s.credentialId → c.projectId = n
  cleared : ∀ n keys shares, ev.answer = .deleted n keys shares → Cleared w ev n keys shares

/-- Nothing is outdated: what unarchives a project, issues a key or creates a share finds the
project not deleted when it commits, and a delete has looked at every key and share of the project
that is there when it commits. -/
def Undisturbed (ev : ProjectEnd) : Bool :=
  match ev.answer with
  | .unarchived n | .issued n _ | .shared n _ => !isProjectDeleted ev.before n
  | .deleted n keys shares =>
    (ev.before.keysOf n).all (· ∈ keys) && (ev.before.sharesOf n).all (· ∈ shares)
  | _ => true

/-! ### Rows -/

lemma Mark.id_eq {answer : ProjectAnswer} {clock n : ℕ} {row : Project} {f : Project → Project}
    (h : Mark answer clock n row f) (p : Project) : (f p).id = p.id := by
  cases h <;> rfl

section Marked

variable {held : Set ProjectLock} {w : ProjectWorld} {ev : ProjectEnd} {n m : ℕ} {row : Project}
  {f : Project → Project}

lemma Marked.find_self (h : Marked held w ev n row f) :
    projectTable.find ev.after n = some (f row) := by
  change ev.after.projects.find? (fun p => p.id = n) = _
  rw [h.projects, find_updateWhere_self h.mark.id_eq n]
  exact congrArg (Option.map f) h.find

lemma Marked.find_of_ne (h : Marked held w ev n row f) (hne : m ≠ n) :
    projectTable.find ev.after m = projectTable.find ev.before m := by
  change ev.after.projects.find? (fun p => p.id = m) = _
  rw [h.projects]
  exact find_updateWhere_of_ne h.mark.id_eq hne _

lemma Marked.ids (h : Marked held w ev n row f) :
    ev.after.projects.map Project.id = ev.before.projects.map Project.id := by
  rw [h.projects]
  exact map_updateWhere _ fun p _ _ => h.mark.id_eq p

lemma find_of_projects (h : ev.after.projects = ev.before.projects) (m : ℕ) :
    projectTable.find ev.after m = projectTable.find ev.before m := by
  change ev.after.projects.find? _ = ev.before.projects.find? _
  rw [h]

/-- **Frame**: a project whose lock the transaction does not hold. -/
lemma ProjectMove.find_eq (h : ProjectMove held w ev) (hn : ProjectLock.project n ∉ held) :
    projectTable.find ev.after n = projectTable.find ev.before n := by
  rcases h.projects with ⟨-, hsame⟩ | ⟨m, row, f, hmarked⟩
  · exact find_of_projects hsame n
  · refine hmarked.find_of_ne ?_
    rintro rfl
    exact hn hmarked.lock

lemma ProjectMove.mem_rotations (h : ProjectMove held w ev) (hn : ProjectLock.project n ∉ held)
    {r : ProjectRotation} (hr : r ∈ ev.after.rotations) (hid : r.projectId = n) :
    r ∈ ev.before.rotations := by
  rcases h.rotations r hr with hold | ⟨hlock, -⟩
  · exact hold
  · exact absurd (hid ▸ hlock) hn

end Marked

/-! ### Single rows -/

/-- A deleted row is archived, and a purged one deleted. -/
structure RowOk (p : Project) : Prop where
  archived : p.deletedAt.isSome = true → p.archivedAt.isSome = true
  deleted : p.purgedAt.isSome = true → p.deletedAt.isSome = true

/-- `purgedAt` is set. -/
def isPurged (d : ProjectDb) (n : ℕ) : Bool :=
  (projectTable.find d n).any fun p => p.purgedAt.isSome

/-- The end of a delete. -/
def Deletes (n : ℕ) (ev : ProjectEnd) : Prop :=
  ∃ keys shares, ev.answer = .deleted n keys shares

/-- The end of a restore. -/
def Restores (n : ℕ) (ev : ProjectEnd) : Prop := ev.answer = .restored n

/-- The end of a purge. -/
def Purges (n : ℕ) (ev : ProjectEnd) : Prop := ∃ now, ev.answer = .purged n now

section Mark

variable {answer : ProjectAnswer} {clock n : ℕ} {row : Project} {f : Project → Project}

lemma isPurgeDue_iff {p : Project} {now : ℕ} :
    isPurgeDue p now = true ↔
      p.deletedAt.isSome = true ∧ p.purgedAt = none ∧ ∃ t, p.purgeAfter = some t ∧ t ≤ now := by
  simp [isPurgeDue, Option.any_eq_true, and_assoc]

lemma Mark.rowOk (h : Mark answer clock n row f) (hrow : RowOk row)
    (hopen : answer = .unarchived n → row.deletedAt = none) : RowOk (f row) := by
  cases h with
  | archive now _ => exact ⟨fun _ => rfl, hrow.deleted⟩
  | unarchive hanswer =>
    refine ⟨fun hdeleted => ?_, hrow.deleted⟩
    rw [hopen hanswer] at hdeleted
    nomatch hdeleted
  | restore hpurged _ =>
    refine ⟨fun hdeleted => (nomatch hdeleted), fun hp => ?_⟩
    rw [hpurged] at hp
    nomatch hp
  | delete now keys shares _ _ =>
    refine ⟨fun _ => ?_, fun _ => rfl⟩
    rw [Project.markDeleted]
    split_ifs with harchived
    · exact harchived
    · rfl
  | purge now hdue _ _ =>
    have hdeleted := (isPurgeDue_iff.1 hdue).1
    exact ⟨fun _ => hrow.archived hdeleted, fun _ => hdeleted⟩

/-- Only a delete deletes. -/
lemma Mark.deleted (h : Mark answer clock n row f) (hf : (f row).deletedAt.isSome = true) :
    row.deletedAt.isSome = true ∨ ∃ keys shares, answer = .deleted n keys shares := by
  cases h with
  | archive now _ => exact .inl hf
  | unarchive _ => exact .inl hf
  | restore _ _ => nomatch hf
  | delete now keys shares _ hanswer => exact .inr ⟨keys, shares, hanswer⟩
  | purge now _ _ _ => exact .inl hf

/-- What is purged stays so. -/
lemma Mark.purgedAt (h : Mark answer clock n row f) (hrow : row.purgedAt.isSome = true) :
    (f row).purgedAt.isSome = true := by
  cases h with
  | purge now _ _ _ => rfl
  | _ => exact hrow

lemma Mark.of_restored {m : ℕ} (h : Mark answer clock n row f) (hanswer : answer = .restored m) :
    m = n ∧ row.purgedAt = none ∧ (f row).deletedAt = none := by
  subst hanswer
  cases h with
  | restore hpurged hanswer => exact ⟨ProjectAnswer.restored.inj hanswer, hpurged, rfl⟩
  | _ => rename_i hanswer; nomatch hanswer

lemma Mark.of_purged {m now : ℕ} (h : Mark answer clock n row f) (hanswer : answer = .purged m now) :
    m = n ∧ isPurgeDue row now = true ∧ now ≤ clock ∧ (f row).purgedAt.isSome = true := by
  subst hanswer
  cases h with
  | purge now' hdue hnow hanswer =>
    cases hanswer
    exact ⟨rfl, hdue, hnow, rfl⟩
  | _ => rename_i hanswer; nomatch hanswer

end Mark

section Move

variable {held : Set ProjectLock} {w : ProjectWorld} {ev : ProjectEnd} {n : ℕ}

lemma isProjectDeleted_of_find {d : ProjectDb} {row : Project}
    (h : projectTable.find d n = some row) : isProjectDeleted d n = row.deletedAt.isSome := by
  rw [isProjectDeleted, h]
  rfl

lemma isPurged_of_find {d : ProjectDb} {row : Project} (h : projectTable.find d n = some row) :
    isPurged d n = row.purgedAt.isSome := by
  rw [isPurged, h]
  rfl

lemma ProjectMove.deleted (h : ProjectMove held w ev) (hn : isProjectDeleted ev.after n = true) :
    isProjectDeleted ev.before n = true ∨ Deletes n ev := by
  rcases h.projects with ⟨-, hsame⟩ | ⟨m, row, f, hmarked⟩
  · rw [isProjectDeleted, find_of_projects hsame] at hn
    exact .inl hn
  · by_cases hm : n = m
    · subst hm
      rw [isProjectDeleted_of_find hmarked.find_self] at hn
      rw [isProjectDeleted_of_find hmarked.find]
      exact hmarked.mark.deleted hn
    · rw [isProjectDeleted, hmarked.find_of_ne hm] at hn
      exact .inl hn

lemma ProjectMove.isPurged (h : ProjectMove held w ev) (hn : isPurged ev.before n = true) :
    Projects.isPurged ev.after n = true := by
  rcases h.projects with ⟨-, hsame⟩ | ⟨m, row, f, hmarked⟩
  · rw [Projects.isPurged, find_of_projects hsame]
    exact hn
  · by_cases hm : n = m
    · subst hm
      rw [isPurged_of_find hmarked.find] at hn
      rw [isPurged_of_find hmarked.find_self]
      exact hmarked.mark.purgedAt hn
    · rw [Projects.isPurged, hmarked.find_of_ne hm]
      exact hn

lemma ProjectMove.of_restored (h : ProjectMove held w ev) (hn : Restores n ev) :
    Projects.isPurged ev.before n = false ∧ isProjectDeleted ev.after n = false := by
  rcases h.projects with ⟨hmark, -⟩ | ⟨m, row, f, hmarked⟩
  · rw [show ev.answer = _ from hn] at hmark
    nomatch hmark
  · obtain ⟨rfl, hpurged, hdeleted⟩ := hmarked.mark.of_restored hn
    rw [isPurged_of_find hmarked.find, isProjectDeleted_of_find hmarked.find_self, hpurged, hdeleted]
    exact ⟨rfl, rfl⟩

lemma ProjectMove.of_purged {now : ℕ} (h : ProjectMove held w ev) (hn : ev.answer = .purged n now) :
    (∃ row, projectTable.find ev.before n = some row ∧ isPurgeDue row now = true) ∧ now ≤ w.clock ∧
      Projects.isPurged ev.after n = true := by
  rcases h.projects with ⟨hmark, -⟩ | ⟨m, row, f, hmarked⟩
  · rw [hn] at hmark
    nomatch hmark
  · obtain ⟨rfl, hdue, hnow, hpurged⟩ := hmarked.mark.of_purged hn
    refine ⟨⟨row, hmarked.find, hdue⟩, hnow, ?_⟩
    rw [isPurged_of_find hmarked.find_self, hpurged]

lemma ProjectMove.rowOk (h : ProjectMove held w ev) (hadm : Undisturbed ev = true)
    (hok : ∀ m row, projectTable.find ev.before m = some row → RowOk row) {row : Project}
    (hrow : projectTable.find ev.after n = some row) : RowOk row := by
  rcases h.projects with ⟨-, hsame⟩ | ⟨m, row₀, f, hmarked⟩
  · rw [find_of_projects hsame] at hrow
    exact hok n row hrow
  · by_cases hm : n = m
    · subst hm
      rw [hmarked.find_self, Option.some.injEq] at hrow
      rw [← hrow]
      refine hmarked.mark.rowOk (hok n row₀ hmarked.find) fun hanswer => ?_
      simpa [Undisturbed, hanswer, isProjectDeleted_of_find hmarked.find] using hadm
    · rw [hmarked.find_of_ne hm] at hrow
      exact hok n row hrow

lemma ProjectMove.ids (h : ProjectMove held w ev) :
    ev.after.projects.map Project.id = ev.before.projects.map Project.id := by
  rcases h.projects with ⟨-, hsame⟩ | ⟨m, row, f, hmarked⟩
  · rw [hsame]
  · exact hmarked.ids

end Move

/-! ### The invariant -/

/-- What holds of the committed rows and of the log. -/
structure ProjectInv (w : ProjectWorld) : Prop where
  projects : (w.db.projects.map Project.id).Nodup
  machineUsers : (w.db.machineUsers.map MachineUser.id).Nodup
  credentials : (w.db.credentials.map ProjectCredential.id).Nodup
  rows : ∀ n row, projectTable.find w.db n = some row → RowOk row
  rotations : ∀ r ∈ w.db.rotations, isProjectDeleted w.db r.projectId = true →
    r.status ∉ blockingRotationStatuses
  keys : ∀ n, isProjectDeleted w.db n = true → ∀ k ∈ w.db.keysOf n, isActiveKey k w.clock = false
  shares : ∀ n, isProjectDeleted w.db n = true → ∀ s ∈ w.db.sharesOf n, s.isActive = false
  due : ∀ ev ∈ w.log, ∀ n now, ev.answer = .purged n now →
    (∃ row, projectTable.find ev.before n = some row ∧ isPurgeDue row now = true) ∧ now ≤ w.clock
  purged : ∀ ev ∈ w.log, ∀ n, Purges n ev → isPurged w.db n = true
  restored : ∀ n newer ev older, w.log = newer ++ ev :: older → Restores n ev →
    (∀ e ∈ newer, ¬ Deletes n e) → isProjectDeleted w.db n = false
  exclusive : ∀ n newer e₂ between e₁ older, w.log = newer ++ e₂ :: (between ++ e₁ :: older) →
    (∀ e ∈ between, ¬ Deletes n e) →
      ¬ (Restores n e₁ ∧ Purges n e₂) ∧ ¬ (Purges n e₁ ∧ Restores n e₂)

/-- An inactive key stays inactive. -/
lemma isActiveKey_antitone {k : ApiKey} {t t' : ℕ} (h : t ≤ t') (hk : isActiveKey k t = false) :
    isActiveKey k t' = false := by
  rw [isActiveKey, Bool.and_eq_false_iff] at hk ⊢
  refine hk.imp_right fun hk => ?_
  rw [ApiKey.unexpired, ← Bool.not_eq_true, Option.all_eq_true] at hk ⊢
  intro hall
  refine hk fun e he => ?_
  have := of_decide_eq_true (hall e he)
  exact decide_eq_true (h.trans_lt this)

lemma ProjectInv.later {w : ProjectWorld} (h : ProjectInv w) {n t : ℕ} (ht : w.clock ≤ t) :
    ProjectInv { w with seq := n, clock := t } :=
  { h with
    keys := fun m hm k hk => isActiveKey_antitone ht (h.keys m hm k hk)
    due := fun ev hev m now hnow => ⟨(h.due ev hev m now hnow).1, (h.due ev hev m now hnow).2.trans ht⟩ }

lemma mem_keysOf {d : ProjectDb} {n : ℕ} {k : ApiKey} :
    k ∈ d.keysOf n ↔ k ∈ d.keys ∧ ∃ u ∈ d.machineUsers, u.id = k.machineUserId ∧ u.projectId = n := by
  simp [ProjectDb.keysOf]

lemma mem_sharesOf {d : ProjectDb} {n : ℕ} {s : ProjectShare} :
    s ∈ d.sharesOf n ↔ s ∈ d.shares ∧ ∃ c ∈ d.credentials, c.id = s.credentialId ∧ c.projectId = n := by
  simp [ProjectDb.sharesOf]

section Ended

variable {held : Set ProjectLock} {w : ProjectWorld} {ev : ProjectEnd}

lemma ProjectMove.inv_rotations (h : ProjectMove held w ev)
    (hrows : ∀ n row, projectTable.find ev.before n = some row → RowOk row)
    (hinv : ∀ r ∈ ev.before.rotations, isProjectDeleted ev.before r.projectId = true →
      r.status ∉ blockingRotationStatuses)
    {r : ProjectRotation} (hr : r ∈ ev.after.rotations)
    (hdeleted : isProjectDeleted ev.after r.projectId = true) :
    r.status ∉ blockingRotationStatuses := by
  rcases h.rotations r hr with hold | ⟨-, hmark, row, hrow, harchived⟩
  · rcases h.deleted hdeleted with hbefore | ⟨keys, shares, hanswer⟩
    · exact hinv r hold hbefore
    · exact (h.cleared _ keys shares hanswer).rotations r hold rfl
  · -- the project of a new rotation is not archived, hence not deleted
    exfalso
    rcases h.deleted hdeleted with hbefore | ⟨keys, shares, hanswer⟩
    · rw [isProjectDeleted_of_find hrow] at hbefore
      have := (hrows _ row hrow).archived hbefore
      rw [harchived] at this
      nomatch this
    · rw [hanswer] at hmark
      nomatch hmark

lemma ProjectMove.inv_keys (h : ProjectMove held w ev) (hadm : Undisturbed ev = true) {n : ℕ}
    (hinv : isProjectDeleted ev.before n = true → ∀ k ∈ ev.before.keysOf n,
      isActiveKey k w.clock = false)
    (hdeleted : isProjectDeleted ev.after n = true) {k : ApiKey} (hk : k ∈ ev.after.keysOf n) :
    isActiveKey k w.clock = false := by
  obtain ⟨hmem, u, hu, huid, hproject⟩ := mem_keysOf.1 hk
  have hu' := h.machineUsers.subset hu
  rcases h.keys k hmem with hold | ⟨m, hissued, huser⟩
  · have hbefore : k ∈ ev.before.keysOf n := mem_keysOf.2 ⟨hold, u, hu', huid, hproject⟩
    rcases h.deleted hdeleted with hdel | ⟨keys, shares, hanswer⟩
    · exact hinv hdel k hbefore
    · obtain ⟨today, htoday, hinactive⟩ := (h.cleared n keys shares hanswer).keys
      rw [Undisturbed, hanswer, Bool.and_eq_true, List.all_eq_true] at hadm
      exact isActiveKey_antitone htoday (hinactive k (of_decide_eq_true (hadm.1 k hbefore)))
  · exfalso
    obtain rfl : n = m := hproject.symm.trans (huser u hu' huid)
    rcases h.deleted hdeleted with hdel | ⟨keys, shares, hanswer⟩
    · simp [Undisturbed, hissued, hdel] at hadm
    · rw [hissued] at hanswer
      nomatch hanswer

lemma ProjectMove.inv_shares (h : ProjectMove held w ev) (hadm : Undisturbed ev = true) {n : ℕ}
    (hinv : isProjectDeleted ev.before n = true → ∀ s ∈ ev.before.sharesOf n, s.isActive = false)
    (hdeleted : isProjectDeleted ev.after n = true) {s : ProjectShare}
    (hs : s ∈ ev.after.sharesOf n) : s.isActive = false := by
  by_contra hactive
  rw [Bool.not_eq_false] at hactive
  obtain ⟨hmem, c, hc, hcid, hproject⟩ := mem_sharesOf.1 hs
  have hc' := h.credentials.subset hc
  rcases h.shares s hmem hactive with hold | ⟨m, hshared, hcredential⟩
  · have hbefore : s ∈ ev.before.sharesOf n := mem_sharesOf.2 ⟨hold, c, hc', hcid, hproject⟩
    rcases h.deleted hdeleted with hdel | ⟨keys, shares, hanswer⟩
    · rw [hinv hdel s hbefore] at hactive
      nomatch hactive
    · rw [Undisturbed, hanswer, Bool.and_eq_true, List.all_eq_true, List.all_eq_true] at hadm
      exact (h.cleared n keys shares hanswer).shares s hmem hactive s
        (of_decide_eq_true (hadm.2 s hbefore)) rfl
  · obtain rfl : n = m := hproject.symm.trans (hcredential c hc' hcid)
    rcases h.deleted hdeleted with hdel | ⟨keys, shares, hanswer⟩
    · simp [Undisturbed, hshared, hdel] at hadm
    · rw [hshared] at hanswer
      nomatch hanswer

/-- A restore is undone by a delete only. -/
lemma ProjectInv.restored_ended (hw : ProjectInv w) (hbefore : ev.before = w.db)
    (h : ProjectMove held w ev) {n : ℕ} {newer older : List ProjectEnd} {e : ProjectEnd}
    (hlog : ev :: w.log = newer ++ e :: older) (he : Restores n e)
    (hnone : ∀ e ∈ newer, ¬ Deletes n e) : isProjectDeleted ev.after n = false := by
  rcases List.cons_eq_append_iff.1 hlog with ⟨-, hhead⟩ | ⟨newer', rfl, hlog'⟩
  · cases hhead
    exact (h.of_restored he).2
  · by_contra hdeleted
    rw [Bool.not_eq_false] at hdeleted
    have hold := hw.restored n newer' e older hlog' he fun e' he' =>
      hnone e' (List.mem_cons_of_mem ev he')
    rcases h.deleted hdeleted with hdel | hdeletes
    · rw [hbefore, hold] at hdel
      nomatch hdel
    · exact hnone ev List.mem_cons_self hdeletes

/-- No restore and purge of one deletion. -/
lemma ProjectInv.exclusive_ended (hw : ProjectInv w) (hbefore : ev.before = w.db)
    (h : ProjectMove held w ev) {n : ℕ} {newer between older : List ProjectEnd} {e₁ e₂ : ProjectEnd}
    (hlog : ev :: w.log = newer ++ e₂ :: (between ++ e₁ :: older))
    (hnone : ∀ e ∈ between, ¬ Deletes n e) :
    ¬ (Restores n e₁ ∧ Purges n e₂) ∧ ¬ (Purges n e₁ ∧ Restores n e₂) := by
  rcases List.cons_eq_append_iff.1 hlog with ⟨-, hhead⟩ | ⟨newer', rfl, hlog'⟩
  · obtain ⟨rfl, hrest⟩ := List.cons.inj hhead
    constructor
    · rintro ⟨hrestores, now, hpurges⟩
      have hopen := hw.restored n between e₁ older hrest.symm hrestores hnone
      obtain ⟨⟨row, hrow, hdue⟩, -⟩ := h.of_purged hpurges
      rw [hbefore] at hrow
      rw [isProjectDeleted_of_find hrow, (isPurgeDue_iff.1 hdue).1] at hopen
      nomatch hopen
    · rintro ⟨hpurges, hrestores⟩
      have hmem : e₁ ∈ w.log := by
        rw [← hrest]
        exact List.mem_append_right _ List.mem_cons_self
      have hgone := hw.purged e₁ hmem n hpurges
      rw [← hbefore, (h.of_restored hrestores).1] at hgone
      nomatch hgone
  · exact hw.exclusive n newer' e₂ between e₁ older hlog' hnone

/-- The end of an undisturbed transaction keeps the invariant. -/
lemma ProjectInv.ended (hw : ProjectInv w) (hbefore : ev.before = w.db)
    (hadm : Undisturbed ev = true) (h : ProjectMove held w ev) : ProjectInv (w.ended ev) where
  projects := by
    change (ev.after.projects.map Project.id).Nodup
    rw [h.ids, hbefore]
    exact hw.projects
  machineUsers := (hbefore ▸ hw.machineUsers).sublist (h.machineUsers.map _)
  credentials := (hbefore ▸ hw.credentials).sublist (h.credentials.map _)
  rows _ _ hrow := h.rowOk hadm (hbefore ▸ hw.rows) hrow
  rotations _ hr hdeleted :=
    h.inv_rotations (hbefore ▸ hw.rows) (hbefore ▸ hw.rotations) hr hdeleted
  keys n hdeleted _ hk := h.inv_keys hadm (hbefore ▸ hw.keys n) hdeleted hk
  shares n hdeleted _ hs := h.inv_shares hadm (hbefore ▸ hw.shares n) hdeleted hs
  due e he n now hnow := by
    rcases List.mem_cons.1 he with rfl | he
    · exact ⟨(h.of_purged hnow).1, (h.of_purged hnow).2.1⟩
    · exact hw.due e he n now hnow
  purged e he n hpurges := by
    rcases List.mem_cons.1 he with rfl | he
    · obtain ⟨now, hanswer⟩ := hpurges
      exact (h.of_purged hanswer).2.2
    · exact h.isPurged (hbefore ▸ hw.purged e he n hpurges)
  restored _ _ _ _ hlog he hnone := hw.restored_ended hbefore h hlog he hnone
  exclusive _ _ _ _ _ _ hlog hnone := hw.exclusive_ended hbefore h hlog hnone

end Ended

/-- What the sessions of the project code owe each other. -/
def projectProtocol : Protocol ProjectDb ProjectLock ProjectAnswer where
  inv := ProjectInv
  move := ProjectMove
  admits ev := Undisturbed ev = true
  inv_move hinv hbefore hadm hmove := hinv.ended hbefore hadm hmove
  inv_later hinv _ ht := hinv.later ht

/-! ### What the others do -/

section Rely

variable {held : Set ProjectLock} {w w' : ProjectWorld} {n : ℕ}

lemma find_of_rely (hr : Rely projectProtocol held w w') (hn : ProjectLock.project n ∈ held) :
    projectTable.find w'.db n = projectTable.find w.db n := by
  refine Rely.stable (A := fun v => projectTable.find v.db n = projectTable.find w.db n) ?_ ?_ hr rfl
  · intro other v ev hdisj _ hbefore _ _ hmove hA
    exact (hmove.find_eq (Set.disjoint_left.1 hdisj hn)).trans (hbefore ▸ hA)
  · exact fun v m t _ _ hA => hA

lemma rotations_of_rely (hr : Rely projectProtocol held w w') (hn : ProjectLock.project n ∈ held) :
    ∀ r ∈ w'.db.rotations, r.projectId = n → r ∈ w.db.rotations := by
  refine Rely.stable (A := fun v => ∀ r ∈ v.db.rotations, r.projectId = n → r ∈ w.db.rotations)
    ?_ ?_ hr fun _ h _ => h
  · intro other v ev hdisj _ hbefore _ _ hmove hA r hr hid
    have hold := hmove.mem_rotations (Set.disjoint_left.1 hdisj hn) hr hid
    exact hA r (hbefore ▸ hold) hid
  · exact fun v m t _ _ hA => hA

lemma sublist_of_rely (hr : Rely projectProtocol held w w') :
    w'.db.machineUsers.Sublist w.db.machineUsers ∧ w'.db.credentials.Sublist w.db.credentials := by
  refine Rely.stable (A := fun v => v.db.machineUsers.Sublist w.db.machineUsers ∧
    v.db.credentials.Sublist w.db.credentials) ?_ ?_ hr ⟨.refl _, .refl _⟩
  · intro other v ev _ _ hbefore _ _ hmove hA
    exact ⟨hmove.machineUsers.trans (hbefore ▸ hA.1), hmove.credentials.trans (hbefore ▸ hA.2)⟩
  · exact fun v m t _ _ hA => hA

end Rely

end ProjectVault.Projects
