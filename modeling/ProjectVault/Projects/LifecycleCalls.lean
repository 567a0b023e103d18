import ProjectVault.Projects.LifecycleMoves

/-!
The calls of the project lifecycle keep to its protocol.
-/

namespace ProjectVault.Projects

open Db MachineUsers

/-! ### Rules -/

/-- A locked project row. -/
structure Locked (n : ℕ) (row : Project) (l : Local ProjectDb ProjectLock) (w : ProjectWorld) :
    Prop where
  lock : ProjectLock.project n ∈ l.held
  find : projectTable.find w.db n = some row

section Rules

variable {l l' : Local ProjectDb ProjectLock} {w w' : ProjectWorld} {n : ℕ} {row : Project}
variable {f : Project → Project} {answer : ProjectAnswer}

lemma Locked.rely (h : Locked n row l w) (hr : Rely projectProtocol l.held w w') :
    Locked n row l w' :=
  ⟨h.lock, (find_of_rely hr h.lock).trans h.find⟩

lemma Locked.bump (h : Locked n row l w) : Locked n row l w.bump := ⟨h.lock, h.find⟩

lemma Locked.wrote (h : Locked n row l w) (keys : List ProjectLock)
    (writes : ProjectDb → ProjectDb) : Locked n row (l.wrote keys writes) w :=
  ⟨l.held_wrote keys writes h.lock, h.find⟩

/-- No rotation of the project blocks. -/
def Quiet (n : ℕ) (w : ProjectWorld) : Prop :=
  ∀ r ∈ w.db.rotations, r.projectId = n → r.status ∉ blockingRotationStatuses

lemma Quiet.rely (h : Quiet n w) (hn : ProjectLock.project n ∈ l.held)
    (hr : Rely projectProtocol l.held w w') : Quiet n w' :=
  fun r hmem hid => h r (rotations_of_rely hr hn r hmem hid) hid

/-- A transaction that ends without a change. -/
lemma ProjectMove.refusal {held : Set ProjectLock} {locked : ProjectLock → Bool} {after : ProjectDb}
    (hafter : after = w.db) (hanswer : answer.isRefusal = true) :
    ProjectMove held w ⟨w.db, answer, after, locked⟩ := by
  subst hafter
  have hmark : answer.isMark = false := by
    cases answer <;> first | rfl | nomatch hanswer
  refine
    { projects := .inl ⟨hmark, rfl⟩
      machineUsers := .refl _
      credentials := .refl _
      rotations := fun r hr => .inl hr
      keys := fun k hk => .inl hk
      shares := fun s hs _ => .inl hs
      cleared := ?_ }
  rintro m keys shares rfl
  nomatch hmark

/-- The rule for a refusal. -/
lemma wp_refuse (hclean : l.Clean) (hanswer : answer.isRefusal = true) :
    wp projectProtocol (.commitTx answer) (fun _ _ _ => True) l w :=
  Db.wp_commitTx fun _ _ _ _ _ => ⟨.refusal (hclean _) hanswer, trivial⟩

/-- The rule for the end of a handler. -/
lemma wp_audited (h : ∀ w' locked, Rely projectProtocol l.held w w' → ProjectInv w' →
      ProjectMove l.held w' ⟨w'.db, answer, l.pending w'.db, locked⟩) :
    wp projectProtocol (audited answer) (fun _ _ _ => True) l w := by
  rw [audited, wp_bind]
  refine wp_either fun b => ?_
  cases b with
  | true => exact Db.wp_rollbackTx fun _ _ _ _ _ => ⟨.refusal rfl rfl, trivial⟩
  | false => exact Db.wp_commitTx fun w' locked hr hinv _ => ⟨h w' locked hr hinv, trivial⟩

/-- The rule for `SELECT … FOR UPDATE` of a project. -/
lemma wp_lockProject (hclean : l.Clean) {cond : Ctx ProjectDb → Project → Bool}
    {Q : Option Project → Local ProjectDb ProjectLock → ProjectWorld → Prop}
    (hnone : ∀ w', Q none l w')
    (hsome : ∀ row l' w', l'.Clean → w.clock ≤ w'.clock → row.id = n → Locked n row l' w' →
      (∃ c, cond c row = true) → Q (some row) l' w') :
    wp projectProtocol (projectTable.selectForUpdate n cond) Q l w := by
  refine Table.wp_selectForUpdate (fun _ _ _ => hnone _) ?_
  intro w' row hr _ hfind hcond
  rw [hclean] at hfind
  refine hsome row _ _ (fun d => hclean d) hr.le.2 (Table.find_eq_some hfind).2 ?_
    ⟨_, hcond⟩
  exact ⟨.inr (List.mem_singleton.2 rfl), hfind⟩

/-- The rule for the preflight of the handlers. -/
lemma wp_load (hclean : l.Clean)
    {Q : Except ProjectAnswer Project → Local ProjectDb ProjectLock → ProjectWorld → Prop}
    (herror : ∀ answer l' w', answer.isRefusal = true → l'.Clean → Q (.error answer) l' w')
    (hok : ∀ row l' w', l'.Clean → row.id = n → Locked n row l' w' → Q (.ok row) l' w') :
    wp projectProtocol (loadOwnedProjectForArchiveToggle n) Q l w := by
  rw [loadOwnedProjectForArchiveToggle, wp_bind]
  refine wp_either fun b => ?_
  cases b with
  | true => exact herror _ _ _ rfl hclean
  | false =>
    simp only [Bool.false_eq_true, if_false]
    rw [wp_bind, lockProject]
    refine wp_lockProject hclean (fun w' => herror _ _ _ rfl hclean) ?_
    intro row l' w' hclean' _ hid hlocked _
    dsimp only
    rw [wp_bind]
    refine wp_either fun b => ?_
    cases b with
    | true => exact herror _ _ _ rfl hclean'
    | false => exact hok row _ _ hclean' hid hlocked

/-- The rule for the gate of the routes of a project. -/
lemma wp_gate (hclean : l.Clean) {p : ProjectProg Unit}
    (h : ∀ l' w', l' = l → wp projectProtocol p (fun _ _ _ => True) l' w')
    (hanswer : answer.isRefusal = true) :
    wp projectProtocol (do if ← rejectIfProjectDeleted n then .commitTx answer else p)
      (fun _ _ _ => True) l w := by
  rw [wp_bind, rejectIfProjectDeleted]
  refine Db.wp_query fun w' _ _ => ?_
  split_ifs
  · exact wp_refuse hclean hanswer
  · exact h _ _ rfl

lemma Locked.move {locked : ProjectLock → Bool} {after : ProjectDb} (h : Locked n row l w)
    (hmark : Mark answer w.clock n row f)
    (hafter : after = projectTable.modify (updateWhere (fun p => p.id = n) f) w.db)
    (hdelete : ∀ m keys shares, answer ≠ .deleted m keys shares) :
    ProjectMove l.held w ⟨w.db, answer, after, locked⟩ := by
  subst hafter
  exact
    { projects := .inr ⟨n, row, f, h.lock, h.find, hmark, rfl⟩
      machineUsers := .refl _
      credentials := .refl _
      rotations := fun r hr => .inl hr
      keys := fun k hk => .inl hk
      shares := fun s hs _ => .inl hs
      cleared := fun m keys shares hanswer => (hdelete m keys shares hanswer).elim }

/-- The rule for the update of the locked project. -/
lemma wp_markLocked (hclean : l.Clean) (h : Locked n row l w)
    {cond : Ctx ProjectDb → Project → Bool}
    {Q : Option Project → Local ProjectDb ProjectLock → ProjectWorld → Prop}
    (hnone : ∀ w', Q none l w') (hsome : ∀ w' l' c, l' = l.wrote [.project n]
        (projectTable.modify (updateWhere (fun p => p.id = n) f)) → Locked n row l' w' →
      Rely projectProtocol l.held w w' → cond c row = true → Q (some (f row)) l' w') :
    wp projectProtocol (projectTable.updateRow n cond fun _ p => f p) Q l w := by
  refine Table.wp_updateRow (fun _ _ _ _ => hnone _) ?_
  intro w' row' hr _ hfind hcond
  have h' := h.rely hr
  rw [hclean, h'.find, Option.some.injEq] at hfind
  subst hfind
  exact hsome _ _ _ rfl (h'.bump.wrote _ _) (hr.trans (World.bump_rely w')) hcond

/-- The rule for the end of a handler whose one change is that update. -/
lemma wp_auditedMark (hclean : l.Clean)
    (hl' : l' = l.wrote [.project n] (projectTable.modify (updateWhere (fun p => p.id = n) f)))
    (h : Locked n row l' w) (hmark : ∀ clock, Mark answer clock n row f)
    (hdelete : ∀ m keys shares, answer ≠ .deleted m keys shares) :
    wp projectProtocol (audited answer) (fun _ _ _ => True) l' w := by
  refine wp_audited fun w' locked hr _ => (h.rely hr).move (hmark _) ?_ hdelete
  rw [hl']
  exact congrArg (projectTable.modify _) (hclean _)

end Rules

/-! ### The calls -/

section Calls

variable {w : ProjectWorld}

lemma wp_archive (t n : ℕ) :
    wp projectProtocol (archive n) (fun _ _ _ => True) (.idle t) w := by
  rw [archive, wp_bind]
  refine Db.wp_beginTx fun w _ _ => ?_
  refine wp_gate (fun _ => rfl) ?_ rfl
  rintro l w rfl
  rw [wp_bind]
  refine wp_load (fun _ => rfl) (fun answer l w hanswer hclean => wp_refuse hclean hanswer) ?_
  intro row l w hclean hid hlocked
  dsimp only
  split_ifs
  · exact wp_refuse hclean rfl
  · rw [wp_bind]
    refine Db.wp_query fun w₁ hr₁ _ => ?_
    split_ifs
    · exact wp_refuse hclean rfl
    · rw [wp_bind]
      refine Db.wp_query fun w₂ hr₂ _ => ?_
      split_ifs
      · exact wp_refuse hclean rfl
      · rw [wp_bind]
        refine Db.wp_query fun w₃ hr₃ _ => ?_
        split_ifs
        · exact wp_refuse hclean rfl
        · rw [dateNow, wp_bind]
          refine Db.wp_query fun w₄ hr₄ _ => ?_
          rw [wp_bind]
          have hlocked₄ := (((((((hlocked.rely hr₁).bump).rely hr₂).bump).rely hr₃).bump).rely hr₄).bump
          refine wp_markLocked hclean hlocked₄ (fun _ => wp_refuse hclean rfl) ?_
          intro w₅ l₅ c hl₅ hlocked₅ _ _
          exact wp_auditedMark hclean hl₅ hlocked₅ (fun _ => .archive _ (congrArg _ hid)) nofun

lemma wp_unarchive (t n : ℕ) :
    wp projectProtocol (unarchive n) (fun _ _ _ => True) (.idle t) w := by
  rw [unarchive, wp_bind]
  refine Db.wp_beginTx fun w _ _ => ?_
  refine wp_gate (fun _ => rfl) ?_ rfl
  rintro l w rfl
  rw [wp_bind]
  refine wp_load (fun _ => rfl) (fun answer l w hanswer hclean => wp_refuse hclean hanswer) ?_
  intro row l w hclean hid hlocked
  dsimp only
  split_ifs
  · exact wp_refuse hclean rfl
  · rw [wp_bind]
    refine wp_markLocked hclean hlocked (fun _ => wp_refuse hclean rfl) ?_
    intro w' l' c hl' hlocked' _ _
    exact wp_auditedMark hclean hl' hlocked' (fun _ => .unarchive (congrArg _ hid)) nofun

lemma wp_restore (t n : ℕ) :
    wp projectProtocol (restore n) (fun _ _ _ => True) (.idle t) w := by
  rw [restore, wp_bind]
  refine Db.wp_beginTx fun w _ _ => ?_
  rw [wp_bind]
  refine wp_load (fun _ => rfl) (fun answer l w hanswer hclean => wp_refuse hclean hanswer) ?_
  intro row l w hclean hid hlocked
  dsimp only
  split_ifs with hpurged hdeleted
  · exact wp_refuse hclean rfl
  · exact wp_refuse hclean rfl
  · rw [wp_bind, markProjectRestored]
    refine wp_markLocked hclean hlocked (fun _ => wp_refuse hclean rfl) ?_
    intro w' l' c hl' hlocked' _ _
    have hnone := Option.not_isSome_iff_eq_none.1 hpurged
    exact wp_auditedMark hclean hl' hlocked' (fun _ => .restore hnone (congrArg _ hid)) nofun

lemma not_blocking_of_nil {d : ProjectDb} {n : ℕ} (h : findBlockingRotationIds d n = []) :
    ∀ r ∈ d.rotations, r.projectId = n → r.status ∉ blockingRotationStatuses := by
  intro r hr hid hstatus
  rw [findBlockingRotationIds, List.map_eq_nil_iff, List.filter_eq_nil_iff] at h
  exact h r hr (by simp [hid, hstatus])

lemma not_active_of_nil {d : ProjectDb} {n now : ℕ} (h : activeMachineUserKeysQuery d n now = []) :
    ∀ k ∈ d.keysOf n, isActiveKey k now = false := by
  intro k hk
  rw [activeMachineUserKeysQuery, List.filter_eq_nil_iff] at h
  exact Bool.eq_false_iff.2 (h k hk)

/-- A share that is still active after the revocation is not one of those found. -/
lemma mem_revokeShares {now : ℕ} {found rows : List ProjectShare} {s : ProjectShare}
    (hs : s ∈ revokeShares now found rows) (hactive : s.isActive = true) :
    s ∈ rows ∧ ∀ f ∈ found, f.id ≠ s.id := by
  obtain ⟨r, hr, heq⟩ := mem_updateWhere.1 hs
  split_ifs at heq with hcond
  · rw [← heq] at hactive
    nomatch hactive
  · subst heq
    refine ⟨hr, fun f hf hid => hcond ?_⟩
    rw [Bool.and_eq_true, List.any_eq_true]
    exact ⟨hactive, f, hf, decide_eq_true hid⟩

/-- What a delete writes. -/
def deletedWrites (n now : ℕ) (wasArchived : Bool) (revokedAt : ℕ) (shares : List ProjectShare)
    (d : ProjectDb) : ProjectDb :=
  { projectTable.modify (updateWhere (fun p => p.id = n) (Project.markDeleted now wasArchived)) d with
    shares := revokeShares revokedAt shares d.shares }

/-- A delete that nothing blocks: the locked project has no blocking rotation, and the keys that
were found are not active. -/
structure Unblocked (n : ℕ) (row : Project) (today : ℕ) (keys : List ApiKey)
    (l : Local ProjectDb ProjectLock) (w : ProjectWorld) : Prop extends Locked n row l w where
  quiet : Quiet n w
  today_le : today ≤ w.clock
  inactive : ∀ k ∈ keys, isActiveKey k today = false

lemma Unblocked.rely {l : Local ProjectDb ProjectLock} {w w' : ProjectWorld} {n today : ℕ}
    {row : Project} {keys : List ApiKey} (h : Unblocked n row today keys l w)
    (hr : Rely projectProtocol l.held w w') : Unblocked n row today keys l w' :=
  ⟨h.toLocked.rely hr, h.quiet.rely h.lock hr, h.today_le.trans hr.le.2, h.inactive⟩

lemma Unblocked.wrote {l : Local ProjectDb ProjectLock} {w : ProjectWorld} {n today : ℕ}
    {row : Project} {ks : List ApiKey} (h : Unblocked n row today ks l w)
    (keys : List ProjectLock) (writes : ProjectDb → ProjectDb) :
    Unblocked n row today ks (l.wrote keys writes) w :=
  ⟨h.toLocked.wrote keys writes, h.quiet, h.today_le, h.inactive⟩

/-- The end of a delete. -/
lemma Unblocked.move {l : Local ProjectDb ProjectLock} {n today : ℕ} {row : Project}
    {keys : List ApiKey} {shares : List ProjectShare} {locked : ProjectLock → Bool}
    {after : ProjectDb} (h : Unblocked n row today keys l w) (hdeleted : row.deletedAt = none)
    (now revokedAt : ℕ) (hafter : after = deletedWrites n now row.archivedAt.isSome revokedAt shares w.db) :
    ProjectMove l.held w ⟨w.db, .deleted n keys shares, after, locked⟩ := by
  subst hafter
  refine
    { projects := .inr ⟨n, row, _, h.lock, h.find, .delete now keys shares hdeleted rfl, rfl⟩
      machineUsers := .refl _
      credentials := .refl _
      rotations := fun r hr => .inl hr
      keys := fun k hk => .inl hk
      shares := fun s hs hactive => .inl (mem_revokeShares hs hactive).1
      cleared := ?_ }
  rintro m keys' shares' hanswer
  cases hanswer
  exact ⟨h.quiet, ⟨today, h.today_le, h.inactive⟩,
    fun s hs hactive => (mem_revokeShares hs hactive).2⟩

lemma wp_delete (t n : ℕ) :
    wp projectProtocol (delete n) (fun _ _ _ => True) (.idle t) w := by
  rw [delete, wp_bind]
  refine Db.wp_beginTx fun w _ _ => ?_
  refine wp_gate (fun _ => rfl) ?_ rfl
  rintro l w rfl
  rw [wp_bind]
  refine wp_load (fun _ => rfl) (fun answer l w hanswer hclean => wp_refuse hclean hanswer) ?_
  rintro row l w hclean rfl hlocked
  dsimp only
  rw [wp_bind]
  refine Db.wp_query fun w₁ hr₁ _ => ?_
  split_ifs with hrotations
  · exact wp_refuse hclean rfl
  have hquiet : Quiet row.id w₁ := by
    have hnil := not_ne_iff.1 hrotations
    rw [Local.ctx, hclean] at hnil
    exact not_blocking_of_nil hnil
  rw [dateNow, wp_bind]
  refine Db.wp_query fun w₂ hr₂ _ => ?_
  rw [wp_bind]
  refine Db.wp_query fun w₃ hr₃ _ => ?_
  dsimp only
  split_ifs with hkeys
  · exact wp_refuse hclean rfl
  have hr₂' := (World.bump_rely w₁).trans hr₂
  have hr₃' := (World.bump_rely w₂).trans hr₃
  have hready : Unblocked row.id row (l.ctx w₂).clock ((l.ctx w₃).view.keysOf row.id) l w₃.bump :=
    { toLocked := (((hlocked.rely hr₁).rely hr₂').rely hr₃').bump
      quiet := (hquiet.rely hlocked.lock hr₂').rely hlocked.lock (hr₃'.trans (World.bump_rely w₃))
      today_le := hr₃'.le.2
      inactive := not_active_of_nil (not_ne_iff.1 hkeys) }
  rw [wp_bind]
  refine Db.wp_query fun w₄ hr₄ _ => ?_
  have hready₄ := hready.rely (hr₄.trans (World.bump_rely w₄))
  rw [wp_bind, markProjectDeleted]
  refine wp_markLocked hclean hready₄.toLocked (fun _ => wp_refuse hclean rfl) ?_
  rintro w₅ l₅ c rfl hlocked₅ hr₅ hdeleted
  have hready₅ := (hready₄.rely hr₅).wrote [.project row.id]
  dsimp only
  rw [wp_bind]
  refine Db.wp_query fun w₆ hr₆ _ => ?_
  rw [wp_bind, revokeProjectShares]
  refine Db.wp_update fun w₇ hr₇ _ => ?_
  refine wp_audited fun w' locked hr' _ => ?_
  have hready₇ := ((hready₅ _).rely (hr₆.trans (World.bump_rely w₆))).rely
    (hr₇.trans (World.bump_rely w₇))
  refine ((hready₇.wrote _ _).rely hr').move (Option.isNone_iff_eq_none.1 hdeleted) w₄.clock
    w₆.clock ?_
  exact congrArg (deletedWrites row.id w₄.clock row.archivedAt.isSome w₆.clock _) (hclean w'.db)

/-! ### The purge -/

/-- Rows have been deleted, and projects left alone. -/
structure Shrunk (l : Local ProjectDb ProjectLock) : Prop where
  projects : ∀ d, (l.pending d).projects = d.projects
  machineUsers : ∀ d, (l.pending d).machineUsers.Sublist d.machineUsers
  credentials : ∀ d, (l.pending d).credentials.Sublist d.credentials
  rotations : ∀ d, (l.pending d).rotations.Sublist d.rotations
  keys : ∀ d, (l.pending d).keys.Sublist d.keys
  shares : ∀ d, (l.pending d).shares.Sublist d.shares

lemma shrunk_of_clean {l : Local ProjectDb ProjectLock} (h : l.Clean) : Shrunk l := by
  constructor <;> intro d <;> rw [h d]

/-- The rule for a `DELETE`. -/
lemma wp_deleteFound {l : Local ProjectDb ProjectLock} {n : ℕ} {row : Project} (hl : Shrunk l)
    (h : Locked n row l w) {rows : ProjectDb → ProjectDb → ProjectDb}
    (hrows : ∀ found, Shrunk ⟨l.start, l.held, rows found⟩)
    {Q : Unit → Local ProjectDb ProjectLock → ProjectWorld → Prop}
    (hQ : ∀ l' w', Shrunk l' → w.clock ≤ w'.clock → Locked n row l' w' → Q () l' w') :
    wp projectProtocol (deleteFound rows) Q l w := by
  refine Db.wp_update fun w' hr _ => ?_
  have hr' := hrows (l.ctx w').view
  refine hQ _ _ ⟨?_, ?_, ?_, ?_, ?_, ?_⟩ hr.le.2 ((h.rely hr).bump.wrote _ _)
  · exact fun d => (hr'.projects _).trans (hl.projects d)
  · exact fun d => (hr'.machineUsers _).trans (hl.machineUsers d)
  · exact fun d => (hr'.credentials _).trans (hl.credentials d)
  · exact fun d => (hr'.rotations _).trans (hl.rotations d)
  · exact fun d => (hr'.keys _).trans (hl.keys d)
  · exact fun d => (hr'.shares _).trans (hl.shares d)

lemma wp_eraseProjectData {l : Local ProjectDb ProjectLock} (hclean : l.Clean) (n : ℕ) {now : ℕ}
    (hnow : now ≤ w.clock)
    {Q : Bool → Local ProjectDb ProjectLock → ProjectWorld → Prop}
    (hfalse : ∀ w', Q false l w')
    (htrue : ∀ row l₁ l' w', Shrunk l₁ → now ≤ w'.clock → isPurgeDue row now = true →
      Locked n row l' w' →
      l' = l₁.wrote [.project n] (projectTable.modify
        (updateWhere (fun p => p.id = n) fun p => { p with purgedAt := some now })) →
      Q true l' w') :
    wp projectProtocol (eraseProjectData n now) Q l w := by
  rw [eraseProjectData, wp_bind]
  refine wp_lockProject hclean (fun w' => hfalse w') ?_
  rintro row l w hclean hw rfl hlocked ⟨-, hdue⟩
  dsimp only
  rw [wp_bind, deleteRotations]
  refine wp_deleteFound (shrunk_of_clean hclean) hlocked ?_ ?_
  · exact fun found => ⟨fun _ => rfl, fun _ => .refl _, fun _ => .refl _,
      fun _ => List.filter_sublist, fun _ => .refl _, fun _ => .refl _⟩
  intro l₁ w₁ hl₁ hw₁ hlocked₁
  rw [wp_bind, deleteMachineUsers]
  refine wp_deleteFound hl₁ hlocked₁ ?_ ?_
  · exact fun found => ⟨fun _ => rfl, fun _ => List.filter_sublist, fun _ => .refl _,
      fun _ => .refl _, fun _ => List.filter_sublist, fun _ => .refl _⟩
  intro l₂ w₂ hl₂ hw₂ hlocked₂
  rw [wp_bind, deleteCredentials]
  refine wp_deleteFound hl₂ hlocked₂ ?_ ?_
  · exact fun found => ⟨fun _ => rfl, fun _ => .refl _, fun _ => List.filter_sublist,
      fun _ => .refl _, fun _ => .refl _, fun _ => List.filter_sublist⟩
  intro l₃ w₃ hl₃ hw₃ hlocked₃
  have hview : ∀ w', Rely projectProtocol l₃.held w₃ w' →
      projectTable.find (l₃.pending w'.db) row.id = some row := by
    intro w' hr
    rw [← (hlocked₃.rely hr).find]
    change (l₃.pending w'.db).projects.find? _ = w'.db.projects.find? _
    rw [hl₃.projects]
  rw [wp_bind]
  refine Table.wp_updateRow ?_ ?_
  · intro w' hr _ hnone
    rw [Table.candidate, show (l₃.ctx w').view = l₃.pending w'.db from rfl, hview w' hr] at hnone
    cases hnone
  · intro w' row' hr _ hfind _
    have hlater := (((hnow.trans hw).trans hw₁).trans hw₂).trans (hw₃.trans hr.le.2)
    exact htrue row l₃ _ _ hl₃ hlater hdue (((hlocked₃.rely hr).bump).wrote _ _) rfl

lemma wp_purge (t n : ℕ) : wp projectProtocol (purge n) (fun _ _ _ => True) (.idle t) w := by
  rw [purge, dateNow, wp_bind]
  refine Db.wp_query fun w₀ _ _ => ?_
  rw [wp_bind]
  refine Db.wp_query fun w₁ hr₁ _ => ?_
  split_ifs
  · rw [wp_bind]
    refine Db.wp_beginTx fun w₂ hr₂ _ => ?_
    rw [wp_bind]
    refine Db.wp_query fun w₃ hr₃ _ => ?_
    split
    · exact wp_refuse (fun _ => rfl) rfl
    · next row hrow =>
      have hnow : w₀.clock ≤ w₃.bump.clock := (hr₁.le.2.trans hr₂.le.2).trans hr₃.le.2
      rw [wp_bind]
      refine wp_eraseProjectData (fun _ => rfl) row.id hnow ?_ ?_
      · exact fun w' => wp_refuse (fun _ => rfl) rfl
      · rintro due l₁ l' w' hl₁ hw' hdue hlocked rfl
        refine wp_audited fun w'' locked hr _ => ?_
        have h'' := hlocked.rely hr
        have hmark : Mark (.purged row.id w₀.clock) w''.clock row.id due _ :=
          .purge w₀.clock hdue (hw'.trans hr.le.2) rfl
        refine
          { projects := .inr ⟨row.id, due, _, h''.lock, h''.find, hmark, ?_⟩
            machineUsers := hl₁.machineUsers _
            credentials := hl₁.credentials _
            rotations := fun r hr => .inl ((hl₁.rotations _).subset hr)
            keys := fun k hk => .inl ((hl₁.keys _).subset hk)
            shares := fun s hs _ => .inl ((hl₁.shares _).subset hs)
            cleared := nofun }
        exact congrArg (updateWhere _ _) (hl₁.projects _)
  · trivial

/-! ### What starts something new -/

lemma Locked.initiated {l : Local ProjectDb ProjectLock} {n : ℕ} {row : Project}
    {r : ProjectRotation} {locked : ProjectLock → Bool} {after : ProjectDb} (h : Locked n row l w)
    (harchived : row.archivedAt = none) (hr : r.projectId = n)
    (hafter : after = rotationTable.modify (fun rows => rows ++ [r]) w.db) :
    ProjectMove l.held w ⟨w.db, .initiated n r.id, after, locked⟩ := by
  subst hafter hr
  refine
    { projects := .inl ⟨rfl, rfl⟩
      machineUsers := .refl _
      credentials := .refl _
      rotations := fun r' hr' => ?_
      keys := fun k hk => .inl hk
      shares := fun s hs _ => .inl hs
      cleared := nofun }
  refine (List.mem_append.1 hr').imp_right fun hnew => ?_
  rw [List.mem_singleton.1 hnew]
  exact ⟨h.lock, rfl, row, h.find, harchived⟩

lemma wp_initiateRotation (t n credentialId : ℕ) :
    wp projectProtocol (initiateRotation n credentialId) (fun _ _ _ => True) (.idle t) w := by
  rw [initiateRotation, wp_bind]
  refine Db.wp_beginTx fun w _ _ => ?_
  refine wp_gate (fun _ => rfl) ?_ rfl
  rintro l w rfl
  rw [wp_bind]
  refine Db.wp_tryLock fun w₁ _ _ => ⟨?_, wp_refuse (fun _ => rfl) rfl⟩
  simp only [Bool.not_true, Bool.false_eq_true, if_false]
  rw [wp_bind]
  refine wp_either fun b => ?_
  split_ifs
  · exact wp_refuse (fun _ => rfl) rfl
  rw [wp_bind, lockProject]
  refine wp_lockProject (fun _ => rfl) (fun w' => wp_refuse (fun _ => rfl) rfl) ?_
  rintro row l w hclean - rfl hlocked -
  dsimp only
  split_ifs with harchived
  · exact wp_refuse hclean rfl
  rw [wp_bind, lockCredentialInProject]
  refine Table.wp_selectForUpdate (fun _ _ _ => wp_refuse hclean rfl) ?_
  intro w₂ credential hr₂ _ _ _
  have hlocked₂ := ((hlocked.rely hr₂).bump).wrote [.credential credentialId] fun d => d
  have hclean₂ : (l.wrote [.credential credentialId] fun d => d).Clean := hclean
  dsimp only
  rw [wp_bind]
  refine wp_either fun b => ?_
  split_ifs
  · exact wp_refuse hclean₂ rfl
  rw [wp_bind]
  refine Table.wp_insertRow fun w₃ hr₃ _ => ?_
  have hlocked₃ := fun keys writes => ((hlocked₂.rely hr₃).bump).wrote keys writes
  refine wp_audited fun w' locked hr _ => ?_
  refine ((hlocked₃ _ _).rely hr).initiated (Option.not_isSome_iff_eq_none.1 harchived) rfl ?_
  exact congrArg (rotationTable.modify fun rows => rows ++ [⟨w₃.seq, row.id, credential.id, .staged⟩])
    (hclean w'.db)

/-- A row is determined by its id in a duplicate-free list of ids. -/
lemma eq_of_id {α : Type} {id : α → ℕ} {rows : List α} (hnodup : (rows.map id).Nodup) {a b : α}
    (ha : a ∈ rows) (hb : b ∈ rows) (hid : id a = id b) : a = b :=
  List.inj_on_of_nodup_map hnodup ha hb hid

lemma wp_issueApiKey (t orgId machineUserId : ℕ) (name : String) (expiresAt : Option ℕ) :
    wp projectProtocol (issueApiKey orgId machineUserId name expiresAt) (fun _ _ _ => True)
      (.idle t) w := by
  rw [issueApiKey, wp_bind]
  refine Db.wp_beginTx fun w _ _ => ?_
  rw [wp_bind, findMachineUserById]
  refine Db.wp_query fun w₁ _ hinv₁ => ?_
  split
  · exact wp_refuse (fun _ => rfl) rfl
  · next u hu =>
    split_ifs
    · exact wp_refuse (fun _ => rfl) rfl
    have hmem : u ∈ w₁.db.machineUsers := List.mem_of_find?_eq_some hu
    rw [wp_bind]
    refine Table.wp_insertRow fun w₂ hr₂ _ => ?_
    refine wp_audited fun w' locked hr _ => ?_
    have hsub := (sublist_of_rely (hr.anti (Local.held_wrote _ _ _))).1.trans
      (sublist_of_rely hr₂).1
    refine
      { projects := .inl ⟨rfl, rfl⟩
        machineUsers := .refl _
        credentials := .refl _
        rotations := fun r hr => .inl hr
        keys := fun k hk => ?_
        shares := fun s hs _ => .inl hs
        cleared := nofun }
    refine (List.mem_append.1 hk).imp_right fun hnew => ?_
    rw [List.mem_singleton.1 hnew]
    refine ⟨_, rfl, fun u' hu' hid => ?_⟩
    rw [eq_of_id hinv₁.machineUsers (hsub.subset hu') hmem hid]

lemma wp_createCredentialShare (t n credentialId : ℕ) :
    wp projectProtocol (createCredentialShare n credentialId) (fun _ _ _ => True) (.idle t) w := by
  rw [createCredentialShare, wp_bind]
  refine Db.wp_beginTx fun w _ _ => ?_
  refine wp_gate (fun _ => rfl) ?_ rfl
  rintro l w rfl
  rw [wp_bind, credentialExistsInProject]
  refine Db.wp_query fun w₁ _ hinv₁ => ?_
  split
  · exact wp_refuse (fun _ => rfl) rfl
  · next c hc =>
    have hmem : c ∈ w₁.db.credentials := List.mem_of_find?_eq_some hc
    have hproject : c.projectId = n := by
      have := List.find?_some hc
      exact of_decide_eq_true (Bool.and_eq_true_iff.1 this).2
    rw [wp_bind, rejectIfProjectDeleted]
    refine Db.wp_query fun w₂ hr₂ _ => ?_
    split_ifs
    · exact wp_refuse (fun _ => rfl) rfl
    rw [wp_bind]
    refine wp_either fun b => ?_
    split_ifs
    · exact wp_refuse (fun _ => rfl) rfl
    rw [wp_bind]
    refine Table.wp_insertRow fun w₃ hr₃ _ => ?_
    refine wp_audited fun w' locked hr _ => ?_
    have hsub := ((sublist_of_rely (hr.anti (Local.held_wrote _ _ _))).2.trans
      (sublist_of_rely hr₃).2).trans (sublist_of_rely hr₂).2
    refine
      { projects := .inl ⟨rfl, rfl⟩
        machineUsers := .refl _
        credentials := .refl _
        rotations := fun r hr => .inl hr
        keys := fun k hk => .inl hk
        shares := fun s hs _ => ?_
        cleared := nofun }
    refine (List.mem_append.1 hs).imp_right fun hnew => ?_
    rw [List.mem_singleton.1 hnew]
    refine ⟨n, rfl, fun c' hc' hid => ?_⟩
    rw [eq_of_id hinv₁.credentials (hsub.subset hc') hmem hid, hproject]

end Calls

/-- Every call keeps to the protocol. -/
theorem projectCall_keeps : Keeps projectProtocol projectCall fun _ => True := by
  intro call _ t w _
  cases call with
  | archive projectId => exact wp_archive t projectId
  | unarchive projectId => exact wp_unarchive t projectId
  | delete projectId => exact wp_delete t projectId
  | restore projectId => exact wp_restore t projectId
  | purge projectId => exact wp_purge t projectId
  | initiateRotation projectId credentialId => exact wp_initiateRotation t projectId credentialId
  | issueApiKey orgId machineUserId name expiresAt =>
    exact wp_issueApiKey t orgId machineUserId name expiresAt
  | createCredentialShare projectId credentialId =>
    exact wp_createCredentialShare t projectId credentialId

end ProjectVault.Projects
