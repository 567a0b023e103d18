import ProjectVault.Projects.LifecycleCalls

/-!
Runs of the project lifecycle.
-/

namespace ProjectVault.Projects

open Db MachineUsers

/-! ### The property -/

/-- A deleted project is archived, and has no blocking rotation, no active machine key and no active
share. -/
structure InOrder (d : ProjectDb) (now : ℕ) : Prop where
  archived : ∀ p ∈ d.projects, p.deletedAt.isSome = true → p.archivedAt.isSome = true
  rotations : ∀ n, isProjectDeleted d n = true → findBlockingRotationIds d n = []
  keys : ∀ n, isProjectDeleted d n = true → activeMachineUserKeysQuery d n now = []
  shares : ∀ n, isProjectDeleted d n = true → findBlockingShareIds d n = []

/-- A purge finds the project deleted, not restored and past `purgeAfter`; of the restores and the
purges between two deletes of a project, there is one at most. -/
structure PurgeSafe (w : ProjectWorld) : Prop where
  due : ∀ ev ∈ w.log, ∀ n now, ev.answer = .purged n now →
    (∃ row, projectTable.find ev.before n = some row ∧ isPurgeDue row now = true) ∧ now ≤ w.clock
  exclusive : ∀ n newer e₂ between e₁ older, w.log = newer ++ e₂ :: (between ++ e₁ :: older) →
    (∀ e ∈ between, ¬ Deletes n e) →
      ¬ (Restores n e₁ ∧ Purges n e₂) ∧ ¬ (Purges n e₁ ∧ Restores n e₂)

/-- Rows in order, with unique ids. -/
structure Seed where
  db : ProjectDb
  seq : ℕ
  clock : ℕ
  projects : (db.projects.map Project.id).Nodup
  machineUsers : (db.machineUsers.map MachineUser.id).Nodup
  credentials : (db.credentials.map ProjectCredential.id).Nodup
  purged : ∀ p ∈ db.projects, p.purgedAt.isSome = true → p.deletedAt.isSome = true
  inOrder : InOrder db clock

/-- The database with the sessions of the project code. -/
def projectSessions (seed : Seed) :
    Run.System (State ProjectDb ProjectLock ProjectAnswer) (Label ProjectCall) :=
  sessions projectCall ⟨seed.db, seed.seq, seed.clock, []⟩

/-! ### Runs -/

lemma findBlockingRotationIds_eq_nil {d : ProjectDb} {n : ℕ} :
    findBlockingRotationIds d n = [] ↔
      ∀ r ∈ d.rotations, r.projectId = n → r.status ∉ blockingRotationStatuses := by
  simp [findBlockingRotationIds, List.filter_eq_nil_iff]

lemma activeMachineUserKeysQuery_eq_nil {d : ProjectDb} {n now : ℕ} :
    activeMachineUserKeysQuery d n now = [] ↔ ∀ k ∈ d.keysOf n, isActiveKey k now = false := by
  simp [activeMachineUserKeysQuery, List.filter_eq_nil_iff]

lemma findBlockingShareIds_eq_nil {d : ProjectDb} {n : ℕ} :
    findBlockingShareIds d n = [] ↔ ∀ s ∈ d.sharesOf n, s.isActive = false := by
  simp [findBlockingShareIds, List.filter_eq_nil_iff]

/-- The invariant holds at the start. -/
lemma Seed.inv (seed : Seed) : ProjectInv ⟨seed.db, seed.seq, seed.clock, []⟩ where
  projects := seed.projects
  machineUsers := seed.machineUsers
  credentials := seed.credentials
  rows n row hrow := by
    have hmem := (Table.find_eq_some hrow).1
    exact ⟨seed.inOrder.archived row hmem, seed.purged row hmem⟩
  rotations r hr hdeleted :=
    findBlockingRotationIds_eq_nil.1 (seed.inOrder.rotations _ hdeleted) r hr rfl
  keys n hdeleted := activeMachineUserKeysQuery_eq_nil.1 (seed.inOrder.keys n hdeleted)
  shares n hdeleted := findBlockingShareIds_eq_nil.1 (seed.inOrder.shares n hdeleted)
  due _ hev := nomatch hev
  purged _ hev := nomatch hev
  restored _ newer _ _ hlog := by simp at hlog
  exclusive _ newer _ _ _ _ hlog := by simp at hlog

/-- What the invariant says of the rows. -/
lemma ProjectInv.inOrder {w : ProjectWorld} (h : ProjectInv w) : InOrder w.db w.clock where
  archived p hp := by
    have hnodup : (projectTable.ids w.db).Nodup := h.projects
    exact (h.rows p.id p (Table.find_of_mem hnodup hp)).archived
  rotations n hdeleted := by
    refine findBlockingRotationIds_eq_nil.2 fun r hr hid => ?_
    subst hid
    exact h.rotations r hr hdeleted
  keys n hdeleted := activeMachineUserKeysQuery_eq_nil.2 (h.keys n hdeleted)
  shares n hdeleted := findBlockingShareIds_eq_nil.2 (h.shares n hdeleted)

section Runs

variable {seed : Seed} {ok : State ProjectDb ProjectLock ProjectAnswer → Label ProjectCall → Prop}
  {s : State ProjectDb ProjectLock ProjectAnswer}

/-- **Lifecycle of projects**: in a run whose transactions find what they looked at unchanged when
they commit, deleted projects are in order, and a purge is safe. -/
theorem project_lifecycle (h : (projectSessions seed).Reaches ok s)
    (hquiet : ∀ ev ∈ s.world.log, Undisturbed ev = true) :
    InOrder s.world.db s.world.clock ∧ PurgeSafe s.world := by
  have hsound : Sound projectProtocol s :=
    Sound.of_reaches projectCall_keeps (fun _ _ _ _ => trivial) seed.inv h hquiet
  exact ⟨hsound.inv.inOrder, hsound.inv.due, hsound.inv.exclusive⟩

end Runs

/-! ### A late unarchive -/

/-- An archived project with a credential and a machine user. -/
def archivedProject : Seed where
  db := ⟨[⟨0, some 1, none, none, none⟩], [⟨0, 0, 0, false, none⟩], [], [⟨0, 0⟩], [], []⟩
  seq := 1
  clock := 5
  projects := by decide
  machineUsers := by decide
  credentials := by decide
  purged := by decide
  inOrder := by
    refine ⟨by decide, fun n hn => ?_, fun n hn => ?_, fun n hn => ?_⟩ <;> rfl

/-- The unarchiving of the project, up to the gate of the route. -/
def unarchiveGate : List (Label ProjectCall) := .opens 0 (.unarchive 0) :: Label.runsFor 0 2

/-- The rest of it. -/
def unarchiveRest : List (Label ProjectCall) :=
  [.runs 0 false, .runs 0 true, .runs 0 false, .runs 0 true, .runs 0 false, .runs 0 true]

/-- The creation of a share. -/
def shareRun : List (Label ProjectCall) :=
  .opens 1 (.createCredentialShare 0 0) :: Label.runsFor 1 4 ++
    [.runs 1 false, .runs 1 true, .runs 1 false, .runs 1 true]

/-- The delete of the project. -/
def deleteRun : List (Label ProjectCall) :=
  .opens 2 (.delete 0) :: Label.runsFor 2 2 ++ [.runs 2 false, .runs 2 true, .runs 2 false] ++
    Label.runsFor 2 7 ++ [.runs 2 false, .runs 2 true]

/-- A run in which the project is unarchived, given a share and deleted. -/
theorem project_lifecycle_orderly :
    ∃ s, (projectSessions archivedProject).Reaches (fun _ _ => True) s ∧
      s.world.log.length = 3 ∧ isProjectDeleted s.world.db 0 = true ∧
      InOrder s.world.db s.world.clock ∧ PurgeSafe s.world := by
  obtain ⟨s, hexec, hthree, hdeleted, hquiet⟩ :=
    (projectSessions archivedProject).exists_of_exec (fun _ _ => True)
      (projectSessions archivedProject).init (unarchiveGate ++ unarchiveRest ++ shareRun ++ deleteRun)
      (fun s => s.world.log.length = 3 ∧ isProjectDeleted s.world.db 0 = true ∧
        ∀ ev ∈ s.world.log, Undisturbed ev = true) (by decide +kernel)
  have hreach := Run.System.steps_of_exec hexec
  exact ⟨s, hreach, hthree, hdeleted, project_lifecycle hreach hquiet⟩

/-- An unarchive that has passed the gate before a delete leaves a deleted project that is not
archived. -/
theorem deleted_project_unarchived :
    ∃ s, (projectSessions archivedProject).Reaches (fun _ _ => True) s ∧
      ¬ (InOrder s.world.db s.world.clock ∧ PurgeSafe s.world) := by
  obtain ⟨s, hexec, p, hp, hdeleted, harchived⟩ :=
    (projectSessions archivedProject).exists_of_exec (fun _ _ => True)
      (projectSessions archivedProject).init (unarchiveGate ++ deleteRun ++ unarchiveRest)
      (fun s => ∃ p ∈ s.world.db.projects, p.deletedAt.isSome = true ∧ p.archivedAt.isSome = false)
      (by decide +kernel)
  refine ⟨s, Run.System.steps_of_exec hexec, fun h => ?_⟩
  rw [h.1.archived p hp hdeleted] at harchived
  nomatch harchived

end ProjectVault.Projects
