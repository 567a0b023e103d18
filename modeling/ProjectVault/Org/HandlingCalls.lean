import ProjectVault.Org.HandlingGuard

/-!
The calls of the rotation handling keep to its protocol.
-/

namespace ProjectVault.Org

open Db Projects

variable {readers : ℕ}

/-! ### Leaving -/

section Leave

variable {l : Local HandlingDb (HandlingLock readers)} {w : HandlingWorld readers} {u : ℕ}
  {handling : RotationHandling} {cleared : ClearedRotationHandling}

/-- The rows without the membership, or with the deactivated one. -/
def leftWrites (leave : Leave) (userId : ℕ) (d : HandlingDb) : HandlingDb :=
  match leave with
  | .deactivate => { d with
      members := updateWhere (fun m => m.userId = userId) (fun m => { m with status := .deactivated })
        d.members }
  | .remove => { d with
      projectMembers := d.projectMembers.filter fun m => m.userId ≠ userId
      members := d.members.filter fun m => m.userId ≠ userId }

lemma memberOf_deactivated (d : HandlingDb) : memberOf (leftWrites .deactivate u d) u =
    (memberOf d u).map fun m => { m with status := .deactivated } :=
  find_updateWhere_self (f := fun m : OrgMember => { m with status := .deactivated })
    (fun _ => rfl) u d.members

lemma memberOf_removed (d : HandlingDb) : memberOf (leftWrites .remove u d) u = none :=
  List.find?_eq_none.2 fun m hm => by simpa using (List.mem_filter.1 hm).2

lemma memberOf_left_of_ne {leave : Leave} {v : ℕ} (hne : v ≠ u) (d : HandlingDb) :
    memberOf (leftWrites leave u d) v = memberOf d v := by
  cases leave with
  | deactivate =>
    exact find_updateWhere_of_ne
      (f := fun m : OrgMember => { m with status := .deactivated }) (fun _ => rfl) hne _
  | remove => exact find_filter_of_ne hne _

lemma isActiveMember_left (leave : Leave) (d : HandlingDb) :
    isActiveMember (leftWrites leave u d) u = false := by
  cases leave with
  | deactivate =>
    rw [isActiveMember, memberOf_deactivated]
    cases memberOf d u <;> rfl
  | remove =>
    rw [isActiveMember, memberOf_removed]
    rfl

/-- The memberships after a user has left. -/
lemma memberMove_left {held : Set (HandlingLock readers)} (leave : Leave) {before after : HandlingDb}
    (hlock : ∀ h, HandlingLock.member u h ∈ held) (hafter : after.members = before.members) :
    MemberMove held before (leftWrites leave u after) := by
  have hother : ∀ v, v ≠ u → memberOf (leftWrites leave u after) v = memberOf before v := by
    intro v hne
    rw [memberOf_left_of_ne hne, memberOf, hafter, memberOf]
  refine ⟨fun v h hv => hother v fun hvu => hv (hvu ▸ hlock h), fun v hv => ?_, fun v hv => ?_⟩
  · by_cases hvu : v = u
    · subst hvu
      cases leave with
      | deactivate =>
        rw [memberOf_deactivated, Option.map_eq_none_iff, memberOf, hafter]
        exact hv
      | remove => exact memberOf_removed after
    · exact (hother v hvu).trans hv
  · by_cases hvu : v = u
    · rw [hvu]
      exact isActiveMember_left leave after
    · rw [isActiveMember, hother v hvu]
      exact hv

/-- The end of a handler that has passed its guard. -/
lemma Ready.move (h : Ready u handling cleared l w) (hinv : HandlingInv w) (leave : Leave)
    {held : Set (HandlingLock readers)} (hsub : l.held ⊆ held)
    (locked : HandlingLock readers → Bool) :
    HandlingMove held w
      ⟨w.db, .left leave u handling cleared, leftWrites leave u (l.pending w.db), locked⟩ := by
  have hpassed := h.passed w (Rely.refl _ _) hinv
  have hrotations : (leftWrites leave u (l.pending w.db)).rotations = (l.pending w.db).rotations := by
    cases leave <;> rfl
  refine ⟨?_, hpassed.move.mono hsub hrotations, ⟨nofun, ?_⟩⟩
  · exact memberMove_left leave (fun m => hsub (h.lock m)) (h.members _)
  · rintro leave' u' handling' cleared' hanswer
    cases hanswer
    refine ⟨isActiveMember_left leave _, fun hne n hn => hpassed.none hne n ?_, fun v hv => ?_⟩
    · rwa [Owns, hrotations] at hn
    · obtain ⟨hne, htransferred⟩ := hpassed.transferred v hv
      refine ⟨?_, fun n hn => ?_, fun r hr => htransferred.changed r (hrotations ▸ hr)⟩
      · rw [memberOf_left_of_ne hne]
        exact htransferred.eligible
      · rw [rotationOf, hrotations]
        exact htransferred.reported n hn

/-- The rule for the end of the handlers. -/
lemma wp_leave (h : Ready u handling cleared l w) (leave : Leave) :
    wp (handlingProtocol readers) (do
      leaveMembership leave u
      audited (.left leave u handling cleared)) (fun _ _ _ => True) l w := by
  rw [wp_bind]
  cases leave with
  | deactivate =>
    refine wp_update fun w₁ hr₁ _ => ?_
    refine wp_audited fun w' locked hr hinv => ?_
    have hr' := (hr₁.trans (World.bump_rely w₁)).trans (hr.anti (l.held_wrote _ _))
    exact (h.rely hr').move hinv .deactivate (l.held_wrote _ _) locked
  | remove =>
    rw [leaveMembership, wp_bind]
    refine wp_update fun w₁ hr₁ _ => ?_
    refine wp_update fun w₂ hr₂ _ => ?_
    refine wp_audited fun w' locked hr hinv => ?_
    have hr₁' := hr₁.trans (World.bump_rely w₁)
    have hr₂' := (hr₂.trans (World.bump_rely w₂)).anti (l.held_wrote [] _)
    have hr' := (hr₁'.trans hr₂').trans (hr.anti fun _ hk => .inl (.inl hk))
    exact (h.rely hr').move hinv .remove (fun _ hk => .inl (.inl hk)) locked

lemma wp_lockForTransfer (reader : Fin readers) (hclean : l.Clean)
    {Q : Unit → Local HandlingDb (HandlingLock readers) → HandlingWorld readers → Prop}
    (hQ : ∀ l' w', l'.Clean → Q () l' w') :
    wp (handlingProtocol readers) (lockForTransfer reader u handling) Q l w := by
  cases handling with
  | transfer v =>
    rw [lockForTransfer, lockTransferMembershipsInOrder]
    split_ifs
    · exact hQ _ _ hclean
    · rw [wp_bind]
      refine SharedTable.wp_selectForUpdate hclean (fun w₁ _ => ?_) fun m l₁ w₁ hclean₁ _ _ => ?_
      · rw [wp_bind]
        exact SharedTable.wp_selectForShare hclean (fun w₂ _ => hQ _ _ hclean)
          fun m l₂ w₂ hclean₂ _ _ => hQ _ _ hclean₂
      · rw [wp_bind]
        exact SharedTable.wp_selectForShare hclean₁ (fun w₂ _ => hQ _ _ hclean₁)
          fun m l₂ w₂ hclean₂ _ _ => hQ _ _ hclean₂
    · rw [wp_bind]
      refine SharedTable.wp_selectForShare hclean (fun w₁ _ => ?_) fun m l₁ w₁ hclean₁ _ _ => ?_
      · rw [wp_bind]
        exact SharedTable.wp_selectForUpdate hclean (fun w₂ _ => hQ _ _ hclean)
          fun m l₂ w₂ hclean₂ _ _ => hQ _ _ hclean₂
      · rw [wp_bind]
        exact SharedTable.wp_selectForUpdate hclean₁ (fun w₂ _ => hQ _ _ hclean₁)
          fun m l₂ w₂ hclean₂ _ _ => hQ _ _ hclean₂
  | block => exact hQ _ _ hclean
  | abandon => exact hQ _ _ hclean

lemma isSuccess_of_unusable {callerRole : OrgRole} {target? : Option OrgMember}
    {answer : HandlingAnswer} (h : isUsableTarget callerRole target? = .error answer) :
    answer.isSuccess = false := by
  cases target? with
  | none =>
    cases h
    rfl
  | some m =>
    rw [isUsableTarget] at h
    split_ifs at h
    cases h
    rfl

/-- The rule for the status checks. -/
lemma wp_rejectsLeave (leave : Leave) (target : OrgMember)
    {Q : Option HandlingAnswer → Local HandlingDb (HandlingLock readers) →
      HandlingWorld readers → Prop}
    (hnone : Q none l w) (hsome : ∀ answer, answer.isSuccess = false → Q (some answer) l w) :
    wp (handlingProtocol readers) (rejectsLeave leave target) Q l w := by
  cases leave with
  | deactivate =>
    change Q (if target.status = .deactivated then some .alreadyDeactivated else none) l w
    split_ifs
    · exact hsome _ rfl
    · exact hnone
  | remove =>
    rw [rejectsLeave, wp_bind]
    refine wp_either fun b => ?_
    cases b with
    | true => exact hsome _ rfl
    | false => exact hnone

lemma wp_leaveOrg (leave : Leave) (callerRole : OrgRole) (reader : Fin readers) (t : ℕ) :
    wp (handlingProtocol readers) (leaveOrg leave callerRole reader u handling)
      (fun _ _ _ => True) (.idle t) w := by
  rw [leaveOrg, wp_bind]
  refine wp_beginTx fun w _ _ => ?_
  rw [wp_bind, lockTargetMembership, wp_bind]
  refine wp_lockForTransfer reader (fun _ => rfl) fun l₁ w₁ hclean₁ => ?_
  refine SharedTable.wp_selectForUpdate hclean₁ (fun w₂ _ => wp_reject hclean₁ rfl) ?_
  intro m l₂ w₂ hclean₂ _ hheld
  cases husable : isUsableTarget callerRole (some m) with
  | error answer => exact wp_reject hclean₂ (isSuccess_of_unusable husable)
  | ok target =>
    dsimp only
    rw [wp_bind]
    refine wp_rejectsLeave leave target ?_ fun answer hanswer => wp_reject hclean₂ hanswer
    dsimp only
    rw [wp_bind]
    refine (wp_guard reader hclean₂ fun h => hheld.lock h trivial).mono ?_
    intro r l₃ w₃ hpost
    cases r with
    | error answer => exact wp_reject hpost.2 hpost.1
    | ok cleared => exact wp_leave hpost leave

end Leave

/-! ### Starting a rotation -/

section Stage

variable {l : Local HandlingDb (HandlingLock readers)} {w w' : HandlingWorld readers} {u : ℕ}

/-- An active member whose row is locked. -/
def Starter (userId : ℕ) (l : Local HandlingDb (HandlingLock readers)) (w : HandlingWorld readers) :
    Prop :=
  ∃ h m, (memberTable readers).Held {some h} userId m l w ∧ m.status = .active

lemma Starter.later {l' : Local HandlingDb (HandlingLock readers)} (h : Starter u l w)
    (hl : Later (handlingProtocol readers) l w l' w') : Starter u l' w' := by
  obtain ⟨r, m, hheld, hactive⟩ := h
  exact ⟨r, m, hheld.later memberTable_stable ⟨_, rfl⟩ hl, hactive⟩

/-- A transaction on its way to a new rotation. -/
structure Staging (userId : ℕ) (l : Local HandlingDb (HandlingLock readers))
    (w : HandlingWorld readers) : Prop where
  starter : Starter userId l w
  members : ∀ d, (l.pending d).members = d.members
  rotations : ∀ d, (l.pending d).rotations = d.rotations

/-- A statement on another table. -/
lemma Staging.wrote (h : Staging u l w) (hr : Rely (handlingProtocol readers) l.held w w')
    (keys : List (HandlingLock readers)) {writes : HandlingDb → HandlingDb}
    (hmembers : ∀ d, (writes d).members = d.members)
    (hrotations : ∀ d, (writes d).rotations = d.rotations) :
    Staging u (l.wrote keys writes) w'.bump :=
  ⟨h.starter.later (.stmt hr (l.held_wrote _ _)), fun d => (hmembers _).trans (h.members d),
    fun d => (hrotations _).trans (h.rotations d)⟩

lemma Staging.read (h : Staging u l w) (hr : Rely (handlingProtocol readers) l.held w w') :
    Staging u l w'.bump :=
  ⟨h.starter.later (.stmt hr Set.Subset.rfl), h.members, h.rotations⟩

/-- A transaction with a new rotation. -/
structure Staged (userId : ℕ) (row : OwnedRotation) (l : Local HandlingDb (HandlingLock readers))
    (w : HandlingWorld readers) : Prop where
  starter : Starter userId l w
  owner : row.effectiveOwner = some userId
  members : ∀ d, (l.pending d).members = d.members
  rotations : ∀ d, (l.pending d).rotations = d.rotations ++ [row]
  lock : HandlingLock.rotation row.id ∈ l.held
  new : rotationOf w.db row.id = none
  drawn : row.id < w.seq

variable {row : OwnedRotation}

lemma Staged.later {l' : Local HandlingDb (HandlingLock readers)} (h : Staged u row l w)
    (hl : Later (handlingProtocol readers) l w l' w')
    (hmembers : ∀ d, (l'.pending d).members = (l.pending d).members)
    (hrotations : ∀ d, (l'.pending d).rotations = (l.pending d).rotations) :
    Staged u row l' w' where
  starter := h.starter.later hl
  owner := h.owner
  members d := (hmembers d).trans (h.members d)
  rotations d := (hrotations d).trans (h.rotations d)
  lock := hl.held h.lock
  new := (rotationTable_stable _ _ _ _ hl.rely h.lock).trans h.new
  drawn := h.drawn.trans_le hl.rely.le.1

/-- The end of `initiateRotation`. -/
lemma Staged.move (h : Staged u row l w) (locked : HandlingLock readers → Bool) :
    HandlingMove l.held w ⟨w.db, .initiated row.id, l.pending w.db, locked⟩ := by
  have hmember : ∀ v, memberOf (l.pending w.db) v = memberOf w.db v := fun v => by
    rw [memberOf, h.members, memberOf]
  refine ⟨⟨fun v _ _ => hmember v, fun v hv => (hmember v).trans hv, fun v hv => ?_⟩,
    ⟨.inr ⟨row.id, ?_, h.new, h.drawn⟩, fun n hn => ?_, fun v n hn => ?_⟩, ⟨nofun, nofun⟩⟩
  · rw [isActiveMember, hmember]
    exact hv
  · change (l.pending w.db).rotations.map _ = _
    rw [h.rotations, List.map_append]
    rfl
  · have hne : row.id ≠ n := by
      rintro rfl
      exact hn h.lock
    rw [rotationOf, h.rotations, List.find?_append, List.find?_cons_of_neg (by simpa using hne)]
    exact Option.or_none
  · obtain ⟨r, hr, hid, hblocks⟩ := hn
    change r ∈ (l.pending w.db).rotations at hr
    rw [h.rotations] at hr
    rcases List.mem_append.1 hr with hold | hnew
    · exact .inl ⟨r, hold, hid, hblocks⟩
    · obtain rfl := List.mem_singleton.1 hnew
      have hsome := of_decide_eq_true (Bool.and_eq_true_iff.1 hblocks).1
      obtain rfl : u = v := Option.some.inj (h.owner.symm.trans hsome)
      obtain ⟨m, row', hheld, hactive⟩ := h.starter
      refine .inr ⟨⟨_, hheld.lock _ rfl⟩, ?_⟩
      rw [isActiveMember, show memberOf w.db u = some row' from hheld.find]
      exact decide_eq_true hactive

lemma wp_insertRotation (h : Staging u l w) (credentialId newVersionId previousVersionId : ℕ)
    {Q : Option OwnedRotation → Local HandlingDb (HandlingLock readers) →
      HandlingWorld readers → Prop}
    (hnone : ∀ l' w', Q none l' w')
    (hsome : ∀ row l' w', Staged u row l' w' → Q (some row) l' w') :
    wp (handlingProtocol readers)
      (insertRotation credentialId u newVersionId previousVersionId) Q l w := by
  refine wp_update fun w' hr hinv => ?_
  split_ifs with hactive
  · exact hnone _ _
  · refine hsome _ _ _ ⟨h.starter.later (.stmt hr (l.held_wrote _ _)), rfl, h.members, fun d => ?_,
      .inr (List.mem_singleton.2 rfl), ?_, Nat.lt_succ_self _⟩
    · exact congrArg (· ++ [insertRotation.row credentialId u newVersionId previousVersionId
        (l.ctx w')]) (h.rotations d)
    · refine List.find?_eq_none.2 fun r hmem hid => ?_
      have hlt := hinv.keyed.drawn r hmem
      exact absurd (of_decide_eq_true hid) hlt.ne

lemma wp_updateVersion (h : Staging u l w) (n : ℕ)
    {cond : Ctx HandlingDb → StagedVersion → Bool} {set : StagedVersion → StagedVersion}
    {Q : Option StagedVersion → Local HandlingDb (HandlingLock readers) →
      HandlingWorld readers → Prop} (hQ : ∀ v l' w', Staging u l' w' → Q v l' w') :
    wp (handlingProtocol readers) ((versionTable readers).updateRow n cond fun _ => set) Q l w :=
  Table.wp_updateRow (fun _ hr _ _ => hQ _ _ _ (h.read hr))
    fun _ _ hr _ _ _ => hQ _ _ _ (h.wrote hr _ (fun _ => rfl) fun _ => rfl)

lemma wp_insertVersion (h : Staging u l w) {values : Ctx HandlingDb → StagedVersion}
    {Q : StagedVersion → Local HandlingDb (HandlingLock readers) → HandlingWorld readers → Prop}
    (hQ : ∀ v l' w', Staging u l' w' → Q v l' w') :
    wp (handlingProtocol readers) ((versionTable readers).insertRow values) Q l w :=
  Table.wp_insertRow fun _ hr _ => hQ _ _ _ (h.wrote hr _ (fun _ => rfl) fun _ => rfl)

/-- What the savepoint of `initiateRotation` leaves. -/
def StagePost (userId : ℕ) (r : Except StageError ℕ) (l : Local HandlingDb (HandlingLock readers))
    (w : HandlingWorld readers) : Prop :=
  ∀ n, r = .ok n → ∃ row, row.id = n ∧ Staged userId row l w

/-- The rule for the insert of the rotation and its checklist. -/
lemma wp_insertWithChecklist (h : Staging u l w) (credentialId newVersionId previousVersionId : ℕ)
    (targets : Option (List String)) :
    wp (handlingProtocol readers)
      (insertWithChecklist credentialId u targets newVersionId previousVersionId) (StagePost u)
      l w := by
  rw [insertWithChecklist, wp_bind]
  refine wp_query fun w₁ hr₁ _ => ?_
  rw [wp_bind]
  refine wp_insertRotation (h.read hr₁) _ _ _ (fun _ _ => nofun) fun row l₂ w₂ h₂ => ?_
  change wp _ (Prog.forEach _ _ >>= _) _ _ _
  rw [wp_bind]
  refine (wp_forEach (I := Staged u row) (fun dep _ l₃ w₃ h₃ => ?_) h₂).mono ?_
  · rw [wp_bind]
    refine Table.wp_insertRow fun w₄ hr₄ _ => ?_
    exact h₃.later (.stmt hr₄ (l₃.held_wrote _ _)) (fun _ => rfl) fun _ => rfl
  · rintro _ l₃ w₃ h₃ n hn
    exact ⟨row, Except.ok.inj hn, h₃⟩

/-- The rule for the writes of `initiateRotation`. -/
lemma wp_insertStaged (h : Staging u l w) (credentialId : ℕ) (targets : Option (List String))
    (previousVersion : StagedVersion) :
    wp (handlingProtocol readers) (insertStaged credentialId u targets previousVersion)
      (StagePost u) l w := by
  rw [insertStaged, wp_bind]
  refine wp_query fun w₁ hr₁ _ => ?_
  rw [wp_bind]
  refine wp_insertVersion (h.read hr₁) fun newVersion l₂ w₂ h₂ => ?_
  rw [wp_bind]
  refine wp_query fun w₃ hr₃ _ => ?_
  rw [wp_bind]
  exact wp_updateVersion (h₂.read hr₃) _ fun _ l₄ w₄ h₄ => wp_insertWithChecklist h₄ _ _ _ _

/-- The rule for the savepoint of `initiateRotation`. -/
lemma wp_stageRotation (h : Staging u l w) (credentialId : ℕ)
    (targets : Option (List String)) :
    wp (handlingProtocol readers) (stageRotation credentialId u targets) (StagePost u) l w := by
  rw [stageRotation, wp_bind]
  refine wp_either fun b => ?_
  split_ifs
  · exact nofun
  have hstage : ∀ v l' w', Staging u l' w' → wp (handlingProtocol readers) (do
      if ← .either then return .error .refused
      else insertStaged credentialId u targets v) (StagePost u) l' w' := by
    intro v l' w' h'
    rw [wp_bind]
    refine wp_either fun b => ?_
    split_ifs
    · exact nofun
    · exact wp_insertStaged h' credentialId targets v
  rw [wp_bind, lockCurrentNonPurgedVersion, wp_bind]
  refine wp_query fun w₁ hr₁ _ => ?_
  split
  · exact nofun
  · refine Table.wp_selectForUpdate (fun _ _ _ => nofun) fun w₂ v hr₂ _ _ _ => ?_
    exact hstage v _ _ ((h.read hr₁).wrote hr₂ _ (fun _ => rfl) fun _ => rfl)

lemma asks_insertRow {Row : Type} (T : Db.Table HandlingDb (HandlingLock readers) Row)
    (values : Ctx HandlingDb → Row) (hlock : ∀ n, memberRank (T.lock n) = none) :
    (T.insertRow values : HandlingProg readers Row).Asks (Unranked readers) :=
  Prog.asks_update fun c k hk => by
    rw [List.mem_singleton.1 hk]
    exact hlock _

lemma asks_insertWithChecklist (credentialId newVersionId previousVersionId : ℕ)
    (targets : Option (List String)) :
    (insertWithChecklist credentialId u targets newVersionId previousVersionId : HandlingProg readers
      (Except StageError ℕ)).Asks (Unranked readers) := by
  refine Prog.asks_bind (Prog.asks_query _) fun rows => ?_
  refine Prog.asks_bind (Prog.asks_update fun c k hk => ?_) fun rotation => ?_
  · split_ifs at hk
    · nomatch hk
    · rw [List.mem_singleton.1 hk]
      rfl
  · split
    · exact Prog.asks_pure _
    · refine Prog.asks_bind (Prog.asks_forEach fun dep _ => ?_) fun _ => Prog.asks_pure _
      exact Prog.asks_bind (asks_insertRow _ _ fun _ => rfl) fun _ => Prog.asks_pure _

lemma asks_stageRotation (credentialId : ℕ) (targets : Option (List String)) :
    (stageRotation credentialId u targets : HandlingProg readers (Except StageError ℕ)).Asks
      (Unranked readers) := by
  refine Prog.asks_bind Prog.asks_either fun b => ?_
  split_ifs
  · exact Prog.asks_pure _
  refine Prog.asks_bind (Prog.asks_bind (Prog.asks_query _) fun found => ?_) fun previous => ?_
  · split
    · exact Prog.asks_pure _
    · refine Prog.asks_update fun c k hk => ?_
      obtain ⟨_, -, rfl⟩ := Option.mem_map.1 (Option.mem_toList.1 hk)
      rfl
  · split
    · exact Prog.asks_pure _
    · refine Prog.asks_bind Prog.asks_either fun b => ?_
      split_ifs
      · exact Prog.asks_pure _
      · refine Prog.asks_bind (Prog.asks_query _) fun _ => ?_
        refine Prog.asks_bind (asks_insertRow _ _ fun _ => rfl) fun _ => ?_
        refine Prog.asks_bind (Prog.asks_query _) fun _ => ?_
        refine Prog.asks_bind (asks_updateRow _ _ _ _ rfl) fun _ => ?_
        exact asks_insertWithChecklist _ _ _ _

lemma wp_initiateRotation (reader : Fin readers) (credentialId : ℕ)
    (targets : Option (List String)) (t : ℕ) :
    wp (handlingProtocol readers) (initiateRotation reader u credentialId targets)
      (fun _ _ _ => True) (.idle t) w := by
  rw [initiateRotation, wp_bind]
  refine wp_beginTx fun w _ _ => ?_
  rw [wp_bind]
  refine wp_tryLock fun w₁ _ _ => ⟨?_, ?_⟩
  · simp only [if_true]
    rw [wp_bind, lockActiveInitiatorMembership, wp_bind]
    refine SharedTable.wp_selectForShare (fun _ => rfl) (fun w₂ _ => wp_refuse (fun _ => rfl) rfl) ?_
    intro m l w₂ hclean _ hheld
    change wp _ (if decide (m.status = .active) = true then _ else _) _ _ _
    split_ifs with hactive
    · have hstaging : Staging u l w₂ := ⟨⟨reader, m, hheld, of_decide_eq_true hactive⟩,
        fun d => by rw [hclean], fun d => by rw [hclean]⟩
      rw [wp_bind]
      refine wp_savepoint (asks_stageRotation credentialId targets)
        ((wp_stageRotation hstaging credentialId targets).mono fun r l₃ w₃ hpost => ?_)
      cases r with
      | error e =>
        have hclean₃ : Local.Clean { l₃ with pending := l.pending } := hclean
        cases e with
        | refused => exact wp_refuse hclean₃ rfl
        | threw => exact wp_failed rfl
        | conflict =>
          dsimp only [SavepointPost]
          rw [wp_bind]
          exact wp_query fun w₄ _ _ => wp_refuse hclean₃ rfl
      | ok n =>
        obtain ⟨row, rfl, hstaged⟩ := hpost n rfl
        intro w₄ hr₄ _
        refine wp_audited fun w' locked hr _ => ?_
        have hl : Later (handlingProtocol readers) l₃ w₃ l₃ w' :=
          ⟨Set.Subset.rfl, (hr₄.trans (World.bump_rely w₄)).trans hr⟩
        exact (hstaged.later hl (fun _ => rfl) fun _ => rfl).move locked
    · exact wp_refuse hclean rfl
  · simp only [Bool.false_eq_true, if_false]
    rw [wp_bind]
    refine wp_lock fun w₂ _ _ => ?_
    rw [wp_bind]
    exact wp_query fun w₃ _ _ => wp_refuse (fun _ => rfl) rfl

end Stage

/-- Every call keeps to the protocol. -/
theorem handlingCall_keeps :
    Keeps (handlingProtocol readers) (handlingCall : HandlingCall readers → _) fun _ => True := by
  intro call _ t w _
  cases call with
  | leave leave callerRole reader userId handling => exact wp_leaveOrg leave callerRole reader t
  | initiate reader userId credentialId targets =>
    exact wp_initiateRotation reader credentialId targets t

end ProjectVault.Org
