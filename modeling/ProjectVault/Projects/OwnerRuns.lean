import ProjectVault.Projects.Owners
import ProjectVault.Db.Watch

/-!
Runs of the membership code.
-/

namespace ProjectVault.Projects

open Db

/-! ### The property -/

/-- The project has an owner. -/
def HasOwner (d : OwnerDb) : Prop := ∃ m ∈ d.members, m.isOwner = true

instance (d : OwnerDb) : Decidable (HasOwner d) :=
  inferInstanceAs (Decidable (∃ m ∈ d.members, m.isOwner = true))

/-- A transfer that is answered has been made. -/
def Promoted (ev : OwnerEnd) : Prop :=
  ∀ previous new, ev.answer = .transferred previous new →
    ∃ m, memberTable.find ev.after new = some m ∧ m.isOwner = true

/-- No role change, no removal from the organization and no removal of a member whose role was read
as another than `owner` commits on the sole owner, and the new owner of a transfer is a member when
it commits. -/
def Guarded (ev : OwnerEnd) : Bool :=
  match ev.answer with
  | .roleChanged userId | .orgRemoved userId => !isSoleOwner ev.before userId
  | .removed userId role => role = .owner || !isSoleOwner ev.before userId
  | .transferred _ newOwnerId => (memberTable.find ev.before newOwnerId).isSome
  | _ => true

/-- What the end of a transaction may do. -/
structure OwnerMove (held : Set OwnerLock) (_w : OwnerWorld) (ev : OwnerEnd) : Prop where
  frame : ∀ n, OwnerLock.member n ∉ held →
    memberTable.find ev.after n = memberTable.find ev.before n
  gone : ∀ n, memberTable.find ev.before n = none → memberTable.find ev.after n = none
  owner : HasOwner ev.before → HasOwner ev.after
  promoted : Promoted ev

/-- What the sessions of the membership code owe each other. -/
def ownerProtocol : Protocol OwnerDb OwnerLock OwnerAnswer where
  inv w := ∀ ev ∈ w.log, Promoted ev
  move := OwnerMove
  admits ev := Guarded ev = true
  inv_move hinv _ _ hmove ev hev := by
    rcases List.mem_cons.1 hev with rfl | hev
    · exact hmove.promoted
    · exact hinv ev hev
  inv_later hinv _ _ := hinv

/-! ### Rows -/

section Rows

variable {d : OwnerDb} {u n : ℕ}

lemma exists_other_owner (h : HasOwner d) (hu : isSoleOwner d u = false) :
    ∃ m ∈ d.members, m.isOwner = true ∧ m.userId ≠ u := by
  obtain ⟨m, hm, howner⟩ := h
  by_cases hid : m.userId = u
  · have hany : (d.members.any fun m => m.userId = u && m.isOwner) = true :=
      List.any_eq_true.2 ⟨m, hm, by simp [hid, howner]⟩
    rw [isSoleOwner, hany, Bool.true_and, decide_eq_false_iff_not] at hu
    obtain ⟨m', hm'⟩ := List.exists_mem_of_ne_nil _ hu
    obtain ⟨hmem, hcond⟩ := List.mem_filter.1 hm'
    rw [Bool.and_eq_true, decide_eq_true_eq] at hcond
    exact ⟨m', hmem, hcond⟩
  · exact ⟨m, hm, howner, hid⟩

lemma hasOwner_of_find {m : Member} (h : memberTable.find d n = some m) (hm : m.isOwner = true) :
    HasOwner d :=
  ⟨m, (Table.find_eq_some h).1, hm⟩

/-- The update of a member. -/
def OwnerDb.update (d : OwnerDb) (u : ℕ) (role : ProjectRole) : OwnerDb :=
  memberTable.modify (updateWhere (fun m => memberTable.id m = u) fun m => { m with role }) d

/-- The removal of a member. -/
def OwnerDb.delete (d : OwnerDb) (u : ℕ) : OwnerDb :=
  memberTable.modify (fun rows => rows.filter fun m => memberTable.id m ≠ u) d

lemma find_update_self (role : ProjectRole) :
    memberTable.find (d.update u role) u =
      (memberTable.find d u).map fun m => { m with role } :=
  find_updateWhere_self (f := fun m : Member => { m with role }) (fun _ => rfl) u d.members

lemma find_update_of_ne (role : ProjectRole) (h : n ≠ u) :
    memberTable.find (d.update u role) n = memberTable.find d n :=
  find_updateWhere_of_ne (f := fun m : Member => { m with role }) (fun _ => rfl) h d.members

lemma find_update_eq_none (role : ProjectRole) :
    memberTable.find (d.update u role) n = none ↔ memberTable.find d n = none := by
  by_cases h : n = u
  · rw [h, find_update_self, Option.map_eq_none_iff]
  · rw [find_update_of_ne role h]

lemma find_delete_of_ne (h : n ≠ u) :
    memberTable.find (d.delete u) n = memberTable.find d n :=
  find_filter_of_ne h d.members

lemma find_delete_self : memberTable.find (d.delete u) u = none := by
  refine List.find?_eq_none.2 fun m hm => ?_
  have hne := of_decide_eq_true (List.mem_filter.1 hm).2
  exact decide_eq_false hne ▸ Bool.false_ne_true

lemma mem_update_of_ne {m : Member} (role : ProjectRole) (hm : m ∈ d.members) (h : m.userId ≠ u) :
    m ∈ (d.update u role).members :=
  mem_updateWhere.2 ⟨m, hm, if_neg (decide_eq_false (p := m.userId = u) h ▸ Bool.false_ne_true)⟩

lemma mem_delete_of_ne {m : Member} (hm : m ∈ d.members) (h : m.userId ≠ u) :
    m ∈ (d.delete u).members :=
  List.mem_filter.2 ⟨hm, decide_eq_true h⟩

end Rows

/-! ### Moves -/

section Moves

variable {held : Set OwnerLock} {w : OwnerWorld} {answer : OwnerAnswer} {locked : OwnerLock → Bool}
  {u n : ℕ}

/-- A transaction that ends without a change. -/
lemma OwnerMove.same (hanswer : ∀ p n, answer ≠ .transferred p n) :
    OwnerMove held w ⟨w.db, answer, w.db, locked⟩ where
  frame _ _ := rfl
  gone _ h := h
  owner h := h
  promoted p n h := (hanswer p n h).elim

/-- A transaction that has updated a member. -/
lemma OwnerMove.update {role : ProjectRole} (hlock : OwnerLock.member u ∈ held)
    (howner : HasOwner w.db → HasOwner (w.db.update u role))
    (hanswer : ∀ p n, answer ≠ .transferred p n) :
    OwnerMove held w ⟨w.db, answer, w.db.update u role, locked⟩ where
  frame _ hn := find_update_of_ne role fun h => hn (h ▸ hlock)
  gone _ h := (find_update_eq_none role).2 h
  owner := howner
  promoted p n h := (hanswer p n h).elim

/-- A transaction that has removed a member. -/
lemma OwnerMove.delete (hlock : OwnerLock.member u ∈ held)
    (howner : HasOwner w.db → HasOwner (w.db.delete u))
    (hanswer : ∀ p n, answer ≠ .transferred p n) :
    OwnerMove held w ⟨w.db, answer, w.db.delete u, locked⟩ where
  frame n hn := find_delete_of_ne fun h => hn (h ▸ hlock)
  gone n h := by
    by_cases hu : n = u
    · rw [hu]
      exact find_delete_self
    · exact (find_delete_of_ne hu).trans h
  owner := howner
  promoted p n h := (hanswer p n h).elim

/-- A transaction that has demoted one member and promoted another. -/
lemma OwnerMove.transfer (hu : OwnerLock.member u ∈ held) (hn : OwnerLock.member n ∈ held)
    (hmember : (memberTable.find w.db n).isSome = true) :
    OwnerMove held w ⟨w.db, .transferred u n, (w.db.update u .admin).update n .owner, locked⟩ := by
  have hfind : ∃ m, memberTable.find ((w.db.update u .admin).update n .owner) n = some m ∧
      m.isOwner = true := by
    have hsome : memberTable.find (w.db.update u .admin) n ≠ none := fun h =>
      Option.isSome_iff_ne_none.1 hmember ((find_update_eq_none .admin).1 h)
    obtain ⟨m, hm⟩ := Option.ne_none_iff_exists'.1 hsome
    exact ⟨{ m with role := .owner }, by rw [find_update_self, hm]; rfl, rfl⟩
  refine ⟨fun m hm => ?_, fun m hm => ?_, fun _ => ?_, fun p m h => ?_⟩
  · have hmn : m ≠ n := fun h => hm (h ▸ hn)
    have hmu : m ≠ u := fun h => hm (h ▸ hu)
    exact (find_update_of_ne .owner hmn).trans (find_update_of_ne .admin hmu)
  · exact (find_update_eq_none .owner).2 ((find_update_eq_none .admin).2 hm)
  · obtain ⟨m, hm, howner⟩ := hfind
    exact hasOwner_of_find hm howner
  · cases h
    exact hfind

lemma hasOwner_update (role : ProjectRole) (h : HasOwner w.db) (hu : isSoleOwner w.db u = false) :
    HasOwner (w.db.update u role) := by
  obtain ⟨m, hm, howner, hne⟩ := exists_other_owner h hu
  exact ⟨m, mem_update_of_ne role hm hne, howner⟩

lemma hasOwner_delete (h : HasOwner w.db) (hu : isSoleOwner w.db u = false) :
    HasOwner (w.db.delete u) := by
  obtain ⟨m, hm, howner, hne⟩ := exists_other_owner h hu
  exact ⟨m, mem_delete_of_ne hm hne, howner⟩

end Moves

/-! ### Rules -/

section Rules

variable {l : Local OwnerDb OwnerLock} {w w' : OwnerWorld} {held : Set OwnerLock} {n : ℕ}

/-- A locked member does not change. -/
lemma memberTable_stable : memberTable.Stable ownerProtocol := by
  intro held w w' n hr hn
  refine Rely.stable (A := fun v => memberTable.find v.db n = memberTable.find w.db n) ?_ ?_ hr rfl
  · intro other v ev hdisj _ hbefore _ _ hmove hA
    exact (hmove.frame n (Set.disjoint_left.1 hdisj hn)).trans (hbefore ▸ hA)
  · exact fun v m t _ _ hA => hA

/-- No member is added. -/
lemma gone_of_rely (hr : Rely ownerProtocol held w w') (hn : memberTable.find w.db n = none) :
    memberTable.find w'.db n = none := by
  refine Rely.stable (A := fun v => memberTable.find v.db n = none) ?_ ?_ hr hn
  · exact fun other v ev _ _ hbefore _ _ hmove hA => hmove.gone n (hbefore ▸ hA)
  · exact fun v m t _ _ hA => hA

/-- The rule for a refusal. -/
lemma wp_rejectOwner (hclean : l.Clean) {answer : OwnerAnswer}
    (hanswer : ∀ p n, answer ≠ .transferred p n) :
    wp ownerProtocol (.commitTx answer) (fun _ _ _ => True) l w := by
  refine wp_commitTx fun w' locked _ _ _ => ⟨?_, trivial⟩
  rw [hclean]
  exact .same hanswer

/-- The rule for the end of a handler. -/
lemma wp_auditedOwner {answer : OwnerAnswer}
    (h : ∀ w' locked, Rely ownerProtocol l.held w w' →
      Guarded ⟨w'.db, answer, l.pending w'.db, locked⟩ = true →
      OwnerMove l.held w' ⟨w'.db, answer, l.pending w'.db, locked⟩) :
    wp ownerProtocol (auditedOwner answer) (fun _ _ _ => True) l w := by
  rw [auditedOwner, wp_bind]
  refine wp_either fun b => ?_
  cases b with
  | true => exact wp_rollbackTx fun w' locked _ _ _ => ⟨.same nofun, trivial⟩
  | false => exact wp_commitTx fun w' locked hr _ hadm => ⟨h w' locked hr hadm, trivial⟩

/-- The rule for the removal of a member. -/
lemma wp_deleteMember (hclean : l.Clean) {answer : OwnerAnswer}
    (hanswer : ∀ p n, answer ≠ .transferred p n)
    (howner : ∀ w' locked after, Rely ownerProtocol l.held w w' →
      Guarded ⟨w'.db, answer, after, locked⟩ = true → HasOwner w'.db →
        HasOwner (w'.db.delete n)) :
    wp ownerProtocol (do memberTable.deleteRow n; auditedOwner answer) (fun _ _ _ => True) l w := by
  rw [wp_bind]
  refine Table.wp_deleteRow ?_ ?_
  · intro w₁ _ _ _
    refine wp_auditedOwner fun w' locked _ _ => ?_
    rw [hclean]
    exact .same hanswer
  · intro w₁ m hr₁ _ _
    refine wp_auditedOwner fun w' locked hr hadm => ?_
    have hpending : (l.wrote [memberTable.lock n] (memberTable.modify fun rows =>
        rows.filter fun r => memberTable.id r ≠ n)).pending w'.db = w'.db.delete n :=
      congrArg (OwnerDb.delete · n) (hclean _)
    have hr' := (hr₁.trans (World.bump_rely w₁)).trans (hr.anti (l.held_wrote _ _))
    rw [hpending] at hadm ⊢
    exact .delete (.inr (List.mem_singleton.2 rfl)) (howner w' locked _ hr' hadm) hanswer

end Rules

/-! ### The calls -/

section Calls

variable {w : OwnerWorld}

lemma wp_changeRole (t n : ℕ) (role : AssignableRole) :
    wp ownerProtocol (changeRole n role) (fun _ _ _ => True) (.idle t) w := by
  rw [changeRole, wp_bind]
  refine wp_beginTx fun w _ _ => ?_
  rw [wp_bind]
  refine wp_either fun b => ?_
  split_ifs
  · exact wp_rejectOwner (fun _ => rfl) nofun
  rw [wp_bind, getProjectMembershipRole]
  refine wp_query fun w₁ _ _ => ?_
  split
  · exact wp_rejectOwner (fun _ => rfl) nofun
  · split_ifs
    · exact wp_rejectOwner (fun _ => rfl) nofun
    rw [wp_bind]
    refine Table.wp_updateRow ?_ ?_
    · intro w₂ _ _ _
      exact wp_auditedOwner fun w' locked _ _ => .same nofun
    · intro w₂ m _ _ _ _
      refine wp_auditedOwner fun w' locked _ hadm => ?_
      have hsole : isSoleOwner w'.db n = false := by simpa [Guarded] using hadm
      exact .update (.inr (List.mem_singleton.2 rfl)) (hasOwner_update role · hsole) nofun

lemma wp_removeMember (t n : ℕ) :
    wp ownerProtocol (removeMember n) (fun _ _ _ => True) (.idle t) w := by
  rw [removeMember, wp_bind]
  refine wp_beginTx fun w _ _ => ?_
  rw [wp_bind, getProjectMembershipRole]
  refine wp_query fun w₁ _ _ => ?_
  split
  · exact wp_rejectOwner (fun _ => rfl) nofun
  · next role _ =>
    rw [wp_bind]
    refine wp_either fun b => ?_
    split_ifs
    · exact wp_rejectOwner (fun _ => rfl) nofun
    rw [wp_bind, rejectLastOwner]
    split_ifs with howner
    · rw [wp_bind, lockOtherOwners, wp_bind]
      refine wp_query fun w₂ _ _ => ?_
      refine Table.wp_selectEach memberTable_stable (fun _ => rfl) _ ?_
      intro rows l w₃ hclean _ hrows
      change wp ownerProtocol (if decide (rows = []) = true then _ else _) _ _ _
      split_ifs with hempty
      · exact wp_rejectOwner hclean nofun
      · obtain ⟨m, hm⟩ := List.exists_mem_of_ne_nil rows (by simpa using hempty)
        obtain ⟨hheld, c, hcond⟩ := hrows m hm
        rw [Bool.and_eq_true, decide_eq_true_eq] at hcond
        refine wp_deleteMember hclean nofun fun w' locked after hr _ _ => ?_
        have hmem := (Table.find_eq_some (hheld.rely memberTable_stable hr).find).1
        exact ⟨m, mem_delete_of_ne hmem hcond.2, hcond.1⟩
    · -- the role that was read is not `owner`: nothing is locked
      refine wp_deleteMember (fun _ => rfl) nofun fun w' locked after _ hadm hold => ?_
      have hsole : isSoleOwner w'.db n = false := by simpa [Guarded, howner] using hadm
      exact hasOwner_delete hold hsole

lemma wp_removeOrgUser (t n : ℕ) :
    wp ownerProtocol (removeOrgUser n) (fun _ _ _ => True) (.idle t) w := by
  rw [removeOrgUser, wp_bind]
  refine wp_beginTx fun w _ _ => ?_
  rw [wp_bind]
  refine wp_lock fun w₁ _ _ => ?_
  rw [wp_bind]
  refine wp_either fun b => ?_
  split_ifs
  · exact wp_rejectOwner (fun _ => rfl) nofun
  have hdelete : ∀ (l : Local OwnerDb OwnerLock) (w : OwnerWorld), l.Clean →
      wp ownerProtocol (do
        if ← .either then .commitTx .refused
        else do
          memberTable.deleteRow n
          auditedOwner (.orgRemoved n)) (fun _ _ _ => True) l w := by
    intro l w hclean
    rw [wp_bind]
    refine wp_either fun b => ?_
    split_ifs
    · exact wp_rejectOwner hclean nofun
    refine wp_deleteMember hclean nofun fun w' locked after _ hadm hold => ?_
    have hsole : isSoleOwner w'.db n = false := by simpa [Guarded] using hadm
    exact hasOwner_delete hold hsole
  rw [wp_bind, lockSoleOwner, wp_bind]
  refine wp_query fun w₂ _ _ => ?_
  split_ifs
  · refine Table.wp_selectClean (fun _ => rfl) ?_ ?_
    · exact fun w₃ _ => hdelete _ _ fun _ => rfl
    · exact fun m l w₃ hclean _ _ _ => wp_rejectOwner hclean nofun
  · exact hdelete _ _ fun _ => rfl

/-- The promotion after the demotion of a locked owner. -/
lemma wp_promote {l : Local OwnerDb OwnerLock} {u n : ℕ} (hlock : OwnerLock.member u ∈ l.held)
    (hpending : ∀ d, l.pending d = d.update u .admin) :
    wp ownerProtocol (do
      let _ ← setRole n (fun _ => true) .owner
      auditedOwner (.transferred u n)) (fun _ _ _ => True) l w := by
  rw [wp_bind]
  refine Table.wp_updateRow ?_ ?_
  · -- the new owner is gone, and stays so
    intro w₁ _ _ hcand
    refine wp_auditedOwner fun w' locked hr hadm => ?_
    have hnone : memberTable.find w₁.db n = none := by
      rw [Table.candidate, show (l.ctx w₁).view = w₁.db.update u .admin from hpending _] at hcand
      rw [← find_update_eq_none (u := u) .admin, Option.eq_none_iff_forall_ne_some]
      simpa using hcand
    have hgone := gone_of_rely ((World.bump_rely w₁).trans hr) hnone
    have hmember : (memberTable.find w'.db n).isSome = true := hadm
    rw [hgone] at hmember
    cases hmember
  · intro w₁ m _ _ _ _
    refine wp_auditedOwner fun w' locked _ hadm => ?_
    have hafter : (l.wrote [memberTable.lock n] (memberTable.modify
        (updateWhere (fun r => memberTable.id r = n) fun r => { r with role := .owner }))).pending
          w'.db = (w'.db.update u .admin).update n .owner :=
      congrArg (OwnerDb.update · n .owner) (hpending _)
    rw [hafter] at hadm ⊢
    exact .transfer (l.held_wrote _ _ hlock) (.inr (List.mem_singleton.2 rfl)) hadm

lemma wp_transferOwnership (t n : ℕ) :
    wp ownerProtocol (transferOwnership n) (fun _ _ _ => True) (.idle t) w := by
  rw [transferOwnership, wp_bind]
  refine wp_beginTx fun w _ _ => ?_
  rw [wp_bind]
  refine wp_either fun b => ?_
  split_ifs
  · exact wp_rejectOwner (fun _ => rfl) nofun
  rw [wp_bind, resolveTransferTargets, wp_bind, getProjectMembershipRole]
  refine wp_query fun w₁ _ _ => ?_
  split
  · exact wp_rejectOwner (fun _ => rfl) nofun
  · split_ifs
    · exact wp_rejectOwner (fun _ => rfl) nofun
    rw [wp_bind, lockCurrentOwner, wp_bind]
    refine wp_query fun w₂ _ _ => ?_
    refine Table.wp_selectFirst (fun _ => rfl) _ ?_ ?_
    · exact fun l w₃ hclean => wp_rejectOwner hclean nofun
    · rintro u currentOwner l w₃ hclean rfl - -
      change wp ownerProtocol (setRole currentOwner.userId Member.isOwner .admin >>= _) _ _ _
      rw [wp_bind]
      refine Table.wp_updateRow ?_ ?_
      · exact fun w₄ _ _ _ => wp_rejectOwner hclean nofun
      · intro w₄ m _ _ _ _
        refine wp_promote (.inr (List.mem_singleton.2 rfl)) fun d => ?_
        exact congrArg (OwnerDb.update · currentOwner.userId .admin) (hclean d)

end Calls

/-- Every call keeps to the protocol. -/
theorem ownerCall_keeps : Keeps ownerProtocol ownerCall fun _ => True := by
  intro call _ t w _
  cases call with
  | changeRole userId role => exact wp_changeRole t userId role
  | removeMember userId => exact wp_removeMember t userId
  | removeOrgUser userId => exact wp_removeOrgUser t userId
  | transferOwnership newOwnerId => exact wp_transferOwnership t newOwnerId

/-! ### Runs -/

lemma hasOwner_of_rely {held : Set OwnerLock} {w w' : OwnerWorld}
    (hr : Rely ownerProtocol held w w') (h : HasOwner w.db) : HasOwner w'.db := by
  refine Rely.stable (A := fun v => HasOwner v.db) ?_ ?_ hr h
  · exact fun other v ev _ _ hbefore _ _ hmove hA => hmove.owner (hbefore ▸ hA)
  · exact fun v m t _ _ hA => hA

/-- **Ownership**: in a run whose transactions commit on the rows that their guards were about, a
project that has an owner has one in every later state, and a transfer that is answered has been
made. -/
theorem project_keeps_owner {roster : Roster} {seq clock : ℕ}
    {ok : State OwnerDb OwnerLock OwnerAnswer → Label OwnerCall → Prop}
    {s t : State OwnerDb OwnerLock OwnerAnswer} (h : (ownerSessions roster seq clock).Reaches ok s)
    (hlater : (ownerSessions roster seq clock).Steps ok s t)
    (hguarded : ∀ ev ∈ t.world.log, Guarded ev = true) :
    (HasOwner s.world.db → HasOwner t.world.db) ∧ ∀ ev ∈ t.world.log, Promoted ev := by
  have hreach : ∀ {u}, (ownerSessions roster seq clock).Reaches ok u →
      (∀ ev ∈ u.world.log, Guarded ev = true) → Sound ownerProtocol u := fun hu hadm =>
    Sound.of_reaches ownerCall_keeps (fun _ _ _ _ => trivial) (fun ev hev => (List.not_mem_nil hev).elim) hu hadm
  have hsuffix : s.world.log <:+ t.world.log := by
    refine Run.System.Steps.invariant (P := fun u => s.world.log <:+ u.world.log) ?_ hlater
      List.suffix_rfl
    exact fun u a u' hu _ hstep => hu.trans (log_suffix_of_step hstep)
  have hs : Sound ownerProtocol s := hreach h fun ev hev => hguarded ev (hsuffix.subset hev)
  have ht : Sound ownerProtocol t := hreach (h.steps hlater) hguarded
  exact ⟨hasOwner_of_rely (hs.rely_steps ownerCall_keeps hlater hguarded), ht.inv⟩

/-! ### A late role change -/

/-- A project with its owner and an admin. -/
def ownerAndAdmin : Roster where
  members := [⟨0, .owner⟩, ⟨1, .admin⟩]
  nodup := by decide

/-- The role change of the admin, up to the read of the role. -/
def roleRead : List (Label OwnerCall) :=
  [.opens 0 (.changeRole 1 ⟨.member, by decide⟩), .runs 0 true, .runs 0 false, .runs 0 true]

/-- The rest of it. -/
def roleWrite : List (Label OwnerCall) := [.runs 0 true, .runs 0 false, .runs 0 true]

/-- The transfer of the ownership to the admin. -/
def transferRun : List (Label OwnerCall) :=
  [.opens 1 (.transferOwnership 1), .runs 1 true, .runs 1 false] ++ Label.runsFor 1 5 ++
    [.runs 1 false, .runs 1 true]

/-- The removal of the former owner from the organization. -/
def formerOwnerRemoval : List (Label OwnerCall) :=
  [.opens 2 (.removeOrgUser 0), .runs 2 true, .runs 2 true, .runs 2 false, .runs 2 true,
    .runs 2 false, .runs 2 true, .runs 2 false, .runs 2 true]

/-- A run in which the role of the admin is changed, the ownership transferred to them and the former
owner removed. -/
theorem project_keeps_owner_transferred :
    ∃ t, (ownerSessions ownerAndAdmin 0 0).Reaches (fun _ _ => True) t ∧
      t.world.db.members = [⟨1, .owner⟩] ∧ HasOwner t.world.db ∧
      ∀ ev ∈ t.world.log, Promoted ev := by
  obtain ⟨t, hexec, hmembers, hguarded⟩ :=
    (ownerSessions ownerAndAdmin 0 0).exists_of_exec (fun _ _ => True)
      (ownerSessions ownerAndAdmin 0 0).init
      (roleRead ++ roleWrite ++ transferRun ++ formerOwnerRemoval)
      (fun t => t.world.db.members = [⟨1, .owner⟩] ∧ ∀ ev ∈ t.world.log, Guarded ev = true)
      (by decide +kernel)
  have hsteps := Run.System.steps_of_exec hexec
  obtain ⟨howner, hpromoted⟩ := project_keeps_owner .refl hsteps hguarded
  exact ⟨t, hsteps, hmembers, howner (by decide), hpromoted⟩

/-- A role change that has read the role before a transfer to the member leaves a project without an
owner. -/
theorem project_left_without_owner :
    ∃ t, (ownerSessions ownerAndAdmin 0 0).Reaches (fun _ _ => True) t ∧
      HasOwner ⟨ownerAndAdmin.members⟩ ∧ ¬ HasOwner t.world.db := by
  obtain ⟨t, hexec, hnone⟩ :=
    (ownerSessions ownerAndAdmin 0 0).exists_of_exec (fun _ _ => True)
      (ownerSessions ownerAndAdmin 0 0).init (roleRead ++ transferRun ++ roleWrite)
      (fun t => ¬ HasOwner t.world.db) (by decide +kernel)
  exact ⟨t, Run.System.steps_of_exec hexec, by decide, hnone⟩

end ProjectVault.Projects
