import ProjectVault.Db.LockOrder
import ProjectVault.Org.HandlingCalls

/-!
Runs of the rotation handling.
-/

namespace ProjectVault.Org

open Db Projects

variable {readers : ℕ}

/-! ### The order of the memberships -/

section Order

variable {l l' : Local HandlingDb (HandlingLock readers)} {w w' : HandlingWorld readers} {n u : ℕ}
variable
  {Q : Option OrgMember → Local HandlingDb (HandlingLock readers) → HandlingWorld readers → Prop}
  {modes : Set (Option (Fin readers))}

variable (readers) in
/-- What is proved of the code: it waits for memberships in the order of the users. -/
abbrev inOrder {α : Type} (p : HandlingProg readers α)
    (Q : α → Local HandlingDb (HandlingLock readers) → HandlingWorld readers → Prop) :
    Local HandlingDb (HandlingLock readers) → HandlingWorld readers → Prop :=
  ends (handlingProtocol readers) (Ascending memberRank) (fun _ => True) p Q

lemma inOrder_bind {α β : Type} (p : HandlingProg readers α) (f : α → HandlingProg readers β)
    (Q : β → Local HandlingDb (HandlingLock readers) → HandlingWorld readers → Prop) :
    inOrder readers (p >>= f) Q = inOrder readers p fun a => inOrder readers (f a) Q :=
  ends_bind Q p f

/-- The memberships that are locked are those of users below `n`. -/
def Below (n : ℕ) (l : Local HandlingDb (HandlingLock readers)) : Prop :=
  ∀ k ∈ l.held, ∀ r, memberRank k = some r → r < n

/-- The membership is locked in some modes, or there is none. -/
def Asked (n : ℕ) (modes : Set (Option (Fin readers))) (l : Local HandlingDb (HandlingLock readers))
    (w : HandlingWorld readers) : Prop :=
  memberOf w.db n = none ∨ ∀ h ∈ modes, HandlingLock.member n h ∈ l.held

lemma Asked.later (h : Asked n modes l w) (hl : Later (handlingProtocol readers) l w l' w') :
    Asked n modes l' w' :=
  h.imp (gone_of_rely hl.rely) fun hheld m hm => hl.held (hheld m hm)

/-- A statement may wait for a membership above all that are locked, or for one that it has locked
already. -/
lemma ascending_of_asked {keys : List (HandlingLock readers)}
    (hask : Below n l ∨ ∀ h ∈ modes, HandlingLock.member n h ∈ l.held)
    (hkeys : ∀ k ∈ keys, ∃ h ∈ modes, k = .member n h) : Ascending memberRank l.held keys := by
  intro k hk hnot r hr k' hk' r' hr'
  obtain ⟨h, hh, rfl⟩ := hkeys k hk
  obtain rfl : n = r := Option.some.inj hr
  rcases hask with hbelow | hheld
  · exact hbelow k' hk' r' hr'
  · exact absurd (hheld h hh) hnot

lemma ascending_nil : Ascending memberRank l.held [] := fun _ hk => nomatch hk

/-- A membership that has just been asked for: what is locked, and what was read. -/
structure Answered (n : ℕ) (modes : Set (Option (Fin readers))) (l : Local HandlingDb (HandlingLock
    readers)) (w : HandlingWorld readers) (r : Option OrgMember)
    (l' : Local HandlingDb (HandlingLock readers)) (w' : HandlingWorld readers) : Prop where
  clean : l'.Clean
  later : Later (handlingProtocol readers) l w l' w'
  asked : Asked n modes l' w'
  read : r = memberOf w'.db n
  held : ∀ k ∈ l'.held, k ∈ l.held ∨ memberRank k = some n

/-- What is locked above. -/
lemma Answered.below {r : Option OrgMember} (h : Answered n modes l w r l' w') (hl : Below n l)
    (hn : n < u) : Below u l' := by
  intro k hk r hr
  rcases h.held k hk with hold | hnew
  · exact (hl k hold r hr).trans hn
  · rw [hnew] at hr
    cases hr
    exact hn

/-- The rule for a statement that locks a membership. -/
lemma inOrder_update (hclean : l.Clean) (hask : Below n l ∨ Asked n modes l w)
    {keys : Ctx HandlingDb → List (HandlingLock readers)}
    (hnone : ∀ c, memberOf c.view n = none → keys c = [])
    (hkeys : ∀ c m, memberOf c.view n = some m → (∀ h ∈ modes, HandlingLock.member n h ∈ keys c) ∧
      ∀ k ∈ keys c, ∃ h ∈ modes, k = .member n h)
    (hQ : ∀ r l' w', Answered n modes l w r l' w' → Q r l' w') :
    inOrder readers (.update keys (fun _ d => d) fun c => memberOf c.view n) Q l w := by
  refine ends_update fun w' hr _ => ?_
  have hview : (l.ctx w').view = w'.db := hclean _
  cases hfind : memberOf (l.ctx w').view n with
  | none =>
    rw [hnone _ hfind]
    have hl : l.wrote [] (fun d => d) = l := l.wrote_nil
    rw [hl]
    rw [hview] at hfind
    exact ⟨ascending_nil, hQ _ _ _ ⟨hclean, .stmt hr Set.Subset.rfl, .inl hfind, hfind.symm,
      fun k hk => .inl hk⟩⟩
  | some m =>
    obtain ⟨hall, hmember⟩ := hkeys _ m hfind
    rw [hview] at hfind
    refine ⟨ascending_of_asked (hask.imp_right fun hasked => ?_) hmember,
      hQ _ _ _ ⟨fun d => hclean d, .stmt hr (l.held_wrote _ _), .inr fun h hh => .inr (hall h hh),
        hfind.symm, fun k hk => ?_⟩⟩
    · rcases hasked.later ⟨Set.Subset.rfl, hr⟩ with hgone | hheld
      · rw [hfind] at hgone
        nomatch hgone
      · exact hheld
    · refine hk.imp_right fun hnew => ?_
      obtain ⟨h, -, rfl⟩ := hmember k hnew
      rfl

lemma inOrder_selectForShare (reader : Fin readers) (hclean : l.Clean)
    (hask : Below n l ∨ Asked n {some reader} l w)
    (hQ : ∀ r l' w', Answered n {some reader} l w r l' w' → Q r l' w') :
    inOrder readers ((memberTable readers).selectForShare reader n) Q l w := by
  refine inOrder_update hclean hask (fun c hc => ?_) (fun c m hc => ?_) hQ
  · change ((memberOf c.view n).map _).toList = []
    rw [hc]
    rfl
  · change (∀ h ∈ _, _ ∈ ((memberOf c.view n).map _).toList) ∧
      ∀ k ∈ ((memberOf c.view n).map _).toList, _
    rw [hc]
    refine ⟨?_, fun k hk => ⟨_, rfl, List.mem_singleton.1 hk⟩⟩
    rintro _ rfl
    exact List.mem_singleton.2 rfl

lemma inOrder_selectForUpdate (hclean : l.Clean) (hask : Below n l ∨ Asked n Set.univ l w)
    (hQ : ∀ r l' w', Answered n Set.univ l w r l' w' → Q r l' w') :
    inOrder readers ((memberTable readers).selectForUpdate n) Q l w := by
  refine inOrder_update hclean hask
    (fun c hc => SharedTable.locksOf_of_none (T := memberTable readers) hc) ?_ hQ
  intro c m hc
  rw [SharedTable.locksOf_of_find (T := memberTable readers) hc]
  refine ⟨fun h _ => SharedTable.lock_mem_locks n h, fun k hk => ?_⟩
  obtain ⟨h, rfl⟩ := SharedTable.mem_locks hk
  exact ⟨h, trivial, rfl⟩

/-- Code that asks for no membership. -/
lemma inOrder_of_asks {α : Type} {p : HandlingProg readers α} (hp : p.Asks (Unranked readers))
    {Q : α → Local HandlingDb (HandlingLock readers) → HandlingWorld readers → Prop}
    (hQ : ∀ a l' w', l.held ⊆ l'.held → Q a l' w') : inOrder readers p Q l w :=
  ends_of_asks hp (fun _ hk => .inl hk) hQ

lemma inOrder_commit (answer : HandlingAnswer) :
    inOrder readers (.commitTx answer) (fun _ _ _ => True) l w :=
  ends_commitTx (fun _ _ => trivial) fun _ _ => trivial

lemma inOrder_rollback (answer : HandlingAnswer) :
    inOrder readers (.rollbackTx answer) (fun _ _ _ => True) l w :=
  ends_rollbackTx (fun _ _ => trivial) fun _ _ => trivial

lemma inOrder_reject (answer : HandlingAnswer) :
    inOrder readers (reject answer) (fun _ _ _ => True) l w := by
  rw [reject]
  split_ifs
  · exact inOrder_rollback _
  · exact inOrder_commit _

lemma inOrder_audited (answer : HandlingAnswer) :
    inOrder readers (audited answer) (fun _ _ _ => True) l w := by
  rw [audited, inOrder_bind]
  refine ends_either fun b => ?_
  cases b with
  | true => exact inOrder_rollback _
  | false => exact inOrder_commit _

/-! ### The calls -/

/-- The rule for `lockTargetMembership`: the target is locked for update, and the heir for reading. -/
lemma inOrder_lockTarget (reader : Fin readers) (handling : RotationHandling) {t : ℕ}
    (hQ : ∀ r l' w', l'.Clean → Asked u Set.univ l' w' → r = memberOf w'.db u →
      (∀ v, handling = .transfer v → v ≠ u → Asked v {some reader} l' w') → Q r l' w') :
    inOrder readers (lockTargetMembership reader u handling) Q (.idle t) w := by
  have hbelow : ∀ n, Below n (.idle t : Local HandlingDb (HandlingLock readers)) :=
    fun n _ hk => hk.elim
  have hclean : (.idle t : Local HandlingDb (HandlingLock readers)).Clean := fun _ => rfl
  -- without a transfer to another user there is one membership to lock
  have hsingle : (∀ v, handling = .transfer v → v = u) → ∀ w, inOrder readers
      ((memberTable readers).selectForUpdate u) Q (.idle t) w := by
    intro hself w
    refine inOrder_selectForUpdate hclean (.inl (hbelow u)) fun r l' w' h => ?_
    exact hQ r l' w' h.clean h.asked h.read fun v hv hne => absurd (hself v hv) hne
  rw [lockTargetMembership, inOrder_bind]
  cases handling with
  | transfer v =>
    rw [lockForTransfer, lockTransferMembershipsInOrder]
    split_ifs with hself hlt
    · refine hsingle (fun v' hv' => ?_) w
      rw [← RotationHandling.transfer.inj hv', hself]
    · rw [inOrder_bind]
      refine inOrder_selectForUpdate hclean (.inl (hbelow u)) fun _ l₁ w₁ h₁ => ?_
      rw [inOrder_bind]
      refine inOrder_selectForShare reader h₁.clean (.inl (h₁.below (hbelow u) hlt))
        fun _ l₂ w₂ h₂ => ?_
      refine inOrder_selectForUpdate h₂.clean (.inr (h₁.asked.later h₂.later))
        fun r l₃ w₃ h₃ => hQ r l₃ w₃ h₃.clean h₃.asked h₃.read fun v' hv' _ => ?_
      cases hv'
      exact h₂.asked.later h₃.later
    · have hlt' : v < u := lt_of_le_of_ne (not_lt.1 hlt) (Ne.symm hself)
      rw [inOrder_bind]
      refine inOrder_selectForShare reader hclean (.inl (hbelow v)) fun _ l₁ w₁ h₁ => ?_
      rw [inOrder_bind]
      refine inOrder_selectForUpdate h₁.clean (.inl (h₁.below (hbelow v) hlt'))
        fun _ l₂ w₂ h₂ => ?_
      refine inOrder_selectForUpdate h₂.clean (.inr h₂.asked) fun r l₃ w₃ h₃ =>
        hQ r l₃ w₃ h₃.clean h₃.asked h₃.read fun v' hv' _ => ?_
      cases hv'
      exact (h₁.asked.later h₂.later).later h₃.later
  | block => exact hsingle (fun _ h => by cases h) w
  | abandon => exact hsingle (fun _ h => by cases h) w

/-- The rule for `guardTargetRotations`. -/
lemma inOrder_guard (reader : Fin readers) (handling : RotationHandling) (hclean : l.Clean)
    (hheir : ∀ v, handling = .transfer v → v ≠ u → Asked v {some reader} l w)
    {Q : Except HandlingAnswer ClearedRotationHandling → Local HandlingDb (HandlingLock readers) →
      HandlingWorld readers → Prop} (hQ : ∀ r l' w', l.held ⊆ l'.held → Q r l' w') :
    inOrder readers (guardTargetRotations reader u handling) Q l w := by
  cases handling with
  | transfer v =>
    change inOrder readers (validateTransferTarget reader v u >>= _) _ _ _
    rw [inOrder_bind, validateTransferTarget]
    split_ifs with hself
    · exact hQ _ _ _ Set.Subset.rfl
    · rw [inOrder_bind]
      refine inOrder_selectForShare reader hclean (.inr (hheir v rfl hself))
        fun m l' w' h => ?_
      change inOrder readers (if m.any OrgMember.isEligible = true then _ else _) _ _ _
      split_ifs
      · exact inOrder_of_asks (asks_enforce _ _) fun r l'' w'' hsub =>
          hQ r l'' w'' (h.later.held.trans hsub)
      · exact hQ _ _ _ h.later.held
  | block => exact inOrder_of_asks (asks_enforce u .block) hQ
  | abandon => exact inOrder_of_asks (asks_enforce u .abandon) hQ

/-- The rule for the update of the membership. -/
lemma inOrder_leaveMembership (leave : Leave)
    (hlock : ∀ h, HandlingLock.member u h ∈ l.held)
    {Q : Unit → Local HandlingDb (HandlingLock readers) → HandlingWorld readers → Prop}
    (hQ : ∀ a l' w', Q a l' w') : inOrder readers (leaveMembership leave u) Q l w := by
  have hasks : (leaveMembership leave u : HandlingProg readers Unit).Asks
      {k | ∃ h, k = .member u h} := by
    cases leave with
    | deactivate => exact Prog.asks_update fun c k hk => SharedTable.mem_locksOf hk
    | remove =>
      refine Prog.asks_bind (Prog.asks_update fun c k hk => nomatch hk) fun _ => ?_
      exact Prog.asks_update fun c k hk => SharedTable.mem_locksOf hk
  refine ends_of_asks hasks ?_ fun a l' w' _ => hQ a l' w'
  rintro _ ⟨h, rfl⟩
  exact .inr (hlock h)

/-- What `leaveOrg` does after its lock, unless it is rejected. -/
lemma inOrder_leaveRest (leave : Leave) (reader : Fin readers) (handling : RotationHandling)
    (hclean : l.Clean) (hheir : ∀ v, handling = .transfer v → v ≠ u → Asked v {some reader} l w)
    (hlock : ∀ h, HandlingLock.member u h ∈ l.held) (r : Option HandlingAnswer) :
    inOrder readers (match r with
      | some answer => reject answer
      | none => do
          match ← guardTargetRotations reader u handling with
          | .error answer => reject answer
          | .ok cleared => do
              leaveMembership leave u
              audited (.left leave u handling cleared)) (fun _ _ _ => True) l w := by
  cases r with
  | some answer => exact inOrder_reject _
  | none =>
    dsimp only
    rw [inOrder_bind]
    refine inOrder_guard reader handling hclean hheir fun r l₂ w₂ hsub => ?_
    cases r with
    | error answer => exact inOrder_reject _
    | ok cleared =>
      dsimp only
      rw [inOrder_bind]
      exact inOrder_leaveMembership leave (fun h => hsub (hlock h)) fun _ _ _ => inOrder_audited _

lemma inOrder_leaveOrg (leave : Leave) (callerRole : OrgRole) (reader : Fin readers)
    (handling : RotationHandling) (t : ℕ) :
    inOrder readers (leaveOrg leave callerRole reader u handling) (fun _ _ _ => True) (.idle t)
      w := by
  rw [leaveOrg, inOrder_bind]
  refine ends_beginTx fun w _ _ => ?_
  rw [inOrder_bind]
  refine inOrder_lockTarget reader handling fun target? l₁ w₁ hclean hasked hread hheir => ?_
  cases husable : isUsableTarget callerRole target? with
  | error answer => exact inOrder_reject _
  | ok target =>
    have hsome : ∃ m, memberOf w₁.db u = some m := by
      cases hm : memberOf w₁.db u with
      | none =>
        rw [hread, hm] at husable
        cases husable
      | some m => exact ⟨m, rfl⟩
    have hlock : ∀ h, HandlingLock.member u h ∈ l₁.held := by
      intro h
      obtain ⟨m, hm⟩ := hsome
      rcases hasked with hgone | hheld
      · rw [hm] at hgone
        cases hgone
      · exact hheld h trivial
    have hrest := fun r => inOrder_leaveRest leave reader handling hclean hheir hlock r
    dsimp only
    rw [inOrder_bind]
    cases leave with
    | deactivate => exact hrest _
    | remove =>
      rw [rejectsLeave, inOrder_bind]
      refine ends_either fun b => ?_
      cases b with
      | true => exact hrest (some .refused)
      | false => exact hrest none

lemma inOrder_initiateRotation (reader : Fin readers) (credentialId : ℕ)
    (targets : Option (List String)) (t : ℕ) :
    inOrder readers (initiateRotation reader u credentialId targets) (fun _ _ _ => True) (.idle t)
      w := by
  rw [initiateRotation, inOrder_bind]
  refine ends_beginTx fun w _ _ => ?_
  rw [inOrder_bind]
  refine ends_tryLock fun w₁ _ _ => ⟨?_, ?_⟩
  · simp only [if_true]
    rw [inOrder_bind, lockActiveInitiatorMembership, inOrder_bind]
    refine inOrder_selectForShare reader (fun _ => rfl) (.inl ?_) fun m l₂ w₂ _ => ?_
    · rintro k (hk | hk) r hr
      · exact hk.elim
      · rw [List.mem_singleton.1 hk] at hr
        cases hr
    · change inOrder readers (if (m.any fun m => m.status = .active) = true then _ else _) _ _ _
      split_ifs
      · rw [inOrder_bind]
        refine inOrder_of_asks (Prog.asks_savepoint (asks_stageRotation _ _)) fun r l₃ w₃ _ => ?_
        cases r with
        | error e =>
          cases e with
          | refused => exact inOrder_commit _
          | threw => exact inOrder_rollback _
          | conflict =>
            dsimp only
            rw [inOrder_bind]
            exact inOrder_of_asks (Prog.asks_query _) fun _ _ _ _ => inOrder_commit _
        | ok n => exact inOrder_audited _
      · exact inOrder_commit _
  · simp only [Bool.false_eq_true, if_false]
    rw [inOrder_bind]
    refine inOrder_of_asks (Prog.asks_lock rfl) fun _ l₂ w₂ _ => ?_
    rw [inOrder_bind]
    exact inOrder_of_asks (Prog.asks_query _) fun _ _ _ _ => inOrder_commit _

end Order

/-- Every call waits for memberships in the order of the users. -/
theorem handlingCall_ascending (call : HandlingCall readers) (w : HandlingWorld readers) (t : ℕ) :
    inOrder readers (handlingCall call) (fun _ _ _ => True) (.idle t) w := by
  cases call with
  | leave leave callerRole reader userId handling =>
    exact inOrder_leaveOrg leave callerRole reader handling t
  | initiate reader userId credentialId targets =>
    exact inOrder_initiateRotation reader credentialId targets t

/-! ### Runs -/

/-- The rows of an organization, with unique members and rotations. -/
structure Organization where
  db : HandlingDb
  seq : ℕ
  clock : ℕ
  members : (db.members.map OrgMember.userId).Nodup
  rotations : (db.rotations.map OwnedRotation.id).Nodup
  drawn : ∀ r ∈ db.rotations, r.id < seq

variable (readers) in
/-- The database with the sessions of the rotation handling. -/
def handlingSessions (org : Organization) :
    Run.System (State HandlingDb (HandlingLock readers) HandlingAnswer)
      (Label (HandlingCall readers)) :=
  sessions handlingCall ⟨org.db, org.seq, org.clock, []⟩

/-- An owner and two admins, one of whom has a staged rotation. -/
def threeMembers : Organization where
  db :=
    { members := [⟨0, .owner, .active⟩, ⟨1, .admin, .active⟩, ⟨2, .admin, .active⟩]
      projectMembers := []
      rotations := [⟨0, 0, 2, 1, .staged, 1, some 1, none, 0⟩]
      versions := [⟨1, 0, 1, some 0, none, none⟩, ⟨2, 0, 2, none, none, none⟩]
      items := []
      dependencies := [] }
  seq := 3
  clock := 0
  members := by decide
  rotations := by decide
  drawn := by decide

/-- The deactivation of the admin with the rotation, which goes to the other. -/
def transferRun : List (Label (HandlingCall 2)) :=
  .opens 0 (.leave .deactivate .owner 0 1 (.transfer 2)) :: Label.runsFor 0 8 ++
    [.runs 0 false, .runs 0 true, .runs 0 true, .runs 0 false, .runs 0 true]

end ProjectVault.Org
