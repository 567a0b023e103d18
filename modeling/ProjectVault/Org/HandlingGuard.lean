import ProjectVault.Org.HandlingMoves

/-!
The guard of the rotation handling.
-/

namespace ProjectVault.Org

open Db Projects

variable {readers : ℕ}

/-! ### Refusals -/

section Refusals

variable {l : Local HandlingDb (HandlingLock readers)} {w : HandlingWorld readers}
variable {answer : HandlingAnswer}

/-- A transaction that ends without a change. -/
lemma HandlingMove.refusal {held : Set (HandlingLock readers)}
    {locked : HandlingLock readers → Bool} (hanswer : answer.isSuccess = false) :
    HandlingMove held w ⟨w.db, answer, w.db, locked⟩ where
  members := .refl held w.db
  rotations := .refl held w.seq w.db
  settled := by
    refine ⟨fun _ => rfl, ?_⟩
    rintro leave userId handling cleared rfl
    nomatch hanswer

/-- The rule for a refusal. -/
lemma wp_refuse (hclean : l.Clean) (hanswer : answer.isSuccess = false) :
    wp (handlingProtocol readers) (.commitTx answer) (fun _ _ _ => True) l w := by
  refine wp_commitTx fun w' locked _ _ _ => ⟨?_, trivial⟩
  rw [hclean]
  exact .refusal hanswer

lemma wp_failed (hanswer : answer.isSuccess = false) :
    wp (handlingProtocol readers) (.rollbackTx answer) (fun _ _ _ => True) l w :=
  wp_rollbackTx fun _ _ _ _ _ => ⟨.refusal hanswer, trivial⟩

lemma wp_reject (hclean : l.Clean) (hanswer : answer.isSuccess = false) :
    wp (handlingProtocol readers) (reject answer) (fun _ _ _ => True) l w := by
  rw [reject]
  split_ifs
  · exact wp_failed rfl
  · exact wp_refuse hclean hanswer

/-- The rule for the end of a handler. -/
lemma wp_audited (h : ∀ w' locked, Rely (handlingProtocol readers) l.held w w' → HandlingInv w' →
      HandlingMove l.held w' ⟨w'.db, answer, l.pending w'.db, locked⟩) :
    wp (handlingProtocol readers) (audited answer) (fun _ _ _ => True) l w := by
  rw [audited, wp_bind]
  refine wp_either fun b => ?_
  cases b with
  | true => exact wp_failed rfl
  | false => exact wp_commitTx fun w' locked hr hinv _ => ⟨h w' locked hr hinv, trivial⟩

end Refusals

/-! ### What the code asks for -/

/-- Membership locks are ranked by the user. -/
def memberRank : HandlingLock readers → Option ℕ
  | .member userId _ => some userId
  | _ => none

variable (readers) in
/-- The locks other than those of the memberships. -/
def Unranked : Set (HandlingLock readers) := {k | memberRank k = none}

section Asks

lemma asks_updateRow {Row : Type} (T : Db.Table HandlingDb (HandlingLock readers) Row) (n : ℕ)
    (cond : Ctx HandlingDb → Row → Bool) (set : Ctx HandlingDb → Row → Row)
    (hlock : memberRank (T.lock n) = none) :
    (T.updateRow n cond set : HandlingProg readers (Option Row)).Asks (Unranked readers) := by
  refine Prog.asks_update fun c k hk => ?_
  obtain ⟨_, -, rfl⟩ := Option.mem_map.1 (Option.mem_toList.1 hk)
  exact hlock

lemma asks_auditOrThrow :
    (auditOrThrow : HandlingProg readers (Except HandlingError Unit)).Asks (Unranked readers) := by
  refine Prog.asks_bind Prog.asks_either fun b => ?_
  split_ifs <;> exact Prog.asks_pure _

lemma asks_tryLockAll (ns : List ℕ) :
    (tryLockAll ns : HandlingProg readers Bool).Asks (Unranked readers) := by
  induction ns with
  | nil => exact Prog.asks_pure _
  | cons n ns ih =>
    refine Prog.asks_bind (Prog.asks_tryLock rfl) fun b => ?_
    split_ifs
    · exact ih
    · exact Prog.asks_pure _

lemma asks_abandonRotation (n : ℕ) :
    (abandonRotation n : HandlingProg readers Bool).Asks (Unranked readers) := by
  refine Prog.asks_bind (Prog.asks_bind (Prog.asks_tryLock rfl) fun b => ?_) fun r => ?_
  · split_ifs
    · exact Prog.asks_query _
    · exact Prog.asks_pure _
  · split
    · exact Prog.asks_pure _
    · refine Prog.asks_bind (asks_updateRow _ _ _ _ rfl) fun updated => ?_
      split
      · exact Prog.asks_pure _
      · refine Prog.asks_bind (Prog.asks_query _) fun now => ?_
        refine Prog.asks_bind (asks_updateRow _ _ _ _ rfl) fun _ => ?_
        exact Prog.asks_bind (asks_updateRow _ _ _ _ rfl) fun _ => Prog.asks_pure _

lemma asks_abandonAll (ns : List ℕ) :
    (abandonAll ns : HandlingProg readers (Except HandlingError Unit)).Asks (Unranked readers) := by
  induction ns with
  | nil => exact Prog.asks_pure _
  | cons n ns ih =>
    refine Prog.asks_bind (asks_abandonRotation n) fun b => ?_
    split_ifs
    · refine Prog.asks_bind asks_auditOrThrow fun r => ?_
      split
      · exact Prog.asks_pure _
      · exact ih
    · exact Prog.asks_pure _

lemma asks_auditAll (ns : List ℕ) :
    (auditAll ns : HandlingProg readers (Except HandlingError Unit)).Asks (Unranked readers) := by
  induction ns with
  | nil => exact Prog.asks_pure _
  | cons n ns ih =>
    refine Prog.asks_bind asks_auditOrThrow fun r => ?_
    split
    · exact Prog.asks_pure _
    · exact ih

lemma asks_transferAndAudit (ids : List ℕ) (u v : ℕ) :
    (transferAndAudit ids u v : HandlingProg readers (Except HandlingError Unit)).Asks
      (Unranked readers) := by
  refine Prog.asks_bind (Prog.asks_update fun c k hk => ?_) fun moved => ?_
  · obtain ⟨r, -, rfl⟩ := List.mem_map.1 hk
    rfl
  · split_ifs
    · exact Prog.asks_pure _
    · exact asks_auditAll ids

lemma asks_runInSavepoint {work : HandlingProg readers (Except HandlingError Unit)}
    (h : work.Asks (Unranked readers)) (n : ℕ) (cleared : ClearedRotationHandling) :
    (runInSavepoint work n cleared).Asks (Unranked readers) := by
  refine Prog.asks_bind (Prog.asks_savepoint h) fun r => ?_
  split <;> exact Prog.asks_pure _

lemma asks_enforce (u : ℕ) (handling : RotationHandling) :
    (enforceRotationHandling u handling : HandlingProg readers
      (Except HandlingAnswer ClearedRotationHandling)).Asks (Unranked readers) := by
  refine Prog.asks_bind (Prog.asks_query _) fun rows => ?_
  cases handling with
  | transfer v =>
    change (transferRotations rows u v).Asks _
    rw [transferRotations]
    split_ifs
    · exact Prog.asks_pure _
    · split
      · exact Prog.asks_pure _
      · refine Prog.asks_bind (asks_tryLockAll _) fun b => ?_
        split_ifs
        · exact asks_runInSavepoint (asks_transferAndAudit _ _ _) _ _
        · exact Prog.asks_pure _
  | block =>
    dsimp only
    split_ifs <;> exact Prog.asks_pure _
  | abandon =>
    dsimp only
    split_ifs
    · exact Prog.asks_pure _
    · rw [abandonRotations]
      split
      · exact Prog.asks_pure _
      · refine Prog.asks_bind (asks_tryLockAll _) fun b => ?_
        split_ifs
        · exact asks_runInSavepoint (asks_abandonAll _) _ _
        · exact Prog.asks_pure _

end Asks

/-! ### The guard -/

/-- A locked member who may take rotations over. -/
def Heir (toUserId : ℕ) (l : Local HandlingDb (HandlingLock readers)) (w : HandlingWorld readers) :
    Prop :=
  ∃ h m, (memberTable readers).Held {some h} toUserId m l w ∧ m.isEligible = true

/-- A transaction that has locked its target and checked the heir. -/
structure Guarded (userId : ℕ) (handling : RotationHandling)
    (l : Local HandlingDb (HandlingLock readers)) (w : HandlingWorld readers) : Prop where
  clean : l.Clean
  lock : ∀ h, HandlingLock.member userId h ∈ l.held
  heir : ∀ toUserId, handling = .transfer toUserId → toUserId ≠ userId ∧ Heir toUserId l w

/-- What a passed guard comes to, whenever the transaction goes on. -/
structure Passed (userId : ℕ) (handling : RotationHandling) (cleared : ClearedRotationHandling)
    (held : Set (HandlingLock readers)) (seq : ℕ) (before after : HandlingDb) : Prop where
  move : RotationMove held seq before after
  none : handling ≠ .abandon → ∀ n, ¬ Owns after userId n
  transferred : ∀ toUserId, handling = .transfer toUserId → toUserId ≠ userId ∧
    Transferred before after toUserId cleared.transferredRotationIds

/-- A transaction that has passed its guard. -/
structure Ready (userId : ℕ) (handling : RotationHandling) (cleared : ClearedRotationHandling)
    (l : Local HandlingDb (HandlingLock readers)) (w : HandlingWorld readers) : Prop where
  lock : ∀ h, HandlingLock.member userId h ∈ l.held
  members : ∀ d, (l.pending d).members = d.members
  passed : ∀ w', Rely (handlingProtocol readers) l.held w w' → HandlingInv w' →
    Passed userId handling cleared l.held w'.seq w'.db (l.pending w'.db)

section Guard

variable {l l' : Local HandlingDb (HandlingLock readers)} {w w' : HandlingWorld readers} {u : ℕ}
  {handling : RotationHandling}
variable {ids : List ℕ} {v : ℕ}

lemma Heir.later (h : Heir v l w) (hl : Later (handlingProtocol readers) l w l' w') :
    Heir v l' w' := by
  obtain ⟨r, m, hheld, heligible⟩ := h
  exact ⟨r, m, hheld.later memberTable_stable ⟨_, rfl⟩ hl, heligible⟩

lemma Guarded.later (h : Guarded u handling l w)
    (hl : Later (handlingProtocol readers) l w l' w') (hclean : l'.Clean) :
    Guarded u handling l' w' :=
  ⟨hclean, fun r => hl.held (h.lock r), fun v hv => (h.heir v hv).imp_right fun hh => hh.later hl⟩

/-- What the heir is in the rows. -/
lemma Heir.member (h : Heir v l w) :
    (∃ m, memberOf w.db v = some m ∧ m.isEligible = true) ∧
      (∃ r, HandlingLock.member v r ∈ l.held) ∧ isActiveMember w.db v = true := by
  obtain ⟨r, m, hheld, heligible⟩ := h
  have hfind : memberOf w.db v = some m := hheld.find
  refine ⟨⟨m, hfind, heligible⟩, ⟨_, hheld.lock _ rfl⟩, ?_⟩
  rw [isActiveMember, hfind]
  exact (Bool.and_eq_true_iff.1 heligible).1

/-- Later the transaction is as ready. -/
lemma Ready.rely {cleared : ClearedRotationHandling} (h : Ready u handling cleared l w)
    (hr : Rely (handlingProtocol readers) l.held w w') : Ready u handling cleared l w' :=
  ⟨h.lock, h.members, fun w'' hr' => h.passed w'' (hr.trans hr')⟩

/-- The rotations of the target that a query has found. -/
structure Found (userId : ℕ) (rows : List OwnedRotation) (w : HandlingWorld readers) : Prop where
  complete : ∀ n, Owns w.db userId n → n ∈ rows.map OwnedRotation.id
  nodup : (rows.map OwnedRotation.id).Nodup

lemma Found.rely {rows : List OwnedRotation} (h : Found u rows w)
    (hu : ∀ r, HandlingLock.member u r ∈ l.held)
    (hr : Rely (handlingProtocol readers) l.held w w') : Found u rows w' :=
  ⟨fun n hn => h.complete n (owns_of_rely hr hu hn), h.nodup⟩

/-- Nothing to do: the target owns no blocking rotation. -/
lemma Guarded.ready_of_none (h : Guarded u handling l w) (hnone : ∀ n, ¬ Owns w.db u n) :
    Ready u handling ⟨[], [], []⟩ l w := by
  refine ⟨h.lock, fun d => by rw [h.clean], fun w' hr _ => ?_⟩
  have h' := h.later ⟨Set.Subset.rfl, hr⟩ h.clean
  rw [h.clean]
  refine ⟨.refl _ _ _, fun _ n hn => hnone n (owns_of_rely hr h.lock hn), fun v hv => ?_⟩
  obtain ⟨hne, hheir⟩ := h'.heir v hv
  exact ⟨hne, hheir.member.1, nofun, fun r hr => .inl hr⟩

/-! ### Moving rotations -/

/-- The rotations of a list of ids under a new owner. -/
def handOver (ids : List ℕ) (toUserId : ℕ) (d : HandlingDb) : HandlingDb :=
  { d with
    rotations := updateWhere (fun r => r.id ∈ ids) (fun r => { r with ownerUserId := some toUserId })
      d.rotations }

lemma rotationOf_handOver (ids : List ℕ) (v n : ℕ) (d : HandlingDb) :
    rotationOf (handOver ids v d) n = (rotationOf d n).map fun r =>
      if n ∈ ids then { r with ownerUserId := some v } else r := by
  have h := find_updateWhere OwnedRotation.id
    (f := fun r => { r with ownerUserId := some v }) (fun _ => rfl) (fun n => n ∈ ids) n d.rotations
  simp only [decide_eq_true_eq] at h
  exact h

lemma mem_handOver {d : HandlingDb} {r : OwnedRotation} (hr : r ∈ (handOver ids v d).rotations) :
    (r.id ∈ ids ∧ r.effectiveOwner = some v) ∨ r ∈ d.rotations ∧ r.id ∉ ids := by
  obtain ⟨r₀, hr₀, heq⟩ := mem_updateWhere.1 hr
  split_ifs at heq with hid
  · rw [← heq]
    exact .inl ⟨of_decide_eq_true hid, rfl⟩
  · subst heq
    exact .inr ⟨hr₀, fun hmem => hid (decide_eq_true hmem)⟩

/-- A transaction that has moved the rotations of the target. -/
structure Moved (userId toUserId : ℕ) (ids : List ℕ)
    (l : Local HandlingDb (HandlingLock readers)) (w : HandlingWorld readers) : Prop where
  lock : ∀ h, HandlingLock.member userId h ∈ l.held
  ne : toUserId ≠ userId
  heir : Heir toUserId l w
  pending : ∀ d, l.pending d = handOver ids toUserId d
  complete : ∀ n, Owns w.db userId n → n ∈ ids
  rows : ∀ n ∈ ids, ∃ r, (rotationTable readers).Held n r l w

lemma Moved.rely (h : Moved u v ids l w) (hr : Rely (handlingProtocol readers) l.held w w') :
    Moved u v ids l w' where
  lock := h.lock
  ne := h.ne
  heir := h.heir.later ⟨Set.Subset.rfl, hr⟩
  pending := h.pending
  complete n hn := h.complete n (owns_of_rely hr h.lock hn)
  rows n hn := by
    obtain ⟨r, hheld⟩ := h.rows n hn
    exact ⟨r, hheld.rely rotationTable_stable hr⟩

lemma Moved.ready {transferred : List ℕ} (h : Moved u v ids l w) (hids : ∀ n ∈ transferred, n ∈ ids)
    : Ready u (.transfer v) ⟨[], [], transferred⟩ l w := by
  refine ⟨h.lock, fun d => by rw [h.pending]; rfl, fun w' hr _ => ?_⟩
  have h' := h.rely hr
  obtain ⟨hmember, hlock, hactive⟩ := h'.heir.member
  rw [h.pending]
  refine ⟨⟨.inl ?_, fun n hn => ?_, fun u' n hn => ?_⟩, fun _ n hn => ?_, ?_⟩
  · exact map_updateWhere _ fun _ _ _ => rfl
  · have hnot : n ∉ ids := fun hmem => by
      obtain ⟨r, hheld⟩ := h'.rows n hmem
      exact hn hheld.lock
    rw [rotationOf_handOver]
    simp [hnot]
  · obtain ⟨r, hmem, rfl, hblocks⟩ := hn
    rcases mem_handOver hmem with ⟨-, howner⟩ | ⟨hold, -⟩
    · have hsome := of_decide_eq_true (Bool.and_eq_true_iff.1 hblocks).1
      obtain rfl : v = u' := Option.some.inj (howner.symm.trans hsome)
      exact .inr ⟨hlock, hactive⟩
    · exact .inl ⟨r, hold, rfl, hblocks⟩
  · obtain ⟨r, hmem, rfl, hblocks⟩ := hn
    rcases mem_handOver hmem with ⟨-, howner⟩ | ⟨hold, hnot⟩
    · have hsome := of_decide_eq_true (Bool.and_eq_true_iff.1 hblocks).1
      exact h.ne (Option.some.inj (howner.symm.trans hsome))
    · exact hnot (h'.complete _ ⟨r, hold, rfl, hblocks⟩)
  · rintro toUserId hto
    cases hto
    refine ⟨h.ne, hmember, fun n hn => ?_, fun r hr => ?_⟩
    · obtain ⟨r, hheld⟩ := h'.rows n (hids n hn)
      have hfind : rotationOf w'.db n = some r := hheld.find
      refine ⟨{ r with ownerUserId := some v }, ?_, rfl⟩
      rw [rotationOf_handOver, hfind, Option.map_some, if_pos (hids n hn)]
    · exact (mem_handOver hr).symm.imp And.left And.right

/-! ### Abandoning rotations -/

/-- A transaction that has given up rotations. -/
structure Tame (l : Local HandlingDb (HandlingLock readers)) : Prop where
  members : ∀ d, (l.pending d).members = d.members
  ids : ∀ d, (l.pending d).rotations.map OwnedRotation.id = d.rotations.map OwnedRotation.id
  frame : ∀ d n, HandlingLock.rotation n ∉ l.held → rotationOf (l.pending d) n = rotationOf d n
  owned : ∀ d u n, Owns (l.pending d) u n → Owns d u n

lemma tame_of_clean (h : l.Clean) : Tame l :=
  ⟨fun d => by rw [h], fun d => by rw [h], fun d _ _ => by rw [h], fun d _ _ hn => by rwa [h] at hn⟩

/-- A statement on another table. -/
lemma Tame.wrote (h : Tame l) (keys : List (HandlingLock readers))
    {writes : HandlingDb → HandlingDb} (hmembers : ∀ d, (writes d).members = d.members)
    (hrotations : ∀ d, (writes d).rotations = d.rotations) : Tame (l.wrote keys writes) where
  members d := (hmembers _).trans (h.members d)
  ids d := (congrArg (List.map OwnedRotation.id) (hrotations (l.pending d))).trans (h.ids d)
  frame d n hn := by
    have hsame : rotationOf (writes (l.pending d)) n = rotationOf (l.pending d) n := by
      rw [rotationOf, hrotations, rotationOf]
    exact hsame.trans (h.frame d n fun hmem => hn (l.held_wrote _ _ hmem))
  owned d u n hn := h.owned d u n (by
    obtain ⟨r, hr, hid⟩ := hn
    exact ⟨r, hrotations (l.pending d) ▸ hr, hid⟩)

/-- A rotation that is given up blocks nothing. -/
lemma Tame.abandon (h : Tame l) (n : ℕ) {set : OwnedRotation → OwnedRotation}
    (hid : ∀ r, (set r).id = r.id) (hset : ∀ r u, (set r).blocks u = false) :
    Tame (l.wrote [.rotation n]
      ((rotationTable readers).modify (updateWhere (fun r => r.id = n) set))) where
  members d := h.members d
  ids d := (map_updateWhere _ fun r _ _ => hid r).trans (h.ids d)
  frame d m hm := by
    have hne : m ≠ n := by
      rintro rfl
      exact hm (.inr (List.mem_singleton.2 rfl))
    refine (find_updateWhere_of_ne hid hne _).trans ?_
    exact h.frame d m fun hmem => hm (l.held_wrote _ _ hmem)
  owned d u m hm := by
    obtain ⟨r, hr, hrid, hblocks⟩ := hm
    obtain ⟨r₀, hr₀, rfl⟩ := mem_updateWhere.1 hr
    split_ifs at hrid hblocks
    · rw [hset] at hblocks
      nomatch hblocks
    · exact h.owned d u m ⟨r₀, hr₀, hrid, hblocks⟩

/-- The rotations that were given up are ready. -/
lemma Tame.ready (h : Tame l) (hu : ∀ r, HandlingLock.member u r ∈ l.held)
    (cleared : ClearedRotationHandling) : Ready u .abandon cleared l w where
  lock := hu
  members := h.members
  passed _ _ _ := ⟨⟨.inl (h.ids _), h.frame _, fun u n hn => .inl (h.owned _ u n hn)⟩,
    fun hne => (hne rfl).elim, nofun⟩

/-- The rule for `abandonRotation`. -/
lemma wp_abandonRotation (hl : Tame l) (n : ℕ)
    {Q : Bool → Local HandlingDb (HandlingLock readers) → HandlingWorld readers → Prop}
    (hQ : ∀ b l' w', Tame l' → l.held ⊆ l'.held → Q b l' w') :
    wp (handlingProtocol readers) (abandonRotation n) Q l w := by
  rw [abandonRotation, wp_bind, acquireAndLoadAbandonableRotation, wp_bind]
  refine wp_tryLock fun w₁ _ _ => ⟨?_, hQ _ _ _ hl Set.Subset.rfl⟩
  have hl₁ : Tame (l.wrote [.rotationScope n] id) := hl.wrote _ (fun _ => rfl) fun _ => rfl
  have hsub₁ := l.held_wrote [.rotationScope n] id
  refine wp_query fun w₂ _ _ => ?_
  split
  · exact hQ _ _ _ hl₁ hsub₁
  · next rotation _ =>
    rw [wp_bind, abandonStatus]
    refine Table.wp_updateRow ?_ ?_
    · exact fun w₃ _ _ _ => hQ _ _ _ hl₁ hsub₁
    · intro w₃ r _ _ _ _
      have hl₃ := @Tame.abandon readers _ hl₁ rotation.id
        (fun r => { r with status := .abandoned, version := rotation.version + 1 })
        (fun _ => rfl) fun r u => by simp [OwnedRotation.blocks, blockingRotationStatuses]
      have hsub₃ := hsub₁.trans (Local.held_wrote _ [.rotation rotation.id] ((rotationTable
        readers).modify (updateWhere (fun r => r.id = rotation.id) fun r =>
          { r with status := .abandoned, version := rotation.version + 1 })))
      dsimp only
      rw [wp_bind]
      refine wp_query fun w₄ _ _ => ?_
      have hversion : ∀ (l : Local HandlingDb (HandlingLock readers)) (w : HandlingWorld readers)
          (m : ℕ) (set : StagedVersion → StagedVersion)
          (Q : Option StagedVersion → Local HandlingDb (HandlingLock readers) →
            HandlingWorld readers → Prop), Tame l →
          (∀ v l' w', Tame l' → l.held ⊆ l'.held → Q v l' w') →
          wp (handlingProtocol readers)
            ((versionTable readers).updateRow m (fun _ _ => true) fun _ v => set v) Q l w := by
        intro l w m set Q hl hQ
        refine Table.wp_updateRow (fun _ _ _ _ => hQ _ _ _ hl Set.Subset.rfl) ?_
        intro w' v _ _ _ _
        exact hQ _ _ _ (hl.wrote _ (fun _ => rfl) fun _ => rfl) (l.held_wrote _ _)
      rw [wp_bind]
      refine hversion _ _ _ _ _ hl₃ fun _ l₅ w₅ hl₅ hsub₅ => ?_
      rw [wp_bind]
      refine hversion _ _ _ _ _ hl₅ fun _ l₆ w₆ hl₆ hsub₆ => ?_
      exact hQ _ _ _ hl₆ ((hsub₃.trans hsub₅).trans hsub₆)

/-- The rule for `abandonAndAudit`. -/
lemma wp_abandonAll (ns : List ℕ) (hl : Tame l)
    {Q : Except HandlingError Unit → Local HandlingDb (HandlingLock readers) →
      HandlingWorld readers → Prop}
    (hQ : ∀ r l' w', Tame l' → l.held ⊆ l'.held → Q r l' w') :
    wp (handlingProtocol readers) (abandonAll ns) Q l w := by
  induction ns generalizing l w with
  | nil => exact hQ _ _ _ hl Set.Subset.rfl
  | cons n ns ih =>
    rw [abandonAll, wp_bind]
    refine wp_abandonRotation hl n fun b l₁ w₁ hl₁ hsub => ?_
    split_ifs
    · rw [wp_bind, auditOrThrow, wp_bind]
      refine wp_either fun b => ?_
      cases b with
      | true => exact hQ _ _ _ hl₁ hsub
      | false => exact ih hl₁ fun r l' w' hl' hsub' => hQ r l' w' hl' (hsub.trans hsub')
    · exact hQ _ _ _ hl₁ hsub

/-! ### The rules of the guard -/

/-- What the guard leaves. -/
def GuardPost (userId : ℕ) (handling : RotationHandling) :
    Except HandlingAnswer ClearedRotationHandling → Local HandlingDb (HandlingLock readers) →
      HandlingWorld readers → Prop
  | .error answer => fun l _ => answer.isSuccess = false ∧ l.Clean
  | .ok cleared => Ready userId handling cleared

/-- The rule for `findBlockingRotationsForUser`. -/
lemma wp_findBlocking (h : Guarded u handling l w)
    {Q : List OwnedRotation → Local HandlingDb (HandlingLock readers) →
      HandlingWorld readers → Prop}
    (hQ : ∀ rows w', Guarded u handling l w' → Found u rows w' → Q rows l w') :
    wp (handlingProtocol readers) (findBlockingRotationsForUser u) Q l w := by
  refine wp_query fun w' hr hinv => ?_
  have hview : (l.ctx w').view = w'.db := h.clean _
  refine hQ _ _ (h.later (.stmt hr Set.Subset.rfl) h.clean) ⟨?_, ?_⟩
  · rintro n ⟨r, hmem, rfl, hblocks⟩
    refine List.mem_map_of_mem ((mem_sortAsc _).2 (List.mem_filter.2 ⟨?_, hblocks⟩))
    rwa [hview]
  · have hperm := perm_sortAsc (fun r : OwnedRotation => toLex (r.initiatedAt, r.id))
      ((l.ctx w').view.rotations.filter fun r => r.blocks u)
    rw [(hperm.map OwnedRotation.id).nodup_iff, hview]
    exact hinv.keyed.nodup.sublist (List.filter_sublist.map _)

/-- The rule for `tryLockAll`. -/
lemma wp_tryLockAll (ns : List ℕ) (hclean : l.Clean)
    {Q : Bool → Local HandlingDb (HandlingLock readers) → HandlingWorld readers → Prop}
    (hQ : ∀ b l' w', l'.Clean → Later (handlingProtocol readers) l w l' w' → Q b l' w') :
    wp (handlingProtocol readers) (tryLockAll ns) Q l w := by
  induction ns generalizing l w with
  | nil => exact hQ _ _ _ hclean (.refl l w)
  | cons n ns ih =>
    rw [tryLockAll, wp_bind]
    refine wp_tryLock fun w' hr _ => ⟨?_, hQ _ _ _ hclean (.stmt hr Set.Subset.rfl)⟩
    have hl : Later (handlingProtocol readers) l w (l.wrote [.rotationScope n] id) w'.bump :=
      .stmt hr (l.held_wrote _ _)
    exact ih (fun d => hclean d) fun b l' w'' hclean' hl' => hQ b l' w'' hclean' (hl.trans hl')

/-- The rule for the savepoint of the guard. -/
lemma wp_runInSavepoint {A : Set (HandlingLock readers)}
    {work : HandlingProg readers (Except HandlingError Unit)} (hasks : work.Asks A)
    (hclean : l.Clean) (rotationCount : ℕ) {cleared : ClearedRotationHandling}
    (h : wp (handlingProtocol readers) work
      (fun r l' w' => r = .ok () → Ready u handling cleared l' w') l w) :
    wp (handlingProtocol readers) (runInSavepoint work rotationCount cleared) (GuardPost u handling)
      l w := by
  rw [runInSavepoint, wp_bind]
  refine wp_savepoint hasks (h.mono fun r l' w' hready => ?_)
  cases r with
  | error e =>
    cases e with
    | conflict => exact ⟨rfl, hclean⟩
    | threw => exact ⟨rfl, hclean⟩
  | ok _ =>
    intro w'' hr _
    exact (hready rfl).rely (hr.trans (World.bump_rely w''))

lemma wp_auditAll (ns : List ℕ) {Q : Except HandlingError Unit → Local HandlingDb (HandlingLock
    readers) → HandlingWorld readers → Prop} (hQ : ∀ r, Q r l w) :
    wp (handlingProtocol readers) (auditAll ns) Q l w := by
  induction ns with
  | nil => exact hQ _
  | cons n ns ih =>
    rw [auditAll, wp_bind, auditOrThrow, wp_bind]
    refine wp_either fun b => ?_
    cases b with
    | true => exact hQ _
    | false => exact ih

/-- Every id of a list is in a part of it that is as long. -/
lemma mem_of_length_eq {part : List ℕ} (hpart : part.Nodup) (hsub : part ⊆ ids)
    (hlength : part.length = ids.length) {n : ℕ} (hn : n ∈ ids) : n ∈ part :=
  ((hpart.subperm hsub).perm_of_length_le hlength.ge).mem_iff.2 hn

/-- The rule for `transferAndAudit`. -/
lemma wp_transferAndAudit {rows : List OwnedRotation} (h : Guarded u (.transfer v) l w)
    (hfound : Found u rows w) :
    wp (handlingProtocol readers) (transferAndAudit (rows.map OwnedRotation.id) u v)
      (fun r l' w' => r = .ok () →
        Ready u (.transfer v) ⟨[], [], rows.map OwnedRotation.id⟩ l' w') l w := by
  rw [transferAndAudit, wp_bind, moveRotations]
  refine wp_update fun w' hr hinv => ?_
  have hview : (l.ctx w').view = w'.db := h.clean _
  rw [hview]
  have hfound' := hfound.rely h.lock hr
  have hnodup : ((movedRotations w'.db (rows.map OwnedRotation.id) u).map OwnedRotation.id).Nodup :=
    hinv.keyed.nodup.sublist (List.filter_sublist.map _)
  have hmoved : ∀ n ∈ (movedRotations w'.db (rows.map OwnedRotation.id) u).map OwnedRotation.id,
      n ∈ rows.map OwnedRotation.id := by
    intro n hn
    obtain ⟨r, hr, rfl⟩ := List.mem_map.1 hn
    exact of_decide_eq_true (Bool.and_eq_true_iff.1 (List.mem_filter.1 hr).2).1
  split_ifs with hlength
  · exact nofun
  · refine wp_auditAll _ fun r _ => ?_
    obtain ⟨hne, hheir⟩ := h.heir v rfl
    refine Moved.ready ⟨fun m => l.held_wrote _ _ (h.lock m), hne,
      hheir.later (.stmt hr (l.held_wrote _ _)), fun d => ?_, fun n hn => ?_, fun n hn => ?_⟩
      fun n hn => mem_of_length_eq hnodup hmoved (not_ne_iff.1 hlength) hn
    · exact congrArg (handOver _ v) (h.clean d)
    · have hid := hfound'.complete n hn
      obtain ⟨r, hmem, rfl, hblocks⟩ := hn
      exact List.mem_map_of_mem (List.mem_filter.2 ⟨hmem, by rw [decide_eq_true hid, hblocks]; rfl⟩)
    · obtain ⟨r, hmem, rfl⟩ := List.mem_map.1 hn
      refine ⟨r, .inr (List.mem_map.2 ⟨r, hmem, rfl⟩), ?_⟩
      exact Table.find_of_mem hinv.keyed.nodup (List.mem_of_mem_filter hmem)

/-- The rule for `enforceRotationHandling`. -/
lemma wp_enforce (h : Guarded u handling l w) :
    wp (handlingProtocol readers) (enforceRotationHandling u handling) (GuardPost u handling) l w := by
  rw [enforceRotationHandling, wp_bind]
  refine wp_findBlocking h fun rows w₁ h₁ hfound => ?_
  have hready : rows = [] → Ready u handling ⟨[], [], []⟩ l w₁ := by
    rintro rfl
    exact h₁.ready_of_none fun n hn => List.not_mem_nil (hfound.complete n hn)
  cases handling with
  | transfer v =>
    change wp _ (transferRotations rows u v) _ _ _
    rw [transferRotations]
    split_ifs with hrows
    · exact hready hrows
    · split
      · exact ⟨rfl, h₁.clean⟩
      · next transferable htransferable =>
        rw [assertTransferableRotations] at htransferable
        split_ifs at htransferable
        cases htransferable
        dsimp only
        rw [wp_bind]
        refine wp_tryLockAll _ h₁.clean fun b l₂ w₂ hclean hl => ?_
        split_ifs
        · refine wp_runInSavepoint (asks_transferAndAudit _ _ _) hclean _ ?_
          exact wp_transferAndAudit (h₁.later hl hclean) (hfound.rely h₁.lock hl.rely)
        · exact ⟨rfl, hclean⟩
  | block =>
    dsimp only
    split_ifs with hrows
    · exact hready hrows
    · exact ⟨rfl, h₁.clean⟩
  | abandon =>
    dsimp only
    split_ifs with hrows
    · exact hready hrows
    · rw [abandonRotations]
      split
      · exact ⟨rfl, h₁.clean⟩
      · dsimp only
        rw [wp_bind]
        refine wp_tryLockAll _ h₁.clean fun b l₂ w₂ hclean hl => ?_
        have hlock := (h₁.later hl hclean).lock
        split_ifs
        · refine wp_runInSavepoint (asks_abandonAll _) hclean _ ?_
          refine wp_abandonAll _ (tame_of_clean hclean) fun r l₃ w₃ htame hsub _ => ?_
          exact htame.ready (fun m => hsub (hlock m)) _
        · exact ⟨rfl, hclean⟩

/-- The rule for `guardTargetRotations`. -/
lemma wp_guard (reader : Fin readers) (hclean : l.Clean)
    (hlock : ∀ r, HandlingLock.member u r ∈ l.held) :
    wp (handlingProtocol readers) (guardTargetRotations reader u handling) (GuardPost u handling)
      l w := by
  cases handling with
  | transfer v =>
    change wp _ (validateTransferTarget reader v u >>= _) _ _ _
    rw [wp_bind, validateTransferTarget]
    split_ifs with hself
    · exact ⟨rfl, hclean⟩
    · rw [wp_bind]
      refine SharedTable.wp_selectForShare hclean (fun w' _ => ⟨rfl, hclean⟩) ?_
      intro m l' w' hclean' hl hheld
      change wp _ (if m.isEligible = true then _ else _) _ _ _
      split_ifs with heligible
      · refine wp_enforce ⟨hclean', fun r => hl.held (hlock r), ?_⟩
        rintro toUserId hto
        cases hto
        exact ⟨hself, reader, m, hheld, heligible⟩
      · exact ⟨rfl, hclean'⟩
  | block =>
    have h : Guarded u .block l w := ⟨hclean, hlock, fun _ h => nomatch h⟩
    exact wp_enforce h
  | abandon =>
    have h : Guarded u .abandon l w := ⟨hclean, hlock, fun _ h => nomatch h⟩
    exact wp_enforce h

end Guard

end ProjectVault.Org
