import ProjectVault.Org.RotationHandling

/-!
What the transactions of the rotation handling do.
-/

namespace ProjectVault.Org

open Db Projects

variable {readers : ℕ}

variable (readers) in
/-- The committed rows with what has been answered. -/
abbrev HandlingWorld := World HandlingDb (HandlingLock readers) HandlingAnswer

variable (readers) in
/-- The end of a transaction. -/
abbrev HandlingEnd := Event HandlingDb (HandlingLock readers) HandlingAnswer

/-! ### The rows -/

/-- The membership of a user. -/
def memberOf (d : HandlingDb) (userId : ℕ) : Option OrgMember :=
  d.members.find? fun m => m.userId = userId

/-- The row of a rotation. -/
def rotationOf (d : HandlingDb) (n : ℕ) : Option OwnedRotation :=
  d.rotations.find? fun r => r.id = n

/-- A member who is active. -/
def isActiveMember (d : HandlingDb) (userId : ℕ) : Bool :=
  (memberOf d userId).any fun m => m.status = .active

/-- The user effectively owns the rotation, which has a blocking status. -/
def Owns (d : HandlingDb) (userId n : ℕ) : Prop :=
  ∃ r ∈ d.rotations, r.id = n ∧ r.blocks userId = true

/-- What has been transferred belongs to an active member with an eligible role. -/
structure Transferred (before after : HandlingDb) (toUserId : ℕ) (ids : List ℕ) : Prop where
  eligible : ∃ m, memberOf after toUserId = some m ∧ m.isEligible = true
  reported : ∀ n ∈ ids, ∃ r, rotationOf after n = some r ∧ r.effectiveOwner = some toUserId
  changed : ∀ r ∈ after.rotations, r ∈ before.rotations ∨ r.effectiveOwner = some toUserId

/-- An answer after which something has changed. -/
def HandlingAnswer.isSuccess : HandlingAnswer → Bool
  | .left _ _ _ _ | .initiated _ => true
  | _ => false

/-- What the answer of a transaction says: a refusal changes nothing; a user who leaves is no active
member and, unless the handling is `abandon`, owns no blocking rotation; what has been transferred
belongs to an eligible member. -/
structure Settled (ev : HandlingEnd readers) : Prop where
  refused : ev.answer.isSuccess = false → ev.after = ev.before
  left : ∀ leave userId handling cleared, ev.answer = .left leave userId handling cleared →
    isActiveMember ev.after userId = false ∧
      (handling ≠ .abandon → ∀ n, ¬ Owns ev.after userId n) ∧
      ∀ toUserId, handling = .transfer toUserId →
        Transferred ev.before ev.after toUserId cleared.transferredRotationIds

/-! ### The end of a transaction -/

/-- What may happen to the memberships. -/
structure MemberMove (held : Set (HandlingLock readers)) (before after : HandlingDb) : Prop where
  frame : ∀ u h, HandlingLock.member u h ∉ held → memberOf after u = memberOf before u
  gone : ∀ u, memberOf before u = none → memberOf after u = none
  inactive : ∀ u, isActiveMember before u = false → isActiveMember after u = false

/-- What may happen to the rotations. -/
structure RotationMove (held : Set (HandlingLock readers)) (seq : ℕ) (before after : HandlingDb) :
    Prop where
  ids : after.rotations.map OwnedRotation.id = before.rotations.map OwnedRotation.id ∨
    ∃ n, after.rotations.map OwnedRotation.id = before.rotations.map OwnedRotation.id ++ [n] ∧
      rotationOf before n = none ∧ n < seq
  frame : ∀ n, HandlingLock.rotation n ∉ held → rotationOf after n = rotationOf before n
  owned : ∀ u n, Owns after u n → Owns before u n ∨
    (∃ h, HandlingLock.member u h ∈ held) ∧ isActiveMember before u = true

/-- What the end of a transaction may do. -/
structure HandlingMove (held : Set (HandlingLock readers)) (w : HandlingWorld readers)
    (ev : HandlingEnd readers) : Prop where
  members : MemberMove held ev.before ev.after
  rotations : RotationMove held w.seq ev.before ev.after
  settled : Settled ev

/-- What holds of the committed rows and of the log. -/
structure HandlingInv (w : HandlingWorld readers) : Prop where
  keyed : (rotationTable readers).Keyed w
  settled : ∀ ev ∈ w.log, Settled ev

lemma MemberMove.refl (held : Set (HandlingLock readers)) (d : HandlingDb) : MemberMove held d d :=
  ⟨fun _ _ _ => rfl, fun _ h => h, fun _ h => h⟩

lemma RotationMove.refl (held : Set (HandlingLock readers)) (seq : ℕ) (d : HandlingDb) :
    RotationMove held seq d d :=
  ⟨.inl rfl, fun _ _ => rfl, fun _ _ h => .inl h⟩

/-- Only the rotations matter, and more locks allow more. -/
lemma RotationMove.mono {held held' : Set (HandlingLock readers)} {seq : ℕ}
    {before after after' : HandlingDb} (h : RotationMove held seq before after)
    (hsub : held ⊆ held') (hafter : after'.rotations = after.rotations) :
    RotationMove held' seq before after' := by
  have hrotation : ∀ n, rotationOf after' n = rotationOf after n := fun n => by
    rw [rotationOf, hafter, rotationOf]
  refine ⟨hafter ▸ h.ids, fun n hn => ?_, fun u n hn => ?_⟩
  · exact (hrotation n).trans (h.frame n fun hmem => hn (hsub hmem))
  · rw [Owns, hafter] at hn
    refine (h.owned u n hn).imp_right fun hactive => ?_
    obtain ⟨⟨m, hm⟩, hstatus⟩ := hactive
    exact ⟨⟨m, hsub hm⟩, hstatus⟩

/-- Ids stay unique and below the sequence. -/
lemma RotationMove.keyed {held : Set (HandlingLock readers)} {w : HandlingWorld readers}
    {ev : HandlingEnd readers} (h : RotationMove held w.seq ev.before ev.after)
    (hbefore : ev.before = w.db) (hkeyed : (rotationTable readers).Keyed w) :
    (rotationTable readers).Keyed (w.ended ev) := by
  have hnodup : (ev.before.rotations.map OwnedRotation.id).Nodup := hbefore ▸ hkeyed.nodup
  have hlt : ∀ n ∈ ev.before.rotations.map OwnedRotation.id, n < w.seq :=
    hbefore ▸ List.forall_mem_map.2 hkeyed.drawn
  have hafter : (ev.after.rotations.map OwnedRotation.id).Nodup ∧
      ∀ n ∈ ev.after.rotations.map OwnedRotation.id, n < w.seq := by
    rcases h.ids with hids | ⟨n, hids, hnone, hn⟩
    · rw [hids]
      exact ⟨hnodup, hlt⟩
    · have hnew : n ∉ ev.before.rotations.map OwnedRotation.id := fun hmem => by
        obtain ⟨r, hr, hid⟩ := List.mem_map.1 hmem
        exact List.find?_eq_none.1 hnone r hr (decide_eq_true hid)
      rw [hids]
      refine ⟨hnodup.append (List.nodup_singleton n) (List.disjoint_singleton.2 hnew), ?_⟩
      rintro m hm
      rcases List.mem_append.1 hm with hold | hm
      · exact hlt m hold
      · rwa [List.mem_singleton.1 hm]
  exact ⟨hafter.1, List.forall_mem_map.1 hafter.2⟩

variable (readers) in
/-- What the sessions of the rotation handling owe each other. -/
def handlingProtocol : Protocol HandlingDb (HandlingLock readers) HandlingAnswer where
  inv := HandlingInv
  move := HandlingMove
  inv_move hinv hbefore _ hmove :=
    { keyed := hmove.rotations.keyed hbefore hinv.keyed
      settled := fun ev hev => by
        rcases List.mem_cons.1 hev with rfl | hev
        · exact hmove.settled
        · exact hinv.settled ev hev }
  inv_later hinv hseq _ := ⟨⟨hinv.keyed.nodup, fun r hr => (hinv.keyed.drawn r hr).trans_le hseq⟩,
    hinv.settled⟩

/-! ### What the others do -/

section Rely

variable {held : Set (HandlingLock readers)} {w w' : HandlingWorld readers} {u n : ℕ}

/-- A membership of which a lock is held does not change. -/
lemma memberTable_stable : (memberTable readers).Stable (handlingProtocol readers) := by
  intro held w w' n h hr hn
  refine Rely.stable (A := fun v => memberOf v.db n = memberOf w.db n) ?_ ?_ hr rfl
  · intro other v ev hdisj _ hbefore _ _ hmove hA
    exact (hmove.members.frame n h (Set.disjoint_left.1 hdisj hn)).trans (hbefore ▸ hA)
  · exact fun v m t _ _ hA => hA

/-- A locked rotation does not change. -/
lemma rotationTable_stable : (rotationTable readers).Stable (handlingProtocol readers) := by
  intro held w w' n hr hn
  refine Rely.stable (A := fun v => rotationOf v.db n = rotationOf w.db n) ?_ ?_ hr rfl
  · intro other v ev hdisj _ hbefore _ _ hmove hA
    exact (hmove.rotations.frame n (Set.disjoint_left.1 hdisj hn)).trans (hbefore ▸ hA)
  · exact fun v m t _ _ hA => hA

/-- No member is added. -/
lemma gone_of_rely (hr : Rely (handlingProtocol readers) held w w') (hu : memberOf w.db u = none) :
    memberOf w'.db u = none := by
  refine Rely.stable (A := fun v => memberOf v.db u = none) ?_ ?_ hr hu
  · exact fun other v ev _ _ hbefore _ _ hmove hA => hmove.members.gone u (hbefore ▸ hA)
  · exact fun v m t _ _ hA => hA

/-- A user whose membership is locked for update gets no blocking rotation. -/
lemma owns_of_rely (hr : Rely (handlingProtocol readers) held w w')
    (hu : ∀ h, HandlingLock.member u h ∈ held) (hn : Owns w'.db u n) : Owns w.db u n := by
  refine Rely.stable (A := fun v => Owns v.db u n → Owns w.db u n) ?_ ?_ hr (fun h => h) hn
  · intro other v ev hdisj _ hbefore _ _ hmove hA hafter
    rcases hmove.rotations.owned u n hafter with hold | ⟨⟨h, hh⟩, -⟩
    · exact hA (hbefore ▸ hold)
    · exact absurd hh (Set.disjoint_left.1 hdisj (hu h))
  · exact fun v m t _ _ hA => hA

/-- Who is no active member stays so, and gets no blocking rotation. -/
lemma inactive_of_rely (hr : Rely (handlingProtocol readers) held w w')
    (hu : isActiveMember w.db u = false) :
    isActiveMember w'.db u = false ∧ ∀ n, Owns w'.db u n → Owns w.db u n := by
  refine Rely.stable (A := fun v => isActiveMember v.db u = false ∧ ∀ n, Owns v.db u n → Owns w.db u n)
    ?_ ?_ hr ⟨hu, fun _ h => h⟩
  · intro other v ev _ _ hbefore _ _ hmove hA
    refine ⟨hmove.members.inactive u (hbefore ▸ hA.1), fun n hn => ?_⟩
    rcases hmove.rotations.owned u n hn with hold | ⟨-, hactive⟩
    · exact hA.2 n (hbefore ▸ hold)
    · rw [hbefore, hA.1] at hactive
      nomatch hactive
  · exact fun v m t _ _ hA => hA

end Rely

end ProjectVault.Org
