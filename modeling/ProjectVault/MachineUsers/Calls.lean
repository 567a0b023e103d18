import ProjectVault.MachineUsers.History

/-!
The calls of the key code keep to the protocol of the keys.
-/

namespace ProjectVault.MachineUsers

open Db

/-! ### Open transactions -/

/-- An open transaction with its edits and its new keys. -/
structure Open (script : ℕ → List KeyEdit) (new : List ApiKey) (uscript : ℕ → List ℕ)
    (l : Local KeyDb KeyLock) (w : KeyWorld) : Prop where
  history : KeyHistory w
  keys : keyEdits.Working script new l w
  users : userEdits.Working uscript [] l w

/-- No edits of keys. -/
abbrev noKeyEdits : ℕ → List KeyEdit := fun _ => []

/-- No edits of machine users. -/
abbrev noUserEdits : ℕ → List ℕ := fun _ => []

section Open

variable {script : ℕ → List KeyEdit} {new : List ApiKey} {uscript : ℕ → List ℕ}
  {l : Local KeyDb KeyLock} {w w' : KeyWorld}
variable {answer : KeyAnswer} {Q : KeyPost Unit}

/-- No statement has been run yet. -/
lemma Open.start (h : KeyHistory w) (t : ℕ) (held : Set KeyLock) :
    Open noKeyEdits [] noUserEdits ⟨t, held, id⟩ w :=
  ⟨h, .start keyEdits t held w, .start userEdits t held w⟩

lemma Open.rely (h : Open script new uscript l w) (hr : Rely keyProtocol l.held w w')
    (hinv : KeyHistory w') : Open script new uscript l w' :=
  ⟨hinv, h.keys.rely keyProtocol_keys hr, h.users.rely keyProtocol_users hr⟩

lemma Open.bump (h : Open script new uscript l w) : Open script new uscript l w.bump :=
  ⟨h.history.later (Nat.le_succ _), h.keys.bump, h.users.bump⟩

/-- The rule for a read. -/
lemma Open.wp_query {α : Type} (h : Open script new uscript l w) {f : Ctx KeyDb → α}
    {Q : KeyPost α}
    (hQ : ∀ w', Rely keyProtocol l.held w w' → Open script new uscript l w'.bump →
      Q (f (l.ctx w')) l w'.bump) : wp keyProtocol (.query f) Q l w :=
  Db.wp_query fun w' hr hinv => hQ w' hr (h.rely hr hinv).bump

/-- The rule for the end of a transaction whose new keys are accounted for. -/
lemma Open.wp_commitTx (h : Open script new uscript l w)
    (hborn : ∀ w', Rely keyProtocol l.held w w' → Born script w'.db answer new)
    (hQ : ∀ l' w', Q () l' w') :
    wp keyProtocol (.commitTx answer) Q l w := by
  refine Db.wp_commitTx fun w' locked hr hinv _ => ⟨?_, hQ _ _⟩
  have h' := h.rely hr hinv
  exact ⟨script, new, uscript, h'.keys.changed, h'.users.changed, hborn w' hr⟩

/-- The rule for a transaction that is given up. -/
lemma wp_giveUp (hQ : ∀ l' w', Q () l' w') : wp keyProtocol (.rollbackTx answer) Q l w := by
  refine Db.wp_rollbackTx fun w' locked _ _ _ => ⟨?_, hQ _ _⟩
  exact ⟨noKeyEdits, [], noUserEdits, (Edits.Working.start keyEdits 0 l.held w').changed,
    (Edits.Working.start userEdits 0 l.held w').changed, .none answer⟩

/-- The rule for the end of a handler. -/
lemma Open.wp_audited (h : Open script new uscript l w)
    (hborn : ∀ w', Rely keyProtocol l.held w w' → Born script w'.db answer new) :
    wp keyProtocol (audited answer) (fun _ _ _ => True) l w := by
  rw [audited, wp_bind]
  refine wp_either fun b => ?_
  cases b with
  | true => exact wp_giveUp fun _ _ => trivial
  | false => exact h.wp_commitTx hborn fun _ _ => trivial

lemma users_modify (f : List ApiKey → List ApiKey) (d : KeyDb) :
    userTable.rows (keyTable.modify f d) = userTable.rows d := rfl

lemma keys_modify (f : List MachineUser → List MachineUser) (d : KeyDb) :
    keyTable.rows (userTable.modify f d) = keyTable.rows d := rfl

lemma Open.wp_updateKey (h : Open script new uscript l w) {n : ℕ} (hn : n ∉ new.map ApiKey.id)
    {cond : Ctx KeyDb → ApiKey → Bool} {set : Ctx KeyDb → ApiKey → ApiKey} (e : KeyEdit)
    (hset : ∀ c k, set c k = keyEdits.apply e k)
    (hguard : ∀ w' k, Rely keyProtocol l.held w w' → keyTable.find w'.db n = some k →
      cond (l.ctx w') (keyEdits.play script k) = true →
        keyEdits.guard e (keyEdits.play script k))
    {Q : KeyPost (Option ApiKey)}
    (hnone : ∀ w', Rely keyProtocol l.held w w' → (∀ k, keyTable.find w'.db n = some k →
        cond (l.ctx w') (keyEdits.play script k) = false) → Open script new uscript l w'.bump →
      Q none l w'.bump)
    (hsome : ∀ w' k l', Later keyProtocol l w l' w' → k.id = n →
      Open (Edits.addEdit script n e) new uscript l' w' → Q (some k) l' w') :
    wp keyProtocol (keyTable.updateRow n cond set) Q l w := by
  refine h.keys.wp_updateRow keyProtocol_keys (fun _ hw => hw.keys) hn (fun _ => e) hset
    (fun w' k hr _ => hguard w' k hr) ?_ ?_
  · intro w' hr hinv _ hcond
    exact hnone _ hr hcond (h.rely hr hinv).bump
  · rintro w' k l' hr hinv hfind _ rfl hworking
    have hid : (keyEdits.apply e (keyEdits.play script k)).id = n := by
      rw [← (Table.find_eq_some hfind).2]
      exact (keyEdits.id_apply e _).trans (Edits.id_play (E := keyEdits) script k)
    refine hsome _ _ _ (Later.stmt hr (l.held_wrote _ _)) hid
      ⟨hinv.later (Nat.le_succ _), hworking, ?_⟩
    exact ((h.users.rely keyProtocol_users hr).wrote _ (users_modify _)).bump

lemma Open.wp_insertKey (h : Open script new uscript l w) {values : Ctx KeyDb → ApiKey}
    (hid : ∀ c, (values c).id = c.seq) {Q : KeyPost ApiKey}
    (hQ : ∀ w' l' c, Later keyProtocol l w l' w' →
      Open script (new ++ [values c]) uscript l' w' → Q (values c) l' w') :
    wp keyProtocol (keyTable.insertRow values) Q l w := by
  refine h.keys.wp_insertRow keyProtocol_keys (fun _ hw => hw.keys) hid ?_
  rintro w' l' hr hinv rfl hworking
  refine hQ _ _ _ (Later.stmt hr (l.held_wrote _ _)) ⟨hinv.later (Nat.le_succ _), hworking, ?_⟩
  exact ((h.users.rely keyProtocol_users hr).wrote _ (users_modify _)).bump

/-- A transaction without new keys may end as it likes. -/
lemma Open.wp_commit_nil (h : Open script [] uscript l w) (answer : KeyAnswer) :
    wp keyProtocol (.commitTx answer) (fun _ _ _ => True) l w :=
  h.wp_commitTx (fun _ _ => .none answer) fun _ _ => trivial

lemma Open.wp_audited_nil (h : Open script [] uscript l w) (answer : KeyAnswer) :
    wp keyProtocol (audited answer) (fun _ _ _ => True) l w :=
  h.wp_audited fun _ _ => .none answer

/-- A transaction begins. -/
lemma wp_begin {t : ℕ} (hQ : ∀ l w, Open noKeyEdits [] noUserEdits l w → Q () l w) :
    wp keyProtocol .beginTx Q (.idle t) w :=
  Db.wp_beginTx fun w' _ hinv => hQ _ _ (.start hinv w'.clock ∅)

end Open

/-! ### The calls -/

section Calls

variable {w : KeyWorld} {l : Local KeyDb KeyLock}
variable {old : ApiKey}

lemma wp_findMachineUserById (h : Open noKeyEdits [] noUserEdits l w) (machineUserId : ℕ)
    {Q : KeyPost (Option MachineUser)}
    (hQ : ∀ u w', Open noKeyEdits [] noUserEdits l w' → Q u l w') :
    wp keyProtocol (findMachineUserById machineUserId) Q l w := by
  rw [findMachineUserById, wp_bind]
  refine wp_either fun b => ?_
  cases b with
  | true => exact hQ _ _ h
  | false => exact h.wp_query fun w' _ h' => hQ _ _ h'

lemma wp_issueApiKey (t orgId machineUserId : ℕ) (name : String) (expiresAt : Option ℕ) :
    wp keyProtocol (issueApiKey orgId machineUserId name expiresAt) (fun _ _ _ => True) (.idle t)
      w := by
  rw [issueApiKey, wp_bind]
  refine wp_begin fun l w h => ?_
  rw [wp_bind]
  refine wp_findMachineUserById h machineUserId fun u w' h => ?_
  cases u with
  | none => exact h.wp_commit_nil _
  | some u =>
    dsimp only
    split_ifs
    · exact h.wp_commit_nil _
    · rw [wp_bind]
      refine h.wp_insertKey (fun _ => rfl) fun w' l' c _ h => ?_
      exact h.wp_audited fun _ _ => .issued rfl

/-- A key that is locked as it was found. -/
structure Holds (old : ApiKey) (l : Local KeyDb KeyLock) (w : KeyWorld) : Prop where
  lock : KeyLock.key old.id ∈ l.held
  find : keyTable.find w.db old.id = some old

lemma Holds.rely {w' : KeyWorld} (h : Holds old l w) (hr : Rely keyProtocol l.held w w') :
    Holds old l w' :=
  ⟨h.lock, (keyProtocol_keys.find_eq_of_rely hr h.lock).trans h.find⟩

lemma Holds.later {l' : Local KeyDb KeyLock} {w' : KeyWorld} (h : Holds old l w)
    (hl : Later keyProtocol l w l' w') : Holds old l' w' :=
  ⟨hl.held h.lock, (h.rely hl.rely).find⟩

lemma Holds.not_mem_new {script : ℕ → List KeyEdit} {new : List ApiKey} (hheld : Holds old l w)
    (h : Open script new noUserEdits l w) :
    old.id ∉ new.map ApiKey.id := by
  intro hmem
  obtain ⟨k, hk, hid⟩ := List.mem_map.1 hmem
  refine (h.keys.fresh k hk).2.2 ?_
  rw [show keyTable.id k = old.id from hid]
  exact Table.find_isSome_iff.1 ⟨old, hheld.find⟩

/-- The rule for the locked key: nobody else changes it. -/
lemma wp_lockAndRejectIfRevoked (h : Open noKeyEdits [] noUserEdits l w) (machineUserId keyId : ℕ)
    {Q : KeyPost (Except KeyAnswer ApiKey)}
    (herror : ∀ answer l' w', Open noKeyEdits [] noUserEdits l' w' → Q (.error answer) l' w')
    (hok : ∀ old l' w', Open noKeyEdits [] noUserEdits l' w' → Holds old l' w' →
      old.machineUserId = machineUserId → old.revokedAt = none ∧ old.overlapExpiresAt = none →
      Q (.ok old) l' w') :
    wp keyProtocol (lockAndRejectIfRevoked machineUserId keyId) Q l w := by
  rw [lockAndRejectIfRevoked, wp_bind, lockApiKeyForUpdate]
  refine h.keys.wp_selectForUpdate keyProtocol_keys List.not_mem_nil ?_ ?_
  · intro w' hr hinv hworking
    exact herror _ _ _ (h.rely hr hinv).bump
  · rintro w' k l' hr hinv hfind hcond rfl hworking
    obtain ⟨-, rfl⟩ := Table.find_eq_some hfind
    have h' : Open noKeyEdits [] noUserEdits (l.wrote [keyTable.lock (keyTable.id k)] fun d => d)
        w'.bump :=
      ⟨hinv.later (Nat.le_succ _), hworking,
        ((h.users.rely keyProtocol_users hr).wrote _ fun _ => rfl).bump⟩
    dsimp only
    split_ifs with hrevoked hoverlap
    · exact herror _ _ _ h'
    · exact herror _ _ _ h'
    · refine hok k _ _ h' ⟨.inr (List.mem_singleton.2 rfl), hfind⟩ (of_decide_eq_true hcond) ⟨?_, ?_⟩
      · exact Option.not_isSome_iff_eq_none.1 hrevoked
      · exact Option.not_isSome_iff_eq_none.1 hoverlap

/-- The rule for an update of the locked key. -/
lemma Open.wp_updateHeld {new : List ApiKey} (h : Open noKeyEdits new noUserEdits l w)
    (hheld : Holds old l w) {set : Ctx KeyDb → ApiKey → ApiKey} (e : KeyEdit)
    (hset : ∀ c k, set c k = keyEdits.apply e k) (hguard : keyEdits.guard e old)
    {Q : KeyPost (Option ApiKey)}
    (hQ : ∀ k l' w', Open (Edits.addEdit noKeyEdits old.id e) new noUserEdits l' w' →
      Holds old l' w' → Q k l' w') :
    wp keyProtocol (keyTable.updateRow old.id (fun _ _ => true) set) Q l w := by
  refine h.wp_updateKey (hheld.not_mem_new h) e hset ?_ ?_ ?_
  · intro w' k hr hfind _
    rw [(hheld.rely hr).find] at hfind
    cases hfind
    exact hguard
  · intro w' hr hcond _
    nomatch hcond old (hheld.rely hr).find
  · intro w' k l' hl _ h'
    exact hQ _ _ _ h' (hheld.later hl)

lemma wp_rotate (t orgId machineUserId keyId overlapMinutes : ℕ) :
    wp keyProtocol (rotate orgId machineUserId keyId overlapMinutes) (fun _ _ _ => True) (.idle t)
      w := by
  rw [rotate, wp_bind]
  refine wp_begin fun l w h => ?_
  rw [wp_bind]
  refine wp_lockAndRejectIfRevoked h machineUserId keyId (fun answer l w h => h.wp_commit_nil _) ?_
  rintro old l w h hheld rfl hfree
  dsimp only
  rw [wp_bind]
  refine h.wp_query fun w₁ hr₁ h => ?_
  rw [wp_bind]
  refine h.wp_insertKey (fun _ => rfl) fun w₂ l₂ c hl₂ h => ?_
  have hheld₂ := ((hheld.rely hr₁).rely (World.bump_rely w₁)).later hl₂
  rw [wp_bind]
  refine h.wp_updateHeld hheld₂ (.overlap _) (fun _ _ => rfl) hfree fun k l₃ w₃ h hheld₃ => ?_
  refine h.wp_audited fun w' hr => ?_
  exact .rotated _ _ rfl rfl (hheld₃.rely hr).find (Edits.addEdit_self _ _ _)

lemma wp_emergencyRevoke (t orgId machineUserId keyId : ℕ) :
    wp keyProtocol (emergencyRevoke orgId machineUserId keyId) (fun _ _ _ => True) (.idle t) w := by
  rw [emergencyRevoke, wp_bind]
  refine wp_begin fun l w h => ?_
  rw [wp_bind]
  refine wp_lockAndRejectIfRevoked h machineUserId keyId (fun answer l w h => h.wp_commit_nil _) ?_
  rintro old l w h hheld rfl hfree
  dsimp only
  rw [wp_bind]
  refine h.wp_query fun w₁ hr₁ h => ?_
  have hheld₁ := (hheld.rely hr₁).rely (World.bump_rely w₁)
  rw [wp_bind]
  refine h.wp_updateHeld hheld₁ (.retire _) (fun _ _ => rfl) hfree fun k l₂ w₂ h hheld₂ => ?_
  rw [wp_bind]
  refine h.wp_insertKey (fun _ => rfl) fun w₃ l₃ c hl₃ h => ?_
  have hheld₃ := hheld₂.later hl₃
  refine h.wp_audited fun w' hr => ?_
  exact .emergency _ rfl rfl (hheld₃.rely hr).find (Edits.addEdit_self _ _ _)

/-- The rule for an update of a key that is not revoked. -/
lemma Open.wp_revokeKey {script : ℕ → List KeyEdit} {uscript : ℕ → List ℕ}
    (h : Open script [] uscript l w) {n : ℕ} {cond : Ctx KeyDb → ApiKey → Bool} (now : ℕ)
    (hcond : ∀ c k, cond c k = true → k.revokedAt = none)
    {Q : KeyPost (Option ApiKey)}
    (hQ : ∀ k script' l' w', Open script' [] uscript l' w' → Q k l' w') :
    wp keyProtocol (keyTable.updateRow n cond fun _ k => { k with revokedAt := some now }) Q l w := by
  refine h.wp_updateKey List.not_mem_nil (.revoke now) (fun _ _ => rfl) ?_ ?_ ?_
  · intro w' k _ _ hk
    exact hcond _ _ hk
  · intro w' _ _ h'
    exact hQ _ _ _ _ h'
  · intro w' k l' _ _ h'
    exact hQ _ _ _ _ h'

lemma wp_revoke (t machineUserId keyId : ℕ) :
    wp keyProtocol (revoke machineUserId keyId) (fun _ _ _ => True) (.idle t) w := by
  rw [revoke, wp_bind]
  refine wp_begin fun l w h => ?_
  rw [wp_bind]
  refine h.wp_query fun w₁ _ h => ?_
  rw [wp_bind]
  refine h.wp_revokeKey _ ?_ fun k script' l' w' h => ?_
  · intro c k hk
    exact Option.isNone_iff_eq_none.1 ((Bool.and_eq_true_iff.1 hk).2)
  · cases k with
    | some claimed => exact h.wp_audited_nil _
    | none =>
      dsimp only
      rw [wp_bind]
      refine h.wp_query fun w' _ h => ?_
      split
      · exact h.wp_commit_nil _
      · exact h.wp_commit_nil _

lemma Open.wp_updateUser {script : ℕ → List KeyEdit} {new : List ApiKey} {uscript : ℕ → List ℕ}
    (h : Open script new uscript l w) {n : ℕ} {cond : Ctx KeyDb → MachineUser → Bool} (now : ℕ)
    (hcond : ∀ c u, cond c u = true → u.deactivatedAt = none)
    {Q : KeyPost (Option MachineUser)}
    (hnone : ∀ w', Open script new uscript l w' → Q none l w')
    (hsome : ∀ u l' w' uscript', Open script new uscript' l' w' → Q (some u) l' w') :
    wp keyProtocol (userTable.updateRow n cond fun _ u => { u with deactivatedAt := some now })
      Q l w := by
  refine h.users.wp_updateRow keyProtocol_users (fun _ hw => hw.users) List.not_mem_nil
    (fun _ => now) (fun _ _ => rfl) ?_ ?_ ?_
  · intro w' u _ _ _ hu
    exact hcond _ _ hu
  · intro w' hr hinv _ _
    exact hnone _ (h.rely hr hinv).bump
  · rintro w' u l' hr hinv _ _ rfl hworking
    refine hsome _ _ _ _ ⟨hinv.later (Nat.le_succ _), ?_, hworking⟩
    exact ((h.keys.rely keyProtocol_keys hr).wrote _ (keys_modify _)).bump

lemma wp_deactivate (t machineUserId : ℕ) :
    wp keyProtocol (deactivate machineUserId) (fun _ _ _ => True) (.idle t) w := by
  rw [deactivate, wp_bind]
  refine wp_begin fun l w h => ?_
  rw [wp_bind]
  refine h.wp_query fun w₁ _ h => ?_
  rw [wp_bind]
  refine h.wp_updateUser _ ?_ ?_ ?_
  · intro c u hu
    exact Option.isNone_iff_eq_none.1 ((Bool.and_eq_true_iff.1 hu).1)
  · intro w' h
    dsimp only
    rw [wp_bind]
    refine wp_findMachineUserById h machineUserId fun u w' h => ?_
    cases u with
    | none => exact h.wp_commit_nil _
    | some existing => exact h.wp_commit_nil _
  · intro u l' w' uscript' h
    exact h.wp_audited_nil _

lemma wp_overlapRevoke (t keyId : ℕ) :
    wp keyProtocol (overlapRevoke keyId) (fun _ _ _ => True) (.idle t) w := by
  rw [overlapRevoke, dateNow, wp_bind]
  refine Db.wp_query fun w₁ _ _ => ?_
  rw [wp_bind]
  refine Db.wp_query fun w₂ _ _ => ?_
  split_ifs with hdue
  · rw [wp_bind]
    refine wp_begin fun l w h => ?_
    rw [wp_bind]
    refine h.wp_revokeKey _ ?_ fun k script' l' w' h => ?_
    · intro c k hk
      exact Option.isNone_iff_eq_none.1 hk
    · cases k with
      | none => exact h.wp_commit_nil _
      | some claimed => exact h.wp_audited_nil _
  · trivial

/-- The keys of the bulk update, one after another. -/
lemma wp_updateEach {uscript : ℕ → List ℕ} {cond : Ctx KeyDb → ApiKey → Bool} (now : ℕ)
    (hcond : ∀ c k, cond c k = true → k.revokedAt = none) (ns : List ℕ)
    {Q : KeyPost (List ApiKey)}
    (hQ : ∀ ks script' l' w', Open script' [] uscript l' w' → Q ks l' w')
    {script : ℕ → List KeyEdit} (h : Open script [] uscript l w) :
    wp keyProtocol (keyTable.updateEach cond (fun _ k => { k with revokedAt := some now }) ns) Q l
      w := by
  induction ns generalizing script l w Q with
  | nil => exact hQ _ _ _ _ h
  | cons n ns ih =>
    rw [Table.updateEach, wp_bind]
    refine h.wp_revokeKey now hcond fun k script' l' w' h => ?_
    rw [wp_bind]
    refine ih (fun ks script'' l'' w'' h => ?_) h
    exact hQ _ _ _ _ h

lemma wp_revokeOrgKeys (t orgId : ℕ) :
    wp keyProtocol (revokeOrgKeys orgId) (fun _ _ _ => True) (.idle t) w := by
  rw [revokeOrgKeys, wp_bind]
  refine wp_begin fun l w h => ?_
  rw [wp_bind]
  refine h.wp_query fun w₁ _ h => ?_
  rw [wp_bind, Table.updateRows, wp_bind]
  refine h.wp_query fun w₂ _ h => ?_
  refine wp_updateEach _ ?_ _ ?_ h
  · intro c k hk
    exact Option.isNone_iff_eq_none.1 ((Bool.and_eq_true_iff.1 hk).2)
  · intro ks script' l' w' h
    exact h.wp_audited_nil _

lemma wp_exchange (t keyHash : ℕ) :
    wp keyProtocol (exchange keyHash) (fun _ _ _ => True) (.idle t) w := by
  rw [exchange, wp_bind]
  refine Db.wp_query fun w₁ _ _ => ?_
  rw [dateNow, wp_bind]
  refine Db.wp_query fun w₂ _ _ => ?_
  split
  · exact wp_giveUp fun _ _ => trivial
  · rw [wp_bind]
    refine wp_begin fun l w h => ?_
    rw [wp_bind]
    refine h.wp_updateKey List.not_mem_nil (.touch _) (fun _ _ => rfl) ?_ ?_ ?_
    · intro w' k _ _ _
      exact trivial
    · intro w' _ _ h
      exact h.wp_commit_nil _
    · intro w' k l' _ _ h
      exact h.wp_commit_nil _

lemma wp_verify (t : ℕ) (claims : MachineClaims) :
    wp keyProtocol (verifyMachineRequest claims) (fun _ _ _ => True) (.idle t) w := by
  rw [verifyMachineRequest, wp_bind]
  refine wp_begin fun l w h => ?_
  rw [wp_bind]
  refine h.wp_query fun w₁ _ h => ?_
  rw [dateNow, wp_bind]
  refine h.wp_query fun w₂ _ h => ?_
  exact h.wp_commit_nil _

end Calls

/-- Every call keeps to the protocol. -/
theorem keyCall_keeps : Keeps keyProtocol keyCall fun _ => True := by
  intro call _ t w _
  cases call with
  | issue orgId machineUserId name expiresAt => exact wp_issueApiKey t orgId machineUserId name expiresAt
  | rotate orgId machineUserId keyId overlapMinutes =>
    exact wp_rotate t orgId machineUserId keyId overlapMinutes
  | emergencyRevoke orgId machineUserId keyId => exact wp_emergencyRevoke t orgId machineUserId keyId
  | revoke machineUserId keyId => exact wp_revoke t machineUserId keyId
  | deactivate machineUserId => exact wp_deactivate t machineUserId
  | overlapRevoke keyId => exact wp_overlapRevoke t keyId
  | revokeOrgKeys orgId => exact wp_revokeOrgKeys t orgId
  | exchange keyHash => exact wp_exchange t keyHash
  | verify claims => exact wp_verify t claims

end ProjectVault.MachineUsers
