import ProjectVault.MachineUsers.Keys

/-!
What the transactions of the key code do to keys.
-/

namespace ProjectVault.MachineUsers

open Db

/-! ### Edits -/

/-- What statements do to a key. -/
inductive KeyEdit where
  | overlap (endsAt : ℕ)
  | retire (now : ℕ)
  | revoke (now : ℕ)
  | touch (now : ℕ)

/-- The edits of keys: a key is rotated or retired while it is neither revoked nor rotated, and
revoked while it is not revoked. -/
def keyEdits : Edits keyTable KeyEdit where
  guard
    | .overlap _, k => k.revokedAt = none ∧ k.overlapExpiresAt = none
    | .retire _, k => k.revokedAt = none ∧ k.overlapExpiresAt = none
    | .revoke _, k => k.revokedAt = none
    | .touch _, _ => True
  apply
    | .overlap t, k => { k with overlapExpiresAt := some t }
    | .retire t, k => { k with revokedAt := some t }
    | .revoke t, k => { k with revokedAt := some t }
    | .touch t, k => { k with lastUsedAt := some t }
  id_apply e k := by cases e <;> rfl

/-- The edits of machine users: the deactivation of an active one. -/
def userEdits : Edits userTable ℕ where
  guard _ u := u.deactivatedAt = none
  apply t u := { u with deactivatedAt := some t }
  id_apply _ _ := rfl

/-- A key that has a successor cannot get another. -/
def ApiKey.superseded (k : ApiKey) : Bool := k.revokedAt.isSome || k.overlapExpiresAt.isSome

/-- What no edit of a key takes back. -/
structure ApiKey.Later (k k' : ApiKey) : Prop where
  machineUserId : k'.machineUserId = k.machineUserId
  orgId : k'.orgId = k.orgId
  keyHash : k'.keyHash = k.keyHash
  expiresAt : k'.expiresAt = k.expiresAt
  rotatedFromKeyId : k'.rotatedFromKeyId = k.rotatedFromKeyId
  revokedAt : ∀ t, k.revokedAt = some t → k'.revokedAt = some t
  overlapExpiresAt : k.overlapExpiresAt.isSome → k'.overlapExpiresAt.isSome

lemma ApiKey.Later.refl (k : ApiKey) : k.Later k :=
  ⟨rfl, rfl, rfl, rfl, rfl, fun _ h => h, fun h => h⟩

lemma ApiKey.Later.trans {k k' k'' : ApiKey} (h : k.Later k') (h' : k'.Later k'') : k.Later k'' :=
  ⟨h'.machineUserId.trans h.machineUserId, h'.orgId.trans h.orgId, h'.keyHash.trans h.keyHash,
    h'.expiresAt.trans h.expiresAt, h'.rotatedFromKeyId.trans h.rotatedFromKeyId,
    fun t ht => h'.revokedAt t (h.revokedAt t ht),
    fun hs => h'.overlapExpiresAt (h.overlapExpiresAt hs)⟩

lemma ApiKey.Later.superseded {k k' : ApiKey} (h : k.Later k') (hk : k.superseded = true) :
    k'.superseded = true := by
  rw [ApiKey.superseded, Bool.or_eq_true] at hk ⊢
  refine hk.imp (fun hr => ?_) h.overlapExpiresAt
  obtain ⟨t, ht⟩ := Option.isSome_iff_exists.1 hr
  rw [h.revokedAt t ht]
  rfl

/-- Edits take nothing back. -/
lemma later_run {es : List KeyEdit} {k : ApiKey} (h : keyEdits.Applied es k) :
    k.Later (keyEdits.run es k) := by
  refine h.keeps (I := fun k' => k.Later k') ?_ (.refl k)
  intro e _ k' hguard hk
  refine hk.trans ?_
  cases e with
  | overlap t => exact ⟨rfl, rfl, rfl, rfl, rfl, fun _ h => h, fun _ => rfl⟩
  | retire t =>
    refine ⟨rfl, rfl, rfl, rfl, rfl, fun s hs => ?_, fun h => h⟩
    rw [hguard.1] at hs
    nomatch hs
  | revoke t =>
    refine ⟨rfl, rfl, rfl, rfl, rfl, fun s hs => ?_, fun h => h⟩
    have hnone : k'.revokedAt = none := hguard
    rw [hnone] at hs
    nomatch hs
  | touch t => exact ⟨rfl, rfl, rfl, rfl, rfl, fun _ h => h, fun h => h⟩

lemma deactivated_run {es : List ℕ} {u : MachineUser} (h : userEdits.Applied es u) {t : ℕ}
    (hu : u.deactivatedAt = some t) : (userEdits.run es u).deactivatedAt = some t := by
  refine h.keeps (I := fun u' => u'.deactivatedAt = some t) ?_ hu
  intro e _ u' hguard hu'
  have hnone : u'.deactivatedAt = none := hguard
  rw [hnone] at hu'
  nomatch hu'

/-! ### The end of a transaction -/

/-- How a transaction comes by a new key: it issues one, or it gives the one key it rotates or
retires a successor. -/
inductive Born (script : ℕ → List KeyEdit) (before : KeyDb) : KeyAnswer → List ApiKey → Prop where
  | none (answer : KeyAnswer) : Born script before answer []
  | issued {k : ApiKey} (hroot : k.rotatedFromKeyId = none) : Born script before (.issued k.id) [k]
  | rotated {k old : ApiKey} (now endsAt : ℕ) (hparent : k.rotatedFromKeyId = some old.id)
      (huser : k.machineUserId = old.machineUserId)
      (hold : keyTable.find before old.id = some old)
      (hscript : script old.id = [.overlap endsAt]) :
      Born script before (.rotated old.id k.id now) [k]
  | emergency {k old : ApiKey} (now : ℕ) (hparent : k.rotatedFromKeyId = some old.id)
      (huser : k.machineUserId = old.machineUserId)
      (hold : keyTable.find before old.id = some old) (hscript : script old.id = [.retire now]) :
      Born script before (.emergencyRevoked old.id k.id now) [k]

/-- What the end of a transaction may do. -/
def KeyMove (held : Set KeyLock) (w : KeyWorld) (ev : KeyEnd) : Prop :=
  ∃ script new uscript, keyEdits.Changed script new held w.seq ev.before ev.after ∧
    userEdits.Changed uscript [] held w.seq ev.before ev.after ∧
    Born script ev.before ev.answer new

/-- The keys and machine users of the first tables are still there in the second. -/
structure Persists (d d' : KeyDb) : Prop where
  keys : ∀ n k, keyTable.find d n = some k → ∃ k', keyTable.find d' n = some k' ∧ k.Later k'
  users : ∀ n u t, userTable.find d n = some u → u.deactivatedAt = some t →
    ∃ u', userTable.find d' n = some u' ∧ u'.deactivatedAt = some t

lemma Persists.refl (d : KeyDb) : Persists d d :=
  ⟨fun _ k hk => ⟨k, hk, .refl k⟩, fun _ u _ hu ht => ⟨u, hu, ht⟩⟩

lemma Persists.trans {d d' d'' : KeyDb} (h : Persists d d') (h' : Persists d' d'') :
    Persists d d'' where
  keys n k hk := by
    obtain ⟨k', hk', hlater⟩ := h.keys n k hk
    obtain ⟨k'', hk'', hlater'⟩ := h'.keys n k' hk'
    exact ⟨k'', hk'', hlater.trans hlater'⟩
  users n u t hu ht := by
    obtain ⟨u', hu', ht'⟩ := h.users n u t hu ht
    exact h'.users n u' t hu' ht'

lemma KeyMove.persists {held : Set KeyLock} {w : KeyWorld} {ev : KeyEnd} (h : KeyMove held w ev) :
    Persists ev.before ev.after := by
  obtain ⟨script, new, uscript, hkeys, husers, -⟩ := h
  constructor
  · intro n k hk
    obtain ⟨hmem, hid⟩ := Table.find_eq_some hk
    exact ⟨_, hkeys.find_of_some hk, later_run (hkeys.applied k hmem)⟩
  · intro n u t hu ht
    obtain ⟨hmem, hid⟩ := Table.find_eq_some hu
    exact ⟨_, husers.find_of_some hu, deactivated_run (husers.applied u hmem) ht⟩

lemma KeyMove.active {held : Set KeyLock} {w : KeyWorld} {ev : KeyEnd} (h : KeyMove held w ev)
    {n : ℕ} {u : MachineUser} (hu : userTable.find ev.after n = some u)
    (hactive : u.deactivatedAt = none) :
    ∃ u₀, userTable.find ev.before n = some u₀ ∧ u₀.deactivatedAt = none := by
  have hpersists := h.persists
  obtain ⟨script, new, uscript, -, husers, -⟩ := h
  cases hu₀ : userTable.find ev.before n with
  | none =>
    rw [husers.find_of_none hu₀] at hu
    nomatch hu
  | some u₀ =>
    refine ⟨u₀, rfl, ?_⟩
    cases ht : u₀.deactivatedAt with
    | none => rfl
    | some t =>
      obtain ⟨u', hu', ht'⟩ := hpersists.users n u₀ t hu₀ ht
      rw [hu, Option.some.injEq] at hu'
      rw [← hu', hactive] at ht'
      nomatch ht'

/-- Where a new key comes from. -/
def Origin (ev : KeyEnd) (k : ApiKey) : Prop :=
  (k.rotatedFromKeyId = none ∧ ev.answer = .issued k.id) ∨
    ∃ old now, (ev.answer = .rotated old.id k.id now ∨ ev.answer = .emergencyRevoked old.id k.id now) ∧
      k.rotatedFromKeyId = some old.id ∧ k.machineUserId = old.machineUserId ∧
      keyTable.find ev.before old.id = some old ∧ old.superseded = false

/-- What holds of the committed keys. -/
structure KeyHistory (w : KeyWorld) : Prop where
  keys : keyTable.Keyed w
  users : userTable.Keyed w
  parents : ∀ k ∈ w.db.keys, ∀ o, k.rotatedFromKeyId = some o →
    ∃ p, keyTable.find w.db o = some p ∧ p.superseded = true
  oneSuccessor : ∀ k ∈ w.db.keys, ∀ k' ∈ w.db.keys, ∀ o, k.rotatedFromKeyId = some o →
    k'.rotatedFromKeyId = some o → k = k'
  persists : ∀ ev ∈ w.log, Persists ev.after w.db
  origins : ∀ ev ∈ w.log, ∀ k ∈ ev.after.keys, k.id ∉ keyTable.ids ev.before → Origin ev k
  active : ∀ ev ∈ w.log, ∀ n u, userTable.find ev.after n = some u → u.deactivatedAt = none →
    ∃ u₀, userTable.find ev.before n = some u₀ ∧ u₀.deactivatedAt = none

lemma KeyHistory.later {w : KeyWorld} (h : KeyHistory w) {n t : ℕ} (hn : w.seq ≤ n) :
    KeyHistory { w with seq := n, clock := t } :=
  { keys := ⟨h.keys.nodup, fun r hr => (h.keys.drawn r hr).trans_le hn⟩
    users := ⟨h.users.nodup, fun r hr => (h.users.drawn r hr).trans_le hn⟩
    parents := h.parents, oneSuccessor := h.oneSuccessor, persists := h.persists
    origins := h.origins, active := h.active }

section Move

variable {held : Set KeyLock} {w : KeyWorld} {ev : KeyEnd} {script : ℕ → List KeyEdit}
  {new : List ApiKey}

/-- A key after a transaction is an old one, edited, or a new one. -/
lemma mem_after (h : keyEdits.Changed script new held w.seq ev.before ev.after) {k : ApiKey}
    (hk : k ∈ ev.after.keys) : (∃ k₀ ∈ ev.before.keys, k = keyEdits.play script k₀) ∨ k ∈ new := by
  have hrows : ev.after.keys = ev.before.keys.map (keyEdits.play script) ++ new := h.rows
  rw [hrows, List.mem_append, List.mem_map] at hk
  exact hk.imp_left fun ⟨k₀, hk₀, heq⟩ => ⟨k₀, hk₀, heq.symm⟩

lemma later_play (h : keyEdits.Changed script new held w.seq ev.before ev.after) {k : ApiKey}
    (hk : k ∈ ev.before.keys) : k.Later (keyEdits.play script k) :=
  later_run (h.applied k hk)

/-- A rotation or a retirement finds a key without successor and leaves one that has it. -/
lemma superseded_play {e : KeyEdit} {old : ApiKey}
    (h : keyEdits.Changed script new held w.seq ev.before ev.after)
    (hold : keyTable.find ev.before old.id = some old) (hscript : script old.id = [e])
    (hguard : ∀ k, keyEdits.guard e k → k.superseded = false)
    (happly : ∀ k, (keyEdits.apply e k).superseded = true) :
    old.superseded = false ∧ (keyEdits.play script old).superseded = true := by
  have happlied : keyEdits.Applied (script old.id) old := h.applied _ (Table.find_eq_some hold).1
  have hplay : keyEdits.play script old = keyEdits.run (script old.id) old := rfl
  rw [hscript] at happlied hplay
  rw [hplay]
  exact ⟨hguard _ (Edits.applied_singleton.1 happlied), happly _⟩

lemma not_superseded {k : ApiKey} (h : k.revokedAt = none ∧ k.overlapExpiresAt = none) :
    k.superseded = false := by
  rw [ApiKey.superseded, h.1, h.2]
  rfl

/-- A new key with a parent: the parent was neither revoked nor rotated, and is one of both now. -/
lemma Born.parent (hborn : Born script ev.before ev.answer new)
    (h : keyEdits.Changed script new held w.seq ev.before ev.after) {k : ApiKey} (hk : k ∈ new)
    {o : ℕ} (ho : k.rotatedFromKeyId = some o) :
    (∃ now, ev.answer = .rotated o k.id now ∨ ev.answer = .emergencyRevoked o k.id now) ∧
      ∃ old, old.id = o ∧ k.machineUserId = old.machineUserId ∧
        keyTable.find ev.before o = some old ∧ old.superseded = false ∧
          (keyEdits.play script old).superseded = true := by
  generalize hanswer : ev.answer = answer at hborn
  cases hborn with
  | none answer => nomatch hk
  | issued hroot =>
    rw [List.mem_singleton.1 hk, hroot] at ho
    nomatch ho
  | rotated now endsAt hparent huser hold hscript =>
    obtain rfl := List.mem_singleton.1 hk
    rw [hparent] at ho
    cases ho
    refine ⟨⟨now, .inl rfl⟩, _, rfl, huser, hold, superseded_play h hold hscript
      (fun k hguard => not_superseded hguard) fun k => ?_⟩
    show (k.revokedAt.isSome || true) = true
    exact Bool.or_true _
  | emergency now hparent huser hold hscript =>
    obtain rfl := List.mem_singleton.1 hk
    rw [hparent] at ho
    cases ho
    exact ⟨⟨now, .inr rfl⟩, _, rfl, huser, hold, superseded_play h hold hscript
      (fun k hguard => not_superseded hguard) fun k => rfl⟩

/-- A transaction has at most one new key. -/
lemma Born.eq (hborn : Born script ev.before ev.answer new) {k k' : ApiKey} (hk : k ∈ new)
    (hk' : k' ∈ new) : k = k' := by
  generalize hanswer : ev.answer = answer at hborn
  cases hborn with
  | none answer => nomatch hk
  | issued _ => rw [List.mem_singleton.1 hk, List.mem_singleton.1 hk']
  | rotated _ _ _ _ _ _ => rw [List.mem_singleton.1 hk, List.mem_singleton.1 hk']
  | emergency _ _ _ _ _ => rw [List.mem_singleton.1 hk, List.mem_singleton.1 hk']

lemma Born.origin (hborn : Born script ev.before ev.answer new)
    (h : keyEdits.Changed script new held w.seq ev.before ev.after) {k : ApiKey} (hk : k ∈ new) :
    Origin ev k := by
  cases hparent : k.rotatedFromKeyId with
  | some o =>
    obtain ⟨⟨now, hanswer⟩, old, rfl, huser, hold, hfree, -⟩ := hborn.parent h hk hparent
    exact .inr ⟨old, now, hanswer, hparent, huser, hold, hfree⟩
  | none =>
    refine .inl ⟨hparent, ?_⟩
    generalize hanswer : ev.answer = answer at hborn
    cases hborn with
    | none answer => nomatch hk
    | issued _ => rw [List.mem_singleton.1 hk]
    | rotated _ _ hsome _ _ _ =>
      rw [← List.mem_singleton.1 hk, hparent] at hsome
      nomatch hsome
    | emergency _ hsome _ _ _ =>
      rw [← List.mem_singleton.1 hk, hparent] at hsome
      nomatch hsome

lemma KeyHistory.ended (hw : KeyHistory w) (hbefore : ev.before = w.db) (h : KeyMove held w ev) :
    KeyHistory (w.ended ev) := by
  have hpersists := h.persists
  have hactive : ∀ n u, userTable.find ev.after n = some u → u.deactivatedAt = none →
      ∃ u₀, userTable.find ev.before n = some u₀ ∧ u₀.deactivatedAt = none :=
    fun _ _ => h.active
  obtain ⟨script, new, uscript, hkeys, husers, hborn⟩ := h
  have hparents : ∀ k ∈ ev.after.keys, ∀ o, k.rotatedFromKeyId = some o →
      ∃ p, keyTable.find ev.after o = some p ∧ p.superseded = true := by
    intro k hk o ho
    rcases mem_after hkeys hk with ⟨k₀, hk₀, rfl⟩ | hnew
    · rw [(later_play hkeys hk₀).rotatedFromKeyId] at ho
      obtain ⟨p, hp, hsuperseded⟩ := hw.parents k₀ (hbefore ▸ hk₀) o ho
      obtain ⟨p', hp', hlater⟩ := hpersists.keys o p (hbefore ▸ hp)
      exact ⟨p', hp', hlater.superseded hsuperseded⟩
    · obtain ⟨-, old, rfl, -, hold, -, hplay⟩ := hborn.parent hkeys hnew ho
      exact ⟨_, hkeys.find_of_some hold, hplay⟩
  -- a key with a successor before the transaction does not get another
  have hmixed : ∀ k₀ ∈ ev.before.keys, ∀ k' ∈ new, ∀ o, k₀.rotatedFromKeyId = some o →
      k'.rotatedFromKeyId = some o → False := by
    intro k₀ hk₀ k' hk' o ho ho'
    obtain ⟨p, hp, hsuperseded⟩ := hw.parents k₀ (hbefore ▸ hk₀) o ho
    obtain ⟨-, old, rfl, -, hold, hfree, -⟩ := hborn.parent hkeys hk' ho'
    rw [hbefore, hp] at hold
    rw [Option.some.inj hold, hfree] at hsuperseded
    nomatch hsuperseded
  refine
    { keys := hkeys.keyed hbefore hw.keys
      users := husers.keyed hbefore hw.users
      parents := hparents
      oneSuccessor := ?_
      persists := ?_
      origins := ?_
      active := ?_ }
  · intro k hk k' hk' o ho ho'
    rcases mem_after hkeys hk with ⟨k₀, hk₀, rfl⟩ | hnew <;>
      rcases mem_after hkeys hk' with ⟨k₁, hk₁, rfl⟩ | hnew'
    · rw [(later_play hkeys hk₀).rotatedFromKeyId] at ho
      rw [(later_play hkeys hk₁).rotatedFromKeyId] at ho'
      rw [hw.oneSuccessor k₀ (hbefore ▸ hk₀) k₁ (hbefore ▸ hk₁) o ho ho']
    · rw [(later_play hkeys hk₀).rotatedFromKeyId] at ho
      exact (hmixed k₀ hk₀ k' hnew' o ho ho').elim
    · rw [(later_play hkeys hk₁).rotatedFromKeyId] at ho'
      exact (hmixed k₁ hk₁ k hnew o ho' ho).elim
    · exact hborn.eq hnew hnew'
  · intro e he
    rcases List.mem_cons.1 he with rfl | he
    · exact .refl _
    · exact (hw.persists e he).trans (hbefore ▸ hpersists)
  · intro e he
    rcases List.mem_cons.1 he with rfl | he
    · intro k hk hfresh
      rcases mem_after hkeys hk with ⟨k₀, hk₀, rfl⟩ | hnew
      · refine absurd ?_ hfresh
        rw [show (keyEdits.play script k₀).id = k₀.id from Edits.id_play (E := keyEdits) script k₀]
        exact List.mem_map_of_mem hk₀
      · exact hborn.origin hkeys hnew
    · exact hw.origins e he
  · intro e he
    rcases List.mem_cons.1 he with rfl | he
    · exact hactive
    · exact hw.active e he

end Move

/-- What the sessions of the key code owe each other. -/
def keyProtocol : Protocol KeyDb KeyLock KeyAnswer where
  inv := KeyHistory
  move := KeyMove
  inv_move hinv hbefore _ hmove := hinv.ended hbefore hmove
  inv_later hinv hn _ := hinv.later hn

lemma keyProtocol_keys : keyEdits.Respected keyProtocol := by
  rintro held w ev - - ⟨script, new, uscript, hkeys, -, -⟩
  exact ⟨script, new, hkeys⟩

lemma keyProtocol_users : userEdits.Respected keyProtocol := by
  rintro held w ev - - ⟨script, new, uscript, -, husers, -⟩
  exact ⟨uscript, [], husers⟩

end ProjectVault.MachineUsers
