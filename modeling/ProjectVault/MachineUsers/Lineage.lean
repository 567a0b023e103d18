import ProjectVault.Db.Watch
import ProjectVault.MachineUsers.Calls

/-!
The lineage of API keys.
-/

namespace ProjectVault.MachineUsers

open Db

/-! ### Dead keys -/

/-- A key that is revoked, or whose machine user is deactivated. -/
def Dead (d : KeyDb) (n : ℕ) : Prop :=
  ∃ k, keyTable.find d n = some k ∧ (k.revokedAt.isSome ∨
    ∃ u, userTable.find d k.machineUserId = some u ∧ u.deactivatedAt.isSome)

lemma Persists.dead {d d' : KeyDb} (h : Persists d d') {n : ℕ} (hn : Dead d n) : Dead d' n := by
  obtain ⟨k, hk, hdead⟩ := hn
  obtain ⟨k', hk', hlater⟩ := h.keys n k hk
  refine ⟨k', hk', ?_⟩
  rcases hdead with hrevoked | ⟨u, hu, hdeactivated⟩
  · obtain ⟨t, ht⟩ := Option.isSome_iff_exists.1 hrevoked
    left
    rw [hlater.revokedAt t ht]
    rfl
  · obtain ⟨t, ht⟩ := Option.isSome_iff_exists.1 hdeactivated
    obtain ⟨u', hu', ht'⟩ := h.users _ u t hu ht
    refine .inr ⟨u', hlater.machineUserId ▸ hu', ?_⟩
    rw [ht']
    rfl

lemma dead_of_rely {held : Set KeyLock} {w w' : KeyWorld} (hr : Rely keyProtocol held w w') {n : ℕ}
    (hn : Dead w.db n) : Dead w'.db n := by
  refine Rely.stable (A := fun v => Dead v.db n) ?_ ?_ hr hn
  · intro other v ev _ _ hbefore _ _ hmove hdead
    exact hmove.persists.dead (hbefore ▸ hdead)
  · exact fun v m t _ _ hdead => hdead

lemma mem_findSome {d : KeyDb} {ks : List ApiKey} {r : ApiKey × MachineUser}
    (h : ks.findSome? d.joined = some r) :
    r.1 ∈ ks ∧ userTable.find d r.1.machineUserId = some r.2 := by
  obtain ⟨k, hk, hjoined⟩ := List.exists_of_findSome?_eq_some h
  obtain ⟨u, hu, rfl⟩ := Option.map_eq_some_iff.1 hjoined
  exact ⟨hk, hu⟩

lemma not_dead {d : KeyDb} (hnodup : (keyTable.ids d).Nodup) {k : ApiKey} {u : MachineUser} {now : ℕ}
    (hk : k ∈ d.keys) (hu : userTable.find d k.machineUserId = some u)
    (hlive : isMachineKeyLive k u now = true) : ¬ Dead d k.id := by
  rintro ⟨k', hk', hdead⟩
  have hfind : keyTable.find d k.id = some k := Table.find_of_mem hnodup hk
  rw [hfind, Option.some.injEq] at hk'
  subst hk'
  simp only [isMachineKeyLive, Bool.and_eq_true, Option.isNone_iff_eq_none] at hlive
  rcases hdead with hrevoked | ⟨u', hu', hdeactivated⟩
  · rw [hlive.1.1] at hrevoked
    nomatch hrevoked
  · rw [hu, Option.some.injEq] at hu'
    rw [← hu', hlive.1.2] at hdeactivated
    nomatch hdeactivated

/-- The lookup of the exchange finds no dead key valid. -/
lemma exchangeClaims_not_dead {d : KeyDb} (hnodup : (keyTable.ids d).Nodup) {keyHash now : ℕ}
    {claims : MachineClaims}
    (h : exchangeClaims (findApiKeyByHash d keyHash) now = some claims) : ¬ Dead d claims.keyId := by
  obtain ⟨r, hr, rfl⟩ := Option.map_eq_some_iff.1 h
  obtain ⟨hfound, hlive⟩ := Option.filter_eq_some_iff.1 hr
  obtain ⟨hmem, hu⟩ := mem_findSome hfound
  exact not_dead hnodup (List.mem_filter.1 hmem).1 hu hlive

/-- The check of a token finds no dead key valid. -/
lemma acceptsClaims_not_dead {d : KeyDb} (hnodup : (keyTable.ids d).Nodup) {orgId keyId now : ℕ}
    (h : acceptsClaims (findLiveKeyState d orgId keyId) now = true) : ¬ Dead d keyId := by
  obtain ⟨r, hr, hlive⟩ := (Option.any_eq_true _ _).1 h
  obtain ⟨hmem, hu⟩ := mem_findSome hr
  obtain ⟨hk, hid⟩ := List.mem_filter.1 hmem
  have hid' : r.1.id = keyId := of_decide_eq_true (Bool.and_eq_true_iff.1 hid).1
  rw [← hid']
  exact not_dead hnodup hk hu hlive

/-! ### Requests -/

/-- A request with a key, or with a token of the key, gets through. -/
def GetsThrough (n : ℕ) (ev : KeyEnd) : Prop :=
  ∃ claims : MachineClaims, claims.keyId = n ∧
    (ev.answer = .token claims ∨ ev.answer = .verified claims)

section Requests

variable {n : ℕ} {w : KeyWorld}

lemma ends_exchange (t keyHash : ℕ) (hn : Dead w.db n) :
    ends keyProtocol (fun _ _ => True) (fun ev => ¬ GetsThrough n ev) (exchange keyHash)
      (fun _ _ _ => True) (.idle t) w := by
  rw [exchange, ends_bind]
  refine ends_query trivial fun w₁ hr₁ hinv₁ => ?_
  rw [dateNow, ends_bind]
  refine ends_query trivial fun w₂ _ _ => ?_
  split
  · refine ends_rollbackTx ?_ fun _ _ => trivial
    rintro ev hanswer ⟨claims, -, hthrough⟩
    rw [hanswer] at hthrough
    rcases hthrough with h | h <;> cases h
  · next claims hclaims =>
    have hne : claims.keyId ≠ n := by
      rintro rfl
      exact exchangeClaims_not_dead hinv₁.keys.nodup hclaims (dead_of_rely hr₁ hn)
    rw [ends_bind]
    refine ends_beginTx fun w₃ _ _ => ?_
    rw [ends_bind]
    refine ends_update fun w₄ _ _ => ⟨trivial, ?_⟩
    refine ends_commitTx ?_ fun _ _ => trivial
    rintro ev hanswer ⟨claims', hid, hthrough⟩
    rw [hanswer] at hthrough
    rcases hthrough with h | h
    · cases h
      exact hne hid
    · cases h

lemma ends_verify (t : ℕ) (claims : MachineClaims) (hn : Dead w.db n) :
    ends keyProtocol (fun _ _ => True) (fun ev => ¬ GetsThrough n ev) (verifyMachineRequest claims)
      (fun _ _ _ => True) (.idle t) w := by
  rw [verifyMachineRequest, ends_bind]
  refine ends_beginTx fun w₁ hr₁ _ => ?_
  rw [ends_bind]
  refine ends_query trivial fun w₂ hr₂ hinv₂ => ?_
  rw [dateNow, ends_bind]
  refine ends_query trivial fun w₃ _ _ => ?_
  refine ends_commitTx ?_ fun _ _ => trivial
  rintro ev hanswer ⟨claims', rfl, hthrough⟩
  rw [hanswer] at hthrough
  split_ifs at hthrough with haccepts
  · rcases hthrough with h | h
    · cases h
    · cases h
      exact acceptsClaims_not_dead hinv₂.keys.nodup haccepts
        (dead_of_rely hr₂ (dead_of_rely hr₁ hn))
  · rcases hthrough with h | h <;> cases h

end Requests

/-- The requests that show a key or a token. -/
inductive KeyCall.IsRequest : KeyCall → Prop where
  | exchange (keyHash : ℕ) : IsRequest (.exchange keyHash)
  | verify (claims : MachineClaims) : IsRequest (.verify claims)

/-- A request made in this state does not get through with a key that is dead by then. -/
def Refuses (p : Principals) (clock : ℕ) (s : State KeyDb KeyLock KeyAnswer) : Prop :=
  ∀ ev ∈ s.world.log, ∀ n, Dead ev.after n → ∀ i call, call.IsRequest → ∀ s₁ t t' b ev',
    (keySessions p clock).step s (.opens i call) = some s₁ →
    (keySessions p clock).Steps (fun _ a => ∀ call', a ≠ .opens i call') s₁ t →
    (keySessions p clock).step t (.runs i b) = some t' → t'.world.log = ev' :: t.world.log →
    ¬ GetsThrough n ev'

/-! ### Lineage -/

/-- The end of a rotation or an emergency revocation at a time when the old key is past its
`expiresAt`. -/
def RotatesExpired (ev : KeyEnd) : Bool :=
  match ev.answer with
  | .rotated oldId _ now | .emergencyRevoked oldId _ now =>
    (keyTable.find ev.before oldId).any fun k => !k.unexpired now
  | _ => false

/-- A key of these tables authenticates at a time. -/
def KeyDb.live (d : KeyDb) (k : ApiKey) (t : ℕ) : Bool :=
  (d.joined k).any fun r => isMachineKeyLive r.1 r.2 t

/-- A key is issued, or made by rotating a live key of an active machine user. -/
def Arises (ev : KeyEnd) (k : ApiKey) : Bool :=
  match ev.answer with
  | .issued id => id = k.id && k.rotatedFromKeyId.isNone
  | .rotated oldId newId now | .emergencyRevoked oldId newId now =>
    newId = k.id && k.rotatedFromKeyId = some oldId &&
      (keyTable.find ev.before oldId).any fun old => ev.before.live old now
  | _ => false

/-- What a run leaves behind. -/
structure Lineage (w : KeyWorld) : Prop where
  oneSuccessor : ∀ k ∈ w.db.keys, ∀ k' ∈ w.db.keys, ∀ o, k.rotatedFromKeyId = some o →
    k'.rotatedFromKeyId = some o → k = k'
  revokedForever : ∀ ev ∈ w.log, ∀ n k t, keyTable.find ev.after n = some k →
    k.revokedAt = some t → ∃ k', keyTable.find w.db n = some k' ∧ k'.revokedAt = some t
  arises : ∀ ev ∈ w.log, ∀ k ∈ ev.after.keys, k.id ∉ keyTable.ids ev.before → ∀ t,
    ev.after.live k t = true → Arises ev k = true

section Lineage

variable {p : Principals} {clock : ℕ} {ok : State KeyDb KeyLock KeyAnswer → Label KeyCall → Prop}
  {s : State KeyDb KeyLock KeyAnswer}

/-- No key yet. -/
lemma keyHistory_init (p : Principals) (clock : ℕ) : KeyHistory (p.world clock) where
  keys := ⟨List.nodup_nil, fun _ hk => nomatch hk⟩
  users := ⟨p.nodup, p.drawn⟩
  parents _ hk := nomatch hk
  oneSuccessor _ hk := nomatch hk
  persists _ hev := nomatch hev
  origins _ hev := nomatch hev
  active _ hev := nomatch hev

lemma sound_of_reaches (h : (keySessions p clock).Reaches ok s) : Sound keyProtocol s :=
  Sound.of_reaches keyCall_keeps (fun _ _ _ _ => trivial) (keyHistory_init p clock) h
    fun _ _ => trivial

/-- A new key that is live has been issued, or its parent was live. -/
lemma arises_of_origin {w : KeyWorld} (hw : KeyHistory w) {ev : KeyEnd} (hev : ev ∈ w.log)
    (hrotates : RotatesExpired ev = false) {k : ApiKey} (hk : Origin ev k) {t : ℕ}
    (hlive : ev.after.live k t = true) : Arises ev k = true := by
  rcases hk with ⟨hroot, hanswer⟩ | ⟨old, now, hanswer, hparent, huser, hold, hfree⟩
  · simp [Arises, hanswer, hroot]
  · obtain ⟨r, hr, hlive⟩ := (Option.any_eq_true _ _).1 hlive
    obtain ⟨u, hu, rfl⟩ := Option.map_eq_some_iff.1 hr
    simp only [isMachineKeyLive, Bool.and_eq_true, Option.isNone_iff_eq_none] at hlive
    obtain ⟨u₀, hu₀, hactive⟩ := hw.active ev hev _ u hu hlive.1.2
    have hrevoked : old.revokedAt = none := by
      rw [ApiKey.superseded, Bool.or_eq_false_iff] at hfree
      exact Option.not_isSome_iff_eq_none.1 (by rw [hfree.1]; exact Bool.false_ne_true)
    have hunexpired : old.unexpired now = true := by
      rcases hanswer with hanswer | hanswer
      · simpa [RotatesExpired, hanswer, hold] using hrotates
      · simpa [RotatesExpired, hanswer, hold] using hrotates
    have hjoined : ev.before.joined old = some (old, u₀) := by
      rw [KeyDb.joined, ← huser, hu₀]
      rfl
    have hparentLive : ev.before.live old now = true := by
      rw [KeyDb.live, hjoined]
      simp [isMachineKeyLive, hrevoked, hactive, hunexpired]
    rcases hanswer with hanswer | hanswer
    · simp [Arises, hanswer, hparent, hold, hparentLive]
    · simp [Arises, hanswer, hparent, hold, hparentLive]

lemma lineage_of_history {w : KeyWorld} (hw : KeyHistory w)
    (hrotates : ∀ ev ∈ w.log, RotatesExpired ev = false) : Lineage w where
  oneSuccessor := hw.oneSuccessor
  revokedForever ev hev n k t hk ht := by
    obtain ⟨k', hk', hlater⟩ := (hw.persists ev hev).keys n k hk
    exact ⟨k', hk', hlater.revokedAt t ht⟩
  arises ev hev k hk hnew t hlive :=
    arises_of_origin hw hev (hrotates ev hev) (hw.origins ev hev k hk hnew) hlive

/-- Requests are refused from the death of a key on. -/
lemma refuses_of_sound (hs : Sound keyProtocol s) : Refuses p clock s := by
  intro ev hev n hdead i call hrequest s₁ t t' b ev' hopens hsteps hlast hlog
  have hnow : Dead s.world.db n := (hs.inv.persists ev hev).dead hdead
  change Db.step keyCall s (.opens i call) = some s₁ at hopens
  have hs₁ : Sound keyProtocol s₁ :=
    hs.step keyCall_keeps hopens (fun _ _ _ => trivial) fun _ _ => trivial
  have hwatched : Watched keyProtocol (fun _ _ => True) (fun ev => ¬ GetsThrough n ev) i s₁ := by
    refine Watched.opens hs hs₁ hopens ?_
    cases hrequest with
    | exchange keyHash => exact ends_exchange _ keyHash hnow
    | verify claims => exact ends_verify _ claims hnow
  refine hwatched.ended keyCall_keeps (fun s j call ha => ?_) hsteps hlast (fun _ _ => trivial) hlog
  rintro rfl
  exact ha call rfl

/-- **Lineage of keys**: in a run in which no key past its `expiresAt` is given a successor, keys
have one successor at most, are not revived, and come from nothing dead. -/
theorem key_lineage (h : (keySessions p clock).Reaches ok s)
    (hrotates : ∀ ev ∈ s.world.log, RotatesExpired ev = false) :
    Lineage s.world ∧ Refuses p clock s := by
  have hs := sound_of_reaches h
  exact ⟨lineage_of_history hs.inv hrotates, refuses_of_sound hs⟩

end Lineage

/-! ### An expired key -/

/-- One organization with one machine user. -/
def onePrincipal : Principals where
  users := [⟨0, 0, 0, false, none⟩]
  seq := 1
  nodup := by decide
  drawn := by decide

/-- A key that expires at `10` is rotated at the given time. -/
def rotatedAt (t : ℕ) : List (Label KeyCall) :=
  [.opens 0 (.issue 0 0 "ci" (some 10))] ++ [.runs 0 true, .runs 0 false] ++ Label.runsFor 0 2 ++
    [.runs 0 false, .runs 0 false, .tick t, .opens 1 (.rotate 0 0 2 60)] ++ Label.runsFor 1 5 ++
    [.runs 1 false, .runs 1 false]

/-- A run with a rotation before the key expires. -/
theorem key_lineage_live : ∃ s, (keySessions onePrincipal 0).Reaches (fun _ _ => True) s ∧
    s.world.db.keys.length = 2 ∧ Lineage s.world ∧ Refuses onePrincipal 0 s := by
  obtain ⟨s, hexec, htwo, hrotates⟩ := (keySessions onePrincipal 0).exists_of_exec
    (fun _ _ => True) (keySessions onePrincipal 0).init (rotatedAt 5)
    (fun s => s.world.db.keys.length = 2 ∧ ∀ ev ∈ s.world.log, RotatesExpired ev = false)
    (by decide +kernel)
  have hreach := Run.System.steps_of_exec hexec
  exact ⟨s, hreach, htwo, key_lineage hreach hrotates⟩

/-- A key that is rotated after it has expired lives on in its successor. -/
theorem expired_key_revived : ∃ s, (keySessions onePrincipal 0).Reaches (fun _ _ => True) s ∧
    ¬ Lineage s.world := by
  obtain ⟨s, hexec, ev, hev, k, hk, hnew, hlive, harises⟩ :=
    (keySessions onePrincipal 0).exists_of_exec (fun _ _ => True) (keySessions onePrincipal 0).init
      (rotatedAt 20)
      (fun s => ∃ ev ∈ s.world.log, ∃ k ∈ ev.after.keys, k.id ∉ keyTable.ids ev.before ∧
        ev.after.live k 20 = true ∧ ¬ Arises ev k = true) (by decide +kernel)
  refine ⟨s, Run.System.steps_of_exec hexec, fun h => ?_⟩
  exact harises (h.arises ev hev k hk hnew 20 hlive)

end ProjectVault.MachineUsers
