import ProjectVault.Db.Logic

/-!
How one session waits for locks and ends its transactions, whatever the others do.
-/

namespace Db

variable {D K R C α β : Type} (P : Protocol D K R) (S : Set K → List K → Prop)
  (G : Event D K R → Prop)
variable {code : C → Prog D K R Unit} {l : Local D K} {s s' : State D K R} {w : World D K R}
  {Q : Post D K R α} {i : ℕ}

/-- The weakest precondition for a program to wait for locks as `S` says of those it holds and those
it asks for, and to end its transactions as `G` says, whatever the others do before each of its
statements. -/
def ends : Prog D K R α → (α → Local D K → World D K R → Prop) → Local D K → World D K R → Prop
  | .pure a, Q => Q a
  | .start next, Q => fun l w => ∀ w', Rely P l.held w w' → P.inv w' →
      ends next Q { l with start := w'.clock } w'
  | .choose next, Q => fun l w => ∀ b, ends (next b) Q l w
  | .stmt keys wait writes next, Q => fun l w => ∀ w', Rely P l.held w w' → P.inv w' →
      (wait = true → S l.held (keys (l.ctx w'))) ∧
        ends (next true (l.ctx w')) Q (l.wrote (keys (l.ctx w')) (writes (l.ctx w'))) w'.bump ∧
        (wait = false → ends (next false (l.ctx w')) Q l w'.bump)
  | .commit r next, Q => fun l w => ∀ w' locked, Rely P l.held w w' → P.inv w' →
      G ⟨w'.db, r, l.pending w'.db, locked⟩ ∧
        ends next Q (.idle l.start) (w'.ended ⟨w'.db, r, l.pending w'.db, locked⟩)
  | .rollback r next, Q => fun l w => ∀ w' locked, Rely P l.held w w' → P.inv w' →
      G ⟨w'.db, r, w'.db, locked⟩ ∧
        ends next Q (.idle l.start) (w'.ended ⟨w'.db, r, w'.db, locked⟩)

variable {P S G}

lemma ends_progBind (Q : Post D K R β) (p : Prog D K R α)
    (f : α → Prog D K R β) : ends P S G (p.bind f) Q = ends P S G p fun a => ends P S G (f a) Q := by
  induction p with
  | pure a => rfl
  | start next ih => simp only [Prog.bind, ends, ih]
  | choose next ih => simp only [Prog.bind, ends, ih]
  | stmt keys wait writes next ih => simp only [Prog.bind, ends, ih]
  | commit r next ih => simp only [Prog.bind, ends, ih]
  | rollback r next ih => simp only [Prog.bind, ends, ih]

/-- The rule for sequencing. -/
@[simp] lemma ends_bind (Q : Post D K R β) (p : Prog D K R α)
    (f : α → Prog D K R β) : ends P S G (p >>= f) Q = ends P S G p fun a => ends P S G (f a) Q :=
  ends_progBind Q p f

/-- What the others do keeps it. -/
lemma ends.rely (hQ : ∀ a l w w', Rely P l.held w w' → Q a l w → Q a l w') (p : Prog D K R α)
    {w' : World D K R} (h : ends P S G p Q l w) (hr : Rely P l.held w w') :
    ends P S G p Q l w' := by
  induction p generalizing l w with
  | pure a => exact hQ a l w w' hr h
  | start next ih => exact fun w'' hr' hi => h w'' (hr.trans hr') hi
  | choose next ih => exact fun b => ih b (h b) hr
  | stmt keys wait writes next ih => exact fun w'' hr' hi => h w'' (hr.trans hr') hi
  | commit r next ih => exact fun w'' locked hr' hi => h w'' locked (hr.trans hr') hi
  | rollback r next ih => exact fun w'' locked hr' hi => h w'' locked (hr.trans hr') hi

/-- The rule for the start of a transaction. -/
lemma ends_beginTx {Q : Post D K R Unit}
    (h : ∀ w', Rely P l.held w w' → P.inv w' → Q () { l with start := w'.clock } w') :
    ends P S G Prog.beginTx Q l w :=
  h

/-- The rule for a read. -/
lemma ends_query {f : Ctx D → α} (hS : S l.held [])
    (h : ∀ w', Rely P l.held w w' → P.inv w' → Q (f (l.ctx w')) l w'.bump) :
    ends P S G (Prog.query f) Q l w := by
  intro w' hr hi
  refine ⟨fun _ => hS, ?_, by simp⟩
  rw [Local.wrote_nil]
  exact h w' hr hi

/-- The rule for a write. -/
lemma ends_update {keys : Ctx D → List K} {writes : Ctx D → D → D} {f : Ctx D → α}
    (h : ∀ w', Rely P l.held w w' → P.inv w' → S l.held (keys (l.ctx w')) ∧
      Q (f (l.ctx w')) (l.wrote (keys (l.ctx w')) (writes (l.ctx w'))) w'.bump) :
    ends P S G (Prog.update keys writes f) Q l w :=
  fun w' hr hi => ⟨fun _ => (h w' hr hi).1, (h w' hr hi).2, by simp⟩

/-- The rule for an open branch. -/
lemma ends_either {Q : Post D K R Bool} (h : ∀ b, Q b l w) :
    ends P S G Prog.either Q l w :=
  h

/-- The rule for a lock that is not waited for. -/
lemma ends_tryLock {Q : Post D K R Bool} {k : K}
    (h : ∀ w', Rely P l.held w w' → P.inv w' → Q true (l.wrote [k] id) w'.bump ∧ Q false l w'.bump)
    : ends P S G (Prog.tryLock k) Q l w :=
  fun w' hr hi => ⟨nofun, (h w' hr hi).1, fun _ => (h w' hr hi).2⟩

/-- The rule for `COMMIT`. -/
lemma ends_commitTx {Q : Post D K R Unit} {r : R}
    (hG : ∀ ev, ev.answer = r → G ev) (hQ : ∀ l' w', Q () l' w') :
    ends P S G (Prog.commitTx r) Q l w :=
  fun _ _ _ _ => ⟨hG _ rfl, hQ _ _⟩

/-- The rule for `ROLLBACK`. -/
lemma ends_rollbackTx {Q : Post D K R Unit} {r : R}
    (hG : ∀ ev, ev.answer = r → G ev) (hQ : ∀ l' w', Q () l' w') :
    ends P S G (Prog.rollbackTx r) Q l w :=
  fun _ _ _ _ => ⟨hG _ rfl, hQ _ _⟩

/-! ### Along a run -/

/-- What a session notices of a step of the others. -/
structure Aside (P : Protocol D K R) (i : ℕ) (s s' : State D K R) : Prop where
  session : s'.session i = s.session i
  held : s'.heldBy i = s.heldBy i
  rely : Rely P (s.heldBy i) s.world s'.world

/-- A sound state in which a session waits for locks as `S` says and ends its transactions as `G`
says. -/
structure Watched (P : Protocol D K R) (S : Set K → List K → Prop) (G : Event D K R → Prop) (i : ℕ)
    (s : State D K R) : Prop where
  sound : Sound P s
  ends : ∀ e, s.session i = some e →
    Db.ends P S G e.prog (fun _ _ _ => True) (s.localOf i e) s.world

lemma Watched.aside (h : Watched P S G i s) (hs' : Sound P s') (ha : Aside P i s s') :
    Watched P S G i s' := by
  refine ⟨hs', fun e he => ?_⟩
  rw [ha.session] at he
  have hlocal : s'.localOf i e = s.localOf i e := by simp only [State.localOf, ha.held]
  rw [hlocal]
  exact (h.ends e he).rely (fun _ _ _ _ _ _ => trivial) _ ha.rely

variable [DecidableEq K]

/-- Another session runs. -/
lemma Sound.aside_advance (hs : Sound P s) (hadm : ∀ ev ∈ s'.world.log, P.admits ev) {j : ℕ}
    (hji : j ≠ i) {e : Session D K R} {b : Bool} (hj : s.session j = some e)
    (h : s.advance j e b = some s') : Aside P i s s' := by
  have hsafe := hs.safe j e hj
  have hother : i ≠ j := hji.symm
  unfold State.advance at h
  cases hp : e.prog with
  | pure a => simp [hp] at h
  | start next =>
    simp only [hp, Option.some.injEq] at h
    subst h
    exact ⟨if_neg hother, rfl, Rely.refl _ _⟩
  | choose next =>
    simp only [hp, Option.some.injEq] at h
    subst h
    exact ⟨if_neg hother, rfl, Rely.refl _ _⟩
  | stmt keys wait writes next =>
    simp only [hp] at h
    split_ifs at h with hfree hwait
    · simp only [Option.some.injEq] at h
      have howner : s'.owner = acquireOwner s.owner j (keys (e.ctx s.world)) := by rw [← h]
      obtain ⟨-, hothers⟩ := heldBy_acquire s s' hfree howner
      subst h
      exact ⟨if_neg hother, hothers i hother, World.bump_rely _⟩
    · cases h
      exact ⟨if_neg hother, rfl, World.bump_rely _⟩
  | commit r next =>
    rw [hp] at hsafe
    simp only [hp, Option.some.injEq] at h
    obtain ⟨-, hothers⟩ := heldBy_release s s' (i := j) (by rw [← h])
    subst h
    have hev : P.admits ⟨s.world.db, r, e.pending s.world.db, s.lockedByOthers j⟩ :=
      hadm _ List.mem_cons_self
    obtain ⟨hmove, -⟩ := hsafe s.world _ (Rely.refl _ _) hs.inv hev
    exact ⟨if_neg hother, hothers i hother, RelyStep.rely (.move (s.heldBy j)
      (s.disjoint_heldBy hother) (s.lockedByOthers_of_heldBy hother) rfl hs.inv hev hmove)⟩
  | rollback r next =>
    rw [hp] at hsafe
    simp only [hp, Option.some.injEq] at h
    obtain ⟨-, hothers⟩ := heldBy_release s s' (i := j) (by rw [← h])
    subst h
    have hev : P.admits ⟨s.world.db, r, s.world.db, s.lockedByOthers j⟩ :=
      hadm _ List.mem_cons_self
    obtain ⟨hmove, -⟩ := hsafe s.world _ (Rely.refl _ _) hs.inv hev
    exact ⟨if_neg hother, hothers i hother, RelyStep.rely (.move (s.heldBy j)
      (s.disjoint_heldBy hother) (s.lockedByOthers_of_heldBy hother) rfl hs.inv hev hmove)⟩

/-- A step, for a session that holds nothing. -/
lemma Sound.rely_step {a : Label C} (hs : Sound P s) (hadm : ∀ ev ∈ s'.world.log, P.admits ev)
    (h : Db.step code s a = some s') :
    Rely P ∅ s.world s'.world := by
  cases a with
  | opens j call =>
    simp only [Db.step] at h
    cases hj : s.session j with
    | some e => simp [hj] at h
    | none =>
      simp only [hj, Option.some.injEq] at h
      subst h
      exact Rely.refl _ _
  | runs j b =>
    obtain ⟨e, hj, hadv⟩ := Option.bind_eq_some_iff.1 h
    have haside := hs.aside_advance hadm (Nat.lt_succ_self j).ne hj hadv
    exact haside.rely.anti (Set.empty_subset _)
  | closes j =>
    simp only [Db.step, Option.some.injEq] at h
    subst h
    exact Rely.refl _ _
  | tick n =>
    simp only [Db.step, Option.some.injEq] at h
    subst h
    exact RelyStep.rely (.later le_rfl (Nat.le_add_right _ _))

/-- **Progress rule**: what the transactions of a protocol keep holds from any state of a run on. -/
theorem Sound.rely_steps (hcode : Keeps P code fun _ => True) {ok : State D K R → Label C → Prop}
    {w₀ : World D K R} {t : State D K R} (hs : Sound P s) (h : (sessions code w₀).Steps ok s t)
    (hadm : ∀ ev ∈ t.world.log, P.admits ev) :
    Rely P ∅ s.world t.world := by
  have hkept : (∀ ev ∈ t.world.log, P.admits ev) → Sound P t ∧ Rely P ∅ s.world t.world := by
    refine Run.System.Steps.invariant
      (P := fun u => (∀ ev ∈ u.world.log, P.admits ev) → Sound P u ∧ Rely P ∅ s.world u.world) ?_ h
      fun _ => ⟨hs, Rely.refl _ _⟩
    intro u a u' hu _ hstep hadm'
    have hsuffix := log_suffix_of_step hstep
    obtain ⟨hsound, hrely⟩ := hu fun ev hev => hadm' ev (hsuffix.subset hev)
    exact ⟨hsound.step hcode hstep (fun _ _ _ => trivial) hadm',
      hrely.trans (hsound.rely_step hadm' hstep)⟩
  exact (hkept hadm).2

/-- The session itself runs: what it ends is one of `G`. -/
lemma Watched.advance (h : Watched P S G i s) (hs' : Sound P s') {e : Session D K R} {b : Bool}
    (hi : s.session i = some e) (hadv : s.advance i e b = some s') :
    Watched P S G i s' ∧ ∀ ev, s'.world.log = ev :: s.world.log → G ev := by
  have hends := h.ends e hi
  have hinv := h.sound.inv
  have hsame : ∀ ev, s.world.log ≠ ev :: s.world.log := fun ev heq => by
    have := congrArg List.length heq
    simp at this
  unfold State.advance at hadv
  cases hp : e.prog with
  | pure a => simp [hp] at hadv
  | start next =>
    rw [hp] at hends
    simp only [hp, Option.some.injEq] at hadv
    subst hadv
    refine ⟨⟨hs', fun f hf => ?_⟩, fun ev hev => (hsame ev hev).elim⟩
    obtain rfl := Option.some.inj ((if_pos rfl).symm.trans hf)
    exact hends s.world (Rely.refl _ _) hinv
  | choose next =>
    rw [hp] at hends
    simp only [hp, Option.some.injEq] at hadv
    subst hadv
    refine ⟨⟨hs', fun f hf => ?_⟩, fun ev hev => (hsame ev hev).elim⟩
    obtain rfl := Option.some.inj ((if_pos rfl).symm.trans hf)
    exact hends b
  | stmt keys wait writes next =>
    rw [hp] at hends
    obtain ⟨-, htaken, hskipped⟩ := hends s.world (Rely.refl _ _) hinv
    simp only [hp] at hadv
    split_ifs at hadv with hfree hwait
    · simp only [Option.some.injEq] at hadv
      have howner : s'.owner = acquireOwner s.owner i (keys (e.ctx s.world)) := by rw [← hadv]
      obtain ⟨hmine, -⟩ := heldBy_acquire s s' hfree howner
      subst hadv
      refine ⟨⟨hs', fun f hf => ?_⟩, fun ev hev => (hsame ev hev).elim⟩
      obtain rfl := Option.some.inj ((if_pos rfl).symm.trans hf)
      simp only [State.localOf, hmine]
      exact htaken
    · cases hadv
      refine ⟨⟨hs', fun f hf => ?_⟩, fun ev hev => (hsame ev hev).elim⟩
      obtain rfl := Option.some.inj ((if_pos rfl).symm.trans hf)
      exact hskipped (by simpa using hwait)
  | commit r next =>
    rw [hp] at hends
    simp only [hp, Option.some.injEq] at hadv
    obtain ⟨hmine, -⟩ := heldBy_release s s' (i := i) (by rw [← hadv])
    subst hadv
    obtain ⟨hG, hnext⟩ := hends s.world (s.lockedByOthers i) (Rely.refl _ _) hinv
    refine ⟨⟨hs', fun f hf => ?_⟩, fun ev hev => (List.cons.inj hev).1 ▸ hG⟩
    obtain rfl := Option.some.inj ((if_pos rfl).symm.trans hf)
    simp only [State.localOf, hmine]
    exact hnext
  | rollback r next =>
    rw [hp] at hends
    simp only [hp, Option.some.injEq] at hadv
    obtain ⟨hmine, -⟩ := heldBy_release s s' (i := i) (by rw [← hadv])
    subst hadv
    obtain ⟨hG, hnext⟩ := hends s.world (s.lockedByOthers i) (Rely.refl _ _) hinv
    refine ⟨⟨hs', fun f hf => ?_⟩, fun ev hev => (List.cons.inj hev).1 ▸ hG⟩
    obtain rfl := Option.some.inj ((if_pos rfl).symm.trans hf)
    simp only [State.localOf, hmine]
    exact hnext

/-- A session is opened with such a program. -/
lemma Watched.opens {call : C} (hs : Sound P s) (hs' : Sound P s')
    (h : step code s (.opens i call) = some s')
    (hends : Db.ends P S G (code call) (fun _ _ _ => True) (.idle s.world.clock) s.world) :
    Watched P S G i s' := by
  refine ⟨hs', fun e he => ?_⟩
  simp only [step] at h
  cases hi : s.session i with
  | some e => simp [hi] at h
  | none =>
    simp only [hi, Option.some.injEq] at h
    subst h
    obtain rfl := Option.some.inj ((if_pos rfl).symm.trans he)
    have hvacant := hs.vacant i hi
    have hlocal : (s.put i (some ⟨s.world.clock, id, code call⟩)).localOf i
        ⟨s.world.clock, id, code call⟩ = .idle s.world.clock := by
      simp only [State.localOf, Local.idle, Local.mk.injEq, true_and, and_true]
      exact hvacant
    rw [hlocal]
    exact hends

/-- A step of the database keeps the watch, unless the place of the session is given away. -/
lemma Watched.step {allowed : C → Prop} (hcode : Keeps P code allowed) {a : Label C}
    (h : Watched P S G i s) (hs : Db.step code s a = some s')
    (hcalls : ∀ j call, a = .opens j call → allowed call ∧ j ≠ i)
    (hadm : ∀ ev ∈ s'.world.log, P.admits ev) : Watched P S G i s' := by
  have hs' : Sound P s' := h.sound.step hcode hs (fun j call ha => (hcalls j call ha).1) hadm
  cases a with
  | opens j call =>
    have hji : i ≠ j := (hcalls j call rfl).2.symm
    simp only [Db.step] at hs
    cases hj : s.session j with
    | some e => simp [hj] at hs
    | none =>
      simp only [hj, Option.some.injEq] at hs
      subst hs
      exact h.aside hs' ⟨if_neg hji, rfl, Rely.refl _ _⟩
  | runs j b =>
    obtain ⟨e, hj, hadv⟩ := Option.bind_eq_some_iff.1 hs
    by_cases hji : j = i
    · subst hji
      exact (h.advance hs' hj hadv).1
    · exact h.aside hs' (h.sound.aside_advance hadm hji hj hadv)
  | closes j =>
    simp only [Db.step, Option.some.injEq] at hs
    obtain ⟨-, hothers⟩ := heldBy_release s s' (i := j) (by rw [← hs])
    subst hs
    by_cases hji : i = j
    · refine ⟨hs', fun e he => ?_⟩
      cases (if_pos hji).symm.trans he
    · exact h.aside hs' ⟨if_neg hji, hothers i hji, Rely.refl _ _⟩
  | tick n =>
    simp only [Db.step, Option.some.injEq] at hs
    subst hs
    exact h.aside hs' ⟨rfl, rfl, RelyStep.rely (.later le_rfl (Nat.le_add_right _ _))⟩

/-- **Watch rule**: from its opening on, a session ends its transactions as `G` says, whatever
the others do. -/
theorem Watched.ended (hcode : Keeps P code fun _ => True) {w₀ : World D K R}
    {ok : State D K R → Label C → Prop} (hok : ∀ s j call, ok s (.opens j call) → j ≠ i)
    {t t' : State D K R} (h : Watched P S G i s) (hsteps : (sessions code w₀).Steps ok s t)
    {b : Bool} (hlast : Db.step code t (.runs i b) = some t')
    (hadm : ∀ ev ∈ t'.world.log, P.admits ev) {ev : Event D K R}
    (hev : t'.world.log = ev :: t.world.log) : G ev := by
  have hadm' : ∀ ev ∈ t.world.log, P.admits ev := fun ev' hev' =>
    hadm ev' (hev ▸ List.mem_cons_of_mem ev hev')
  have hwatched : (∀ ev ∈ t.world.log, P.admits ev) → Watched P S G i t := by
    refine Run.System.Steps.invariant
      (P := fun s => (∀ ev ∈ s.world.log, P.admits ev) → Watched P S G i s) ?_ hsteps fun _ => h
    intro s a s' hs ha hstep hadm''
    have hsuffix := log_suffix_of_step hstep
    refine (hs fun ev hev => hadm'' ev (hsuffix.subset hev)).step hcode hstep ?_ hadm''
    rintro j call rfl
    exact ⟨trivial, hok s j call ha⟩
  obtain ⟨e, hi, hadv⟩ := Option.bind_eq_some_iff.1 hlast
  have ht := hwatched hadm'
  have ht' : Sound P t' := by
    refine ht.sound.step hcode hlast (fun j call ha => ?_) hadm
    nomatch ha
  exact (ht.advance ht' hi hadv).2 ev hev

end Db
