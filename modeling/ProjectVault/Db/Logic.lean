import ProjectVault.Db.Session

/-!
Rely/guarantee reasoning about the sessions of `Db.Session`.
-/

namespace Db

variable {D K R C α β : Type}
variable {code : C → Prog D K R Unit} {held : Set K} {s s' : State D K R} {w w' : World D K R}
  {i : ℕ}

/-! ### Protocols -/

/-- The agreement of the sessions: `inv` holds of the committed rows between
transactions; a transaction that ends with the locks `held` and an answer, while
the others hold the locks of the event, may change the rows as `move` says;
`admits` is assumed of the ends of transactions. -/
structure Protocol (D K R : Type) where
  inv : World D K R → Prop
  move : Set K → World D K R → Event D K R → Prop
  admits : Event D K R → Prop := fun _ => True
  inv_move : ∀ {held w ev}, inv w → ev.before = w.db → admits ev → move held w ev →
    inv (w.ended ev)
  inv_later : ∀ {w n t}, inv w → w.seq ≤ n → w.clock ≤ t → inv { w with seq := n, clock := t }

variable (P : Protocol D K R)

/-- One change that the sessions without the locks `held` can make. -/
inductive RelyStep (held : Set K) : World D K R → World D K R → Prop where
  | move {w : World D K R} {ev : Event D K R} (other : Set K) (hdisj : Disjoint held other)
      (hlocked : ∀ k ∈ held, ev.locked k = true) (hbefore : ev.before = w.db) (hinv : P.inv w)
      (hadm : P.admits ev) (hmove : P.move other w ev) :
      RelyStep held w (w.ended ev)
  | later {w : World D K R} {n t : ℕ} (hn : w.seq ≤ n) (ht : w.clock ≤ t) :
      RelyStep held w { w with seq := n, clock := t }

/-- What the sessions without the locks `held` can do. -/
def Rely (held : Set K) : World D K R → World D K R → Prop := Relation.ReflTransGen (RelyStep P held)

variable {P}

lemma Rely.refl (held : Set K) (w : World D K R) : Rely P held w w := Relation.ReflTransGen.refl

lemma Rely.trans {w₁ w₂ w₃ : World D K R} (h : Rely P held w₁ w₂) (h' : Rely P held w₂ w₃) :
    Rely P held w₁ w₃ :=
  Relation.ReflTransGen.trans h h'

lemma RelyStep.rely (h : RelyStep P held w w') :
    Rely P held w w' :=
  Relation.ReflTransGen.single h

/-- **Stability rule**: what every change by the others keeps is kept for as long as
the locks are held. -/
lemma Rely.stable {A : World D K R → Prop}
    (hmove : ∀ other w ev, Disjoint held other → (∀ k ∈ held, ev.locked k = true) →
      ev.before = w.db → P.inv w → P.admits ev → P.move other w ev → A w →
        A (w.ended ev))
    (hlater : ∀ w n t, w.seq ≤ n → w.clock ≤ t → A w → A { w with seq := n, clock := t })
    (h : Rely P held w w') (hA : A w) : A w' := by
  induction h with
  | refl => exact hA
  | tail _ hlast ih =>
    cases hlast with
    | move other hdisj hlocked hbefore hinv hadm hm =>
      exact hmove other _ _ hdisj hlocked hbefore hinv hadm hm ih
    | later hn ht => exact hlater _ _ _ hn ht ih

/-- The sequence and the clock never go back. -/
lemma Rely.le (h : Rely P held w w') :
    w.seq ≤ w'.seq ∧ w.clock ≤ w'.clock := by
  refine Rely.stable (A := fun v => w.seq ≤ v.seq ∧ w.clock ≤ v.clock) ?_ ?_ h ⟨le_rfl, le_rfl⟩
  · exact fun _ _ _ _ _ _ _ _ _ hA => hA
  · exact fun v n t hn ht hA => ⟨hA.1.trans hn, hA.2.trans ht⟩

/-! ### Weakest preconditions -/

/-- The part of a state that belongs to one session. -/
structure Local (D K : Type) where
  start : ℕ
  held : Set K
  pending : D → D

/-- A session with no open transaction. -/
def Local.idle (start : ℕ) : Local D K := ⟨start, ∅, id⟩

/-- What the next statement reads. -/
def Local.ctx (l : Local D K) (w : World D K R) : Ctx D := ⟨l.pending w.db, l.start, w.clock, w.seq⟩

/-- The session after a statement that took the locks `keys` and wrote `writes`. -/
def Local.wrote (l : Local D K) (keys : List K) (writes : D → D) : Local D K :=
  { l with held := l.held ∪ {k | k ∈ keys}, pending := writes ∘ l.pending }

/-- A postcondition. -/
abbrev Post (D K R α : Type) : Type := α → Local D K → World D K R → Prop

variable (P)

/-- The weakest precondition of a program: whatever the others do before each of its
statements, every transaction it ends is one the protocol allows. -/
def wp : Prog D K R α → (α → Local D K → World D K R → Prop) → Local D K → World D K R → Prop
  | .pure a, Q => Q a
  | .start next, Q => fun l w => ∀ w', Rely P l.held w w' → P.inv w' →
      wp next Q { l with start := w'.clock } w'
  | .choose next, Q => fun l w => ∀ b, wp (next b) Q l w
  | .stmt keys wait writes next, Q => fun l w => ∀ w', Rely P l.held w w' → P.inv w' →
      wp (next true (l.ctx w')) Q (l.wrote (keys (l.ctx w')) (writes (l.ctx w'))) w'.bump ∧
        (wait = false → wp (next false (l.ctx w')) Q l w'.bump)
  | .commit r next, Q => fun l w => ∀ w' locked, Rely P l.held w w' → P.inv w' →
      P.admits ⟨w'.db, r, l.pending w'.db, locked⟩ →
      P.move l.held w' ⟨w'.db, r, l.pending w'.db, locked⟩ ∧
        wp next Q (.idle l.start) (w'.ended ⟨w'.db, r, l.pending w'.db, locked⟩)
  | .rollback r next, Q => fun l w => ∀ w' locked, Rely P l.held w w' → P.inv w' →
      P.admits ⟨w'.db, r, w'.db, locked⟩ →
      P.move l.held w' ⟨w'.db, r, w'.db, locked⟩ ∧
        wp next Q (.idle l.start) (w'.ended ⟨w'.db, r, w'.db, locked⟩)

variable {P}
variable {l : Local D K} {Q : Post D K R α}

/-- The rule of consequence. -/
lemma wp.mono {Q' : Post D K R α} (hQ : ∀ a l w, Q a l w → Q' a l w)
    (p : Prog D K R α) (h : wp P p Q l w) : wp P p Q' l w := by
  induction p generalizing l w with
  | pure a => exact hQ a l w h
  | start next ih => exact fun w' hr hi => ih (h w' hr hi)
  | choose next ih => exact fun b => ih b (h b)
  | stmt keys wait writes next ih =>
    intro w' hr hi
    obtain ⟨h₁, h₂⟩ := h w' hr hi
    exact ⟨ih _ _ h₁, fun hw => ih _ _ (h₂ hw)⟩
  | commit r next ih =>
    intro w' locked hr hi ha
    obtain ⟨h₁, h₂⟩ := h w' locked hr hi ha
    exact ⟨h₁, ih h₂⟩
  | rollback r next ih =>
    intro w' locked hr hi ha
    obtain ⟨h₁, h₂⟩ := h w' locked hr hi ha
    exact ⟨h₁, ih h₂⟩

/-- Nothing left to do. -/
@[simp] lemma wp_pure (Q : Post D K R α) (a : α) :
    wp P (pure a : Prog D K R α) Q = Q a :=
  rfl

lemma wp_progBind (Q : Post D K R β) (p : Prog D K R α)
    (f : α → Prog D K R β) : wp P (p.bind f) Q = wp P p fun a => wp P (f a) Q := by
  induction p with
  | pure a => rfl
  | start next ih => simp only [Prog.bind, wp, ih]
  | choose next ih => simp only [Prog.bind, wp, ih]
  | stmt keys wait writes next ih => simp only [Prog.bind, wp, ih]
  | commit r next ih => simp only [Prog.bind, wp, ih]
  | rollback r next ih => simp only [Prog.bind, wp, ih]

/-- The rule for sequencing. -/
@[simp] lemma wp_bind (Q : Post D K R β) (p : Prog D K R α)
    (f : α → Prog D K R β) : wp P (p >>= f) Q = wp P p fun a => wp P (f a) Q :=
  wp_progBind Q p f

/-- A precondition is not spoiled by the other sessions. -/
lemma wp.rely (hQ : ∀ a l w w', Rely P l.held w w' → Q a l w → Q a l w') (p : Prog D K R α)
    (h : wp P p Q l w) (hr : Rely P l.held w w') :
    wp P p Q l w' := by
  induction p generalizing l w with
  | pure a => exact hQ a l w w' hr h
  | start next ih => exact fun w'' hr' hi => h w'' (hr.trans hr') hi
  | choose next ih => exact fun b => ih b (h b) hr
  | stmt keys wait writes next ih => exact fun w'' hr' hi => h w'' (hr.trans hr') hi
  | commit r next ih => exact fun w'' locked hr' hi => h w'' locked (hr.trans hr') hi
  | rollback r next ih => exact fun w'' locked hr' hi => h w'' locked (hr.trans hr') hi

lemma Local.wrote_nil (l : Local D K) : l.wrote [] id = l := by
  simp [Local.wrote]

/-- The rule for the start of a transaction. -/
lemma wp_beginTx {Q : Post D K R Unit}
    (h : ∀ w', Rely P l.held w w' → P.inv w' → Q () { l with start := w'.clock } w') :
    wp P Prog.beginTx Q l w :=
  h

/-- The rule for an open branch. -/
lemma wp_either {Q : Post D K R Bool} (h : ∀ b, Q b l w) :
    wp P Prog.either Q l w :=
  h

/-- The rule for `COMMIT`. -/
lemma wp_commitTx {Q : Post D K R Unit} {r : R}
    (h : ∀ w' locked, Rely P l.held w w' → P.inv w' →
      P.admits ⟨w'.db, r, l.pending w'.db, locked⟩ →
      P.move l.held w' ⟨w'.db, r, l.pending w'.db, locked⟩ ∧
        Q () (.idle l.start) (w'.ended ⟨w'.db, r, l.pending w'.db, locked⟩)) :
    wp P (Prog.commitTx r) Q l w :=
  h

/-- The rule for `ROLLBACK`. -/
lemma wp_rollbackTx {Q : Post D K R Unit} {r : R}
    (h : ∀ w' locked, Rely P l.held w w' → P.inv w' → P.admits ⟨w'.db, r, w'.db, locked⟩ →
      P.move l.held w' ⟨w'.db, r, w'.db, locked⟩ ∧
        Q () (.idle l.start) (w'.ended ⟨w'.db, r, w'.db, locked⟩)) :
    wp P (Prog.rollbackTx r) Q l w :=
  h

/-- The rule for a read. -/
lemma wp_query {f : Ctx D → α}
    (h : ∀ w', Rely P l.held w w' → P.inv w' → Q (f (l.ctx w')) l w'.bump) :
    wp P (Prog.query f) Q l w := by
  intro w' hr hi
  refine ⟨?_, by simp⟩
  rw [Local.wrote_nil]
  exact h w' hr hi

/-- The rule for a lock. -/
lemma wp_lock {Q : Post D K R Unit} {k : K}
    (h : ∀ w', Rely P l.held w w' → P.inv w' → Q () (l.wrote [k] id) w'.bump) :
    wp P (Prog.lock k) Q l w := by
  intro w' hr hi
  exact ⟨h w' hr hi, by simp⟩

/-- The rule for a lock that may be refused. -/
lemma wp_tryLock {Q : Post D K R Bool} {k : K}
    (h : ∀ w', Rely P l.held w w' → P.inv w' → Q true (l.wrote [k] id) w'.bump ∧ Q false l w'.bump)
    :
    wp P (Prog.tryLock k) Q l w := by
  intro w' hr hi
  exact ⟨(h w' hr hi).1, fun _ => (h w' hr hi).2⟩

/-- The rule for a write. -/
lemma wp_update {keys : Ctx D → List K} {writes : Ctx D → D → D} {f : Ctx D → α}
    (h : ∀ w', Rely P l.held w w' → P.inv w' →
      Q (f (l.ctx w')) (l.wrote (keys (l.ctx w')) (writes (l.ctx w'))) w'.bump) :
    wp P (Prog.update keys writes f) Q l w := by
  intro w' hr hi
  exact ⟨h w' hr hi, by simp⟩

/-- The rule for a loop: what every round keeps holds after the last one. -/
lemma wp_forEach {I : Local D K → World D K R → Prop} {f : α → Prog D K R Unit} {as : List α}
    (hround : ∀ a ∈ as, ∀ l w, I l w → wp P (f a) (fun _ => I) l w) (h : I l w) :
    wp P (Prog.forEach as f) (fun _ => I) l w := by
  induction as generalizing l w with
  | nil => exact h
  | cons a as ih =>
    rw [Prog.forEach, wp_progBind]
    refine wp.mono ?_ _ (hround a List.mem_cons_self l w h)
    intro _ l' w' hI
    exact ih (fun b hb => hround b (List.mem_cons_of_mem a hb)) hI

lemma World.bump_rely (w : World D K R) : Rely P held w w.bump :=
  RelyStep.rely (.later (Nat.le_succ _) le_rfl)

/-- Who holds more locks relies on more. -/
lemma Rely.anti {held' : Set K} (hsub : held ⊆ held') (h : Rely P held' w w') :
    Rely P held w w' := by
  refine Relation.ReflTransGen.mono (fun v v' hstep => ?_) _ _ h
  cases hstep with
  | move other hdisj hlocked hbefore hinv hadm hmove =>
    exact .move other (hdisj.mono_left hsub) (fun k hk => hlocked k (hsub hk)) hbefore hinv hadm
      hmove
  | later hn ht => exact .later hn ht

variable (P) in
/-- A later point of the same transaction. -/
structure Later (l : Local D K) (w : World D K R) (l' : Local D K) (w' : World D K R) : Prop where
  held : l.held ⊆ l'.held
  rely : Rely P l.held w w'

lemma Later.refl (l : Local D K) (w : World D K R) : Later P l w l w :=
  ⟨Set.Subset.rfl, Rely.refl _ _⟩

lemma Later.trans {l' l'' : Local D K} {w'' : World D K R} (h : Later P l w l' w')
    (h' : Later P l' w' l'' w'') : Later P l w l'' w'' :=
  ⟨h.held.trans h'.held, h.rely.trans (h'.rely.anti h.held)⟩

/-- Others have run, then a statement of the transaction. -/
lemma Later.stmt {l' : Local D K} (hr : Rely P l.held w w') (hsub : l.held ⊆ l'.held) :
    Later P l w l' w'.bump :=
  ⟨hsub, hr.trans (World.bump_rely w')⟩

lemma Local.held_wrote (l : Local D K) (keys : List K) (writes : D → D) :
    l.held ⊆ (l.wrote keys writes).held :=
  fun _ hk => Or.inl hk

/-! ### Soundness -/

/-- The locks of a session. -/
def State.heldBy (s : State D K R) (i : ℕ) : Set K := {k | s.owner k = some i}

/-- The local part of a session. -/
def State.localOf (s : State D K R) (i : ℕ) (e : Session D K R) : Local D K :=
  ⟨e.startedAt, s.heldBy i, e.pending⟩

/-- What soundness keeps along a run. -/
structure Sound (P : Protocol D K R) (s : State D K R) : Prop where
  inv : P.inv s.world
  safe : ∀ i e, s.session i = some e →
    wp P e.prog (fun _ _ _ => True) (s.localOf i e) s.world
  vacant : ∀ i, s.session i = none → s.heldBy i = ∅

lemma State.disjoint_heldBy (s : State D K R) {j : ℕ} (hij : i ≠ j) :
    Disjoint (s.heldBy i) (s.heldBy j) := by
  rw [Set.disjoint_left]
  intro k hi hj
  have : some i = some j := hi.symm.trans hj
  exact hij (Option.some.inj this)

lemma State.lockedByOthers_of_heldBy (s : State D K R) {j : ℕ} (hji : j ≠ i) :
    ∀ k ∈ s.heldBy j, s.lockedByOthers i k = true := by
  intro k hk
  have hown : s.owner k = some j := hk
  simp [State.lockedByOthers, hown, hji]

lemma heldBy_release (s s' : State D K R) (howner : s'.owner = releaseOwner s.owner i) :
    s'.heldBy i = ∅ ∧ ∀ j, j ≠ i → s'.heldBy j = s.heldBy j := by
  constructor
  · ext k
    simp only [State.heldBy, howner, releaseOwner, Set.mem_ofPred_eq, Set.mem_empty_iff_false,
      iff_false]
    split_ifs with h <;> simp [h]
  · intro j hj
    ext k
    simp only [State.heldBy, howner, releaseOwner, Set.mem_ofPred_eq]
    split_ifs with h
    · rw [h]
      simp [hj.symm]
    · exact Iff.rfl

lemma heldBy_acquire [DecidableEq K] (s s' : State D K R) {keys : List K}
    (hfree : s.free i keys = true) (howner : s'.owner = acquireOwner s.owner i keys) :
    s'.heldBy i = s.heldBy i ∪ {k | k ∈ keys} ∧ ∀ j, j ≠ i → s'.heldBy j = s.heldBy j := by
  simp only [State.free, List.all_eq_true, decide_eq_true_eq] at hfree
  constructor
  · ext k
    simp only [State.heldBy, howner, acquireOwner, Set.mem_ofPred_eq, Set.mem_union]
    split_ifs with h
    · simp [h]
    · simp [h]
  · intro j hj
    ext k
    simp only [State.heldBy, howner, acquireOwner, Set.mem_ofPred_eq]
    split_ifs with h
    · cases hfree k h with
      | inl hk => simp [hk, hj.symm]
      | inr hk => simp [hk]
    · exact Iff.rfl

/-- A step that moves one session only: the others are safe again because what
happened to the rows is something they rely on. -/
lemma Sound.moved (hs : Sound P s) (f : Session D K R)
    (hsession : s'.session = (s.put i (some f)).session) (hinv : P.inv s'.world)
    (hothers : ∀ j, j ≠ i → s'.heldBy j = s.heldBy j)
    (hrely : ∀ j, j ≠ i → Rely P (s.heldBy j) s.world s'.world)
    (hmine : wp P f.prog (fun _ _ _ => True) (s'.localOf i f) s'.world) : Sound P s' := by
  refine ⟨hinv, ?_, ?_⟩
  · intro j e hj
    rw [hsession] at hj
    by_cases hji : j = i
    · subst hji
      obtain rfl : f = e := by simpa [State.put] using hj
      exact hmine
    · have hj' : s.session j = some e := by simpa [State.put, hji] using hj
      have hlocal : s'.localOf j e = s.localOf j e := by
        simp only [State.localOf, hothers j hji]
      rw [hlocal]
      exact wp.rely (fun _ _ _ _ _ _ => trivial) _ (hs.safe j e hj') (hrely j hji)
  · intro j hj
    rw [hsession] at hj
    by_cases hji : j = i
    · simp [State.put, hji] at hj
    · rw [hothers j hji]
      exact hs.vacant j (by simpa [State.put, hji] using hj)

/-- One step of one session keeps everything sound. -/
lemma Sound.advance [DecidableEq K] (hs : Sound P s) (hadm : ∀ ev ∈ s'.world.log, P.admits ev)
    {e : Session D K R} {b : Bool} (hi : s.session i = some e) (h : s.advance i e b = some s') :
    Sound P s' := by
  have hsafe := hs.safe i e hi
  unfold State.advance at h
  cases hp : e.prog with
  | pure a => simp [hp] at h
  | start next =>
    rw [hp] at hsafe
    simp only [hp, Option.some.injEq] at h
    subst h
    refine hs.moved { e with startedAt := s.world.clock, prog := next } rfl hs.inv
      (fun _ _ => rfl) (fun _ _ => Rely.refl _ _) ?_
    exact hsafe s.world (Rely.refl _ _) hs.inv
  | choose next =>
    rw [hp] at hsafe
    simp only [hp, Option.some.injEq] at h
    subst h
    exact hs.moved { e with prog := next b } rfl hs.inv
      (fun _ _ => rfl) (fun _ _ => Rely.refl _ _) (hsafe b)
  | stmt keys wait writes next =>
    rw [hp] at hsafe
    obtain ⟨htaken, hskipped⟩ := hsafe s.world (Rely.refl _ _) hs.inv
    have hinv' : P.inv s.world.bump := P.inv_later hs.inv (Nat.le_succ _) le_rfl
    simp only [hp] at h
    split_ifs at h with hfree hwait
    · -- the locks were free
      simp only [Option.some.injEq] at h
      have howner : s'.owner = acquireOwner s.owner i (keys (e.ctx s.world)) := by rw [← h]
      obtain ⟨hmine, hothers⟩ := heldBy_acquire s s' hfree howner
      subst h
      refine hs.moved _ rfl hinv' hothers (fun _ _ => World.bump_rely _) ?_
      simp only [State.localOf, hmine]
      exact htaken
    · -- the statement goes on without them
      cases h
      exact hs.moved _ rfl hinv' (fun _ _ => rfl) (fun _ _ => World.bump_rely _)
        (hskipped (by simpa using hwait))
  | commit r next =>
    rw [hp] at hsafe
    simp only [hp, Option.some.injEq] at h
    obtain ⟨hmine, hothers⟩ := heldBy_release s s' (i := i) (by rw [← h])
    subst h
    have hev : P.admits ⟨s.world.db, r, e.pending s.world.db, s.lockedByOthers i⟩ :=
      hadm _ List.mem_cons_self
    obtain ⟨hmove, hnext⟩ := hsafe s.world _ (Rely.refl _ _) hs.inv hev
    refine hs.moved _ rfl (P.inv_move hs.inv rfl hev hmove) hothers ?_ ?_
    · intro j hji
      exact RelyStep.rely (.move (s.heldBy i) (s.disjoint_heldBy hji)
        (s.lockedByOthers_of_heldBy hji) rfl hs.inv hev hmove)
    · simp only [State.localOf, hmine]
      exact hnext
  | rollback r next =>
    rw [hp] at hsafe
    simp only [hp, Option.some.injEq] at h
    obtain ⟨hmine, hothers⟩ := heldBy_release s s' (i := i) (by rw [← h])
    subst h
    have hev : P.admits ⟨s.world.db, r, s.world.db, s.lockedByOthers i⟩ :=
      hadm _ List.mem_cons_self
    obtain ⟨hmove, hnext⟩ := hsafe s.world _ (Rely.refl _ _) hs.inv hev
    refine hs.moved _ rfl (P.inv_move hs.inv rfl hev hmove) hothers ?_ ?_
    · intro j hji
      exact RelyStep.rely (.move (s.heldBy i) (s.disjoint_heldBy hji)
        (s.lockedByOthers_of_heldBy hji) rfl hs.inv hev hmove)
    · simp only [State.localOf, hmine]
      exact hnext

/-- Every allowed call keeps the protocol when it is started on rows that satisfy the
invariant. -/
def Keeps (P : Protocol D K R) (code : C → Prog D K R Unit) (allowed : C → Prop) : Prop :=
  ∀ call, allowed call → ∀ t w, P.inv w → wp P (code call) (fun _ _ _ => True) (.idle t) w

lemma log_suffix_of_step [DecidableEq K] {a : Label C} (h : step code s a = some s') :
    s.world.log <:+ s'.world.log := by
  cases a with
  | opens i call =>
    simp only [step] at h
    split at h
    · simp at h
    · cases h
      exact List.suffix_rfl
  | runs i b =>
    obtain ⟨e, -, h⟩ := Option.bind_eq_some_iff.1 h
    unfold State.advance at h
    cases hp : e.prog with
    | pure a => simp [hp] at h
    | start next =>
      simp only [hp, Option.some.injEq] at h
      subst h
      exact List.suffix_rfl
    | choose next =>
      simp only [hp, Option.some.injEq] at h
      subst h
      exact List.suffix_rfl
    | stmt keys wait writes next =>
      simp only [hp] at h
      split_ifs at h
      · cases h
        exact List.suffix_rfl
      · cases h
        exact List.suffix_rfl
    | commit r next =>
      simp only [hp, Option.some.injEq] at h
      subst h
      exact List.suffix_cons _ _
    | rollback r next =>
      simp only [hp, Option.some.injEq] at h
      subst h
      exact List.suffix_cons _ _
  | closes i =>
    simp only [step, Option.some.injEq] at h
    subst h
    exact List.suffix_rfl
  | tick n =>
    simp only [step, Option.some.injEq] at h
    subst h
    exact List.suffix_rfl

/-- One step of the database keeps everything sound. -/
lemma Sound.step [DecidableEq K] {allowed : C → Prop} (hcode : Keeps P code allowed) {a : Label C}
    (hs : Sound P s) (h : Db.step code s a = some s')
    (hcalls : ∀ i call, a = .opens i call → allowed call) (hadm : ∀ ev ∈ s'.world.log, P.admits ev)
    : Sound P s' := by
  cases a with
  | opens i call =>
    simp only [Db.step] at h
    cases hi : s.session i with
    | some e => simp [hi] at h
    | none =>
      simp only [hi, Option.some.injEq] at h
      subst h
      refine hs.moved ⟨s.world.clock, id, code call⟩ rfl hs.inv
        (fun _ _ => rfl) (fun _ _ => Rely.refl _ _) ?_
      have hlocal : (s.put i (some ⟨s.world.clock, id, code call⟩)).localOf i
          ⟨s.world.clock, id, code call⟩ = .idle s.world.clock := by
        have hvacant := hs.vacant i hi
        simp only [State.localOf, Local.idle, Local.mk.injEq, true_and, and_true]
        exact hvacant
      rw [hlocal]
      exact hcode call (hcalls i call rfl) _ _ hs.inv
  | runs i b =>
    obtain ⟨e, hi, hadv⟩ := Option.bind_eq_some_iff.1 h
    exact hs.advance hadm hi hadv
  | closes i =>
    simp only [Db.step, Option.some.injEq] at h
    obtain ⟨hmine, hothers⟩ := heldBy_release s s' (i := i) (by rw [← h])
    have hsession : ∀ j, s'.session j = if j = i then none else s.session j := by
      rw [← h]
      exact fun _ => rfl
    have hworld : s'.world = s.world := by rw [← h]; rfl
    refine ⟨hworld ▸ hs.inv, ?_, ?_⟩
    · intro j e hj
      by_cases hji : j = i
      · simp [hsession, hji] at hj
      · have hj' : s.session j = some e := by simpa [hsession, hji] using hj
        have hlocal : s'.localOf j e = s.localOf j e := by
          simp only [State.localOf, hothers j hji]
        rw [hlocal, hworld]
        exact hs.safe j e hj'
    · intro j hj
      by_cases hji : j = i
      · rw [hji]
        exact hmine
      · rw [hothers j hji]
        exact hs.vacant j (by simpa [hsession, hji] using hj)
  | tick n =>
    simp only [Db.step, Option.some.injEq] at h
    subst h
    refine ⟨P.inv_later hs.inv le_rfl (Nat.le_add_right _ _), ?_, hs.vacant⟩
    intro j e hj
    exact wp.rely (fun _ _ _ _ _ _ => trivial) _ (hs.safe j e hj)
      (RelyStep.rely (.later le_rfl (Nat.le_add_right _ _)))

/-- **Soundness**: a run of programs that keep the protocol, all of whose transactions
end as assumed, ends every transaction as the protocol allows. -/
theorem Sound.of_reaches [DecidableEq K] {allowed : C → Prop} (hcode : Keeps P code allowed)
    {ok : State D K R → Label C → Prop} (hok : ∀ s i call, ok s (.opens i call) → allowed call)
    {w₀ : World D K R} (h₀ : P.inv w₀) (h : (sessions code w₀).Reaches ok s)
    (hadm : ∀ ev ∈ s.world.log, P.admits ev) :
    Sound P s := by
  refine Run.System.Reaches.invariant (P := fun s =>
    (∀ ev ∈ s.world.log, P.admits ev) → Sound P s) ?_ ?_ h hadm
  · intro _
    refine ⟨h₀, by simp [sessions, State.fresh], ?_⟩
    intro i _
    simp [State.heldBy, sessions, State.fresh]
  · intro s a s' hs ha hstep hadm'
    have hsuffix := log_suffix_of_step hstep
    have hcalls : ∀ i call, a = .opens i call → allowed call := by
      rintro i call rfl
      exact hok s i call ha
    exact (hs fun ev hev => hadm' ev (hsuffix.subset hev)).step hcode hstep hcalls hadm'

end Db
