import Mathlib.Tactic

/-!
Programs that change a state and may throw, the state staying as it is where they throw.
-/

namespace Run

/-- Programs over a state `σ` that throw an `ε`. -/
abbrev Fallible (σ ε : Type) : Type → Type := ExceptT ε (StateM σ)

namespace Fallible

variable {σ ε α β : Type}

/-- The outcome of a program started in a state. -/
def outcome (x : Fallible σ ε α) (s : σ) : Except ε α × σ := (StateT.run (ExceptT.run x) s).run

lemma outcome_bind (x : Fallible σ ε α) (f : α → Fallible σ ε β) (s : σ) :
    outcome (x >>= f) s =
      match outcome x s with
      | (.ok a, s') => outcome (f a) s'
      | (.error e, s') => (.error e, s') := by
  unfold outcome ExceptT.run StateT.run Id.run
  simp only [bind, ExceptT.bind, ExceptT.mk, StateT.bind, ExceptT.bindCont]
  rcases x s with ⟨e | a, s'⟩ <;> rfl

lemma outcome_tryCatch (x : Fallible σ ε α) (handle : ε → Fallible σ ε α) (s : σ) :
    outcome (tryCatch x handle) s =
      match outcome x s with
      | (.ok a, s') => (.ok a, s')
      | (.error e, s') => outcome (handle e) s' := by
  unfold outcome ExceptT.run StateT.run Id.run
  simp only [tryCatch, tryCatchThe, MonadExceptOf.tryCatch, ExceptT.tryCatch, bind, ExceptT.mk,
    StateT.bind]
  rcases x s with ⟨e | a, s'⟩ <;> rfl

lemma outcome_tryFinally (x : Fallible σ ε α) (finalizer : Fallible σ ε β) (s : σ) :
    outcome (tryFinally x finalizer) s =
      match outcome x s with
      | (r, s') =>
        match outcome finalizer s' with
        | (.ok _, s'') => (r, s'')
        | (.error e, s'') => (.error e, s'') := by
  unfold outcome ExceptT.run StateT.run Id.run
  simp only [tryFinally, tryFinally', bind, ExceptT.mk, StateT.bind, Functor.map, ExceptT.map]
  rcases x s with ⟨e | a, s'⟩
  · rcases hf : finalizer s' with ⟨e' | b, s''⟩ <;> simp [pure, hf] <;> rfl
  · rcases hf : finalizer s' with ⟨e' | b, s''⟩ <;> simp [pure, hf] <;> rfl

/-- A program started in `s` ends in a result with `Q` or in an exception with `E`. -/
def wp (x : Fallible σ ε α) (Q : α → σ → Prop) (E : ε → σ → Prop) (s : σ) : Prop :=
  match outcome x s with
  | (.ok a, s') => Q a s'
  | (.error e, s') => E e s'

section Rules

variable {Q Q' : α → σ → Prop} {E E' : ε → σ → Prop} {s : σ}

@[simp] lemma wp_pure (a : α) : wp (pure a : Fallible σ ε α) Q E s ↔ Q a s := Iff.rfl

@[simp] lemma wp_throw (e : ε) : wp (throw e : Fallible σ ε α) Q E s ↔ E e s := Iff.rfl

@[simp] lemma wp_modify {Q : PUnit → σ → Prop} (f : σ → σ) :
    wp (modify f : Fallible σ ε PUnit) Q E s ↔ Q ⟨⟩ (f s) := Iff.rfl

@[simp] lemma wp_get {Q : σ → σ → Prop} : wp (get : Fallible σ ε σ) Q E s ↔ Q s s := Iff.rfl

lemma wp_bind {Q : β → σ → Prop} (x : Fallible σ ε α) (f : α → Fallible σ ε β) :
    wp (x >>= f) Q E s ↔ wp x (fun a => wp (f a) Q E) E s := by
  rw [wp, wp, outcome_bind]
  rcases outcome x s with ⟨e | a, s'⟩ <;> rfl

lemma wp_tryCatch (x : Fallible σ ε α) (handle : ε → Fallible σ ε α) :
    wp (tryCatch x handle) Q E s ↔ wp x Q (fun e => wp (handle e) Q E) s := by
  rw [wp, wp, outcome_tryCatch]
  rcases outcome x s with ⟨e | a, s'⟩ <;> rfl

lemma wp_tryFinally (x : Fallible σ ε α) (finalizer : Fallible σ ε β) :
    wp (tryFinally x finalizer) Q E s ↔
      wp x (fun a => wp finalizer (fun _ => Q a) E) (fun e => wp finalizer (fun _ => E e) E) s := by
  rw [wp, wp, outcome_tryFinally]
  rcases outcome x s with ⟨e | a, s'⟩
  · simp only [wp]
    rcases outcome finalizer s' with ⟨e' | b, s''⟩ <;> rfl
  · simp only [wp]
    rcases outcome finalizer s' with ⟨e' | b, s''⟩ <;> rfl

/-- Weaker conditions hold of more outcomes. -/
lemma wp_mono {x : Fallible σ ε α} (hQ : ∀ a s', Q a s' → Q' a s') (hE : ∀ e s', E e s' → E' e s')
    (h : wp x Q E s) : wp x Q' E' s := by
  revert h
  rw [wp, wp]
  rcases outcome x s with ⟨e | a, s'⟩
  · exact hE e s'
  · exact hQ a s'

/-- **Loop rule**: a condition on the turns still to come, which each turn hands on. -/
lemma wp_forM {f : α → Fallible σ ε PUnit} {xs : List α} (I : List α → σ → Prop)
    (hstep : ∀ x rest s', I (x :: rest) s' → wp (f x) (fun _ => I rest) E s') (hs : I xs s) :
    wp (xs.forM f) (fun _ => I []) E s := by
  induction xs generalizing s with
  | nil => exact hs
  | cons x xs ih =>
    rw [List.forM, wp_bind]
    exact wp_mono (fun _ _ h => ih h) (fun _ _ h => h) (hstep x xs s hs)

end Rules

end Fallible

end Run
