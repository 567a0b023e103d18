import Mathlib.Logic.Relation
import Mathlib.Tactic

/-!
Runs of a labelled transition system whose steps may be refused.
-/

namespace Run

variable {σ α : Type*}

/-- A transition system with a partial step function. -/
structure System (σ α : Type*) where
  init : σ
  step : σ → α → Option σ

namespace System

variable (M : System σ α) (ok : σ → α → Prop)

/-- One admitted step. -/
def Step (s s' : σ) : Prop := ∃ a, ok s a ∧ M.step s a = some s'

/-- Runs of admitted steps. -/
def Steps : σ → σ → Prop := Relation.ReflTransGen (M.Step ok)

/-- The states admitted runs reach from the initial state. -/
def Reaches (s : σ) : Prop := M.Steps ok M.init s

variable {M ok}

/-- **Invariant rule**: what every admitted step keeps, every run keeps. -/
lemma Steps.invariant {P : σ → Prop}
    (hstep : ∀ s a s', P s → ok s a → M.step s a = some s' → P s') {s s' : σ}
    (h : M.Steps ok s s') (hs : P s) : P s' := by
  induction h with
  | refl => exact hs
  | tail _ hlast ih =>
    obtain ⟨a, hok, ha⟩ := hlast
    exact hstep _ a _ ih hok ha

/-- The invariant rule for reachable states. -/
lemma Reaches.invariant {P : σ → Prop} (hinit : P M.init)
    (hstep : ∀ s a s', P s → ok s a → M.step s a = some s' → P s') {s : σ}
    (h : M.Reaches ok s) : P s :=
  Steps.invariant hstep h hinit

/-- Fewer restrictions admit more runs. -/
lemma Steps.mono {ok' : σ → α → Prop} (hok : ∀ s a, ok s a → ok' s a) {s s' : σ}
    (h : M.Steps ok s s') : M.Steps ok' s s' := by
  refine Relation.ReflTransGen.mono ?_ s s' h
  rintro a b ⟨l, hl, hs⟩
  exact ⟨l, hok a l hl, hs⟩

/-- Runs continue. -/
lemma Reaches.steps {s s' : σ} (h : M.Reaches ok s) (h' : M.Steps ok s s') : M.Reaches ok s' :=
  Relation.ReflTransGen.trans h h'

/-- One more step. -/
lemma Reaches.step {s s' : σ} {a : α} (h : M.Reaches ok s) (ha : ok s a)
    (hs : M.step s a = some s') : M.Reaches ok s' :=
  Relation.ReflTransGen.tail h ⟨a, ha, hs⟩

variable (M ok) in
/-- The run of a list of labels, refused at the first label that is not
admitted. -/
def exec [∀ s a, Decidable (ok s a)] : σ → List α → Option σ
  | s, [] => some s
  | s, a :: as => if ok s a then (M.step s a).bind fun s' => exec s' as else none

/-- A completed list of labels is a run. -/
lemma steps_of_exec [∀ s a, Decidable (ok s a)] {as : List α} :
    ∀ {s s' : σ}, M.exec ok s as = some s' → M.Steps ok s s' := by
  induction as with
  | nil =>
    intro s s' h
    obtain rfl : s = s' := by simpa [exec] using h
    exact Relation.ReflTransGen.refl
  | cons a as ih =>
    intro s s' h
    by_cases hok : ok s a
    · rw [exec, if_pos hok] at h
      obtain ⟨m, hm, hexec⟩ := Option.bind_eq_some_iff.mp h
      exact Relation.ReflTransGen.head ⟨a, hok, hm⟩ (ih hexec)
    · rw [exec, if_neg hok] at h
      simp at h

/-- A completed list of labels that are admitted in every state is an admitted run. -/
lemma steps_of_exec_of_forall {as : List α} (hok : ∀ a ∈ as, ∀ s, ok s a) {s s' : σ}
    (h : M.exec (fun _ _ => True) s as = some s') : M.Steps ok s s' := by
  induction as generalizing s with
  | nil =>
    obtain rfl : s = s' := by simpa [exec] using h
    exact Relation.ReflTransGen.refl
  | cons a as ih =>
    rw [exec, if_pos trivial] at h
    obtain ⟨m, hm, hexec⟩ := Option.bind_eq_some_iff.mp h
    exact Relation.ReflTransGen.head ⟨a, hok a (by simp) s, hm⟩
      (ih (fun b hb => hok b (by simp [hb])) hexec)

variable (M ok) in
/-- A property of the state a list of labels leads to. -/
lemma exists_of_exec [∀ s a, Decidable (ok s a)] (s : σ) (as : List α) (P : σ → Prop)
    [DecidablePred P] (h : (M.exec ok s as).any (fun s' => decide (P s')) = true) :
    ∃ s', M.exec ok s as = some s' ∧ P s' := by
  cases hs : M.exec ok s as with
  | none => rw [hs] at h; simp at h
  | some s' =>
    rw [hs] at h
    exact ⟨s', rfl, by simpa using h⟩

end System

end Run
