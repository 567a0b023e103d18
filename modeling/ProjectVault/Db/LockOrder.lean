import ProjectVault.Db.Savepoint
import ProjectVault.Db.Watch

/-!
Locks that are taken in the order of a rank.
-/

namespace Db

variable {D K R C : Type} {P : Protocol D K R} {S : Set K → List K → Prop} {G : Event D K R → Prop}
  [DecidableEq K] {s s' : State D K R}

/-! ### Every session of a run -/

lemma Watched.step_all {code : C → Prog D K R Unit} (hcode : Keeps P code fun _ => True)
    (hends : ∀ call w, P.inv w →
      Db.ends P S G (code call) (fun _ _ _ => True) (.idle w.clock) w)
    {a : Label C} (h : ∀ i, Watched P S G i s) (hs : Db.step code s a = some s')
    (hadm : ∀ ev ∈ s'.world.log, P.admits ev) (i : ℕ) : Watched P S G i s' := by
  have hsound := (h i).sound
  have hs' : Sound P s' := hsound.step hcode hs (fun _ _ _ => trivial) hadm
  by_cases hopens : ∃ call, a = .opens i call
  · obtain ⟨call, rfl⟩ := hopens
    exact .opens hsound hs' hs (hends call s.world hsound.inv)
  · refine (h i).step hcode hs (fun j call ha => ⟨trivial, ?_⟩) hadm
    rintro rfl
    exact hopens ⟨call, ha⟩

/-- Every session of a run is watched. -/
lemma Watched.of_reaches {code : C → Prog D K R Unit} (hcode : Keeps P code fun _ => True)
    (hends : ∀ call w, P.inv w →
      Db.ends P S G (code call) (fun _ _ _ => True) (.idle w.clock) w)
    {ok : State D K R → Label C → Prop} {w₀ : World D K R} (h₀ : P.inv w₀)
    (h : (sessions code w₀).Reaches ok s) (hadm : ∀ ev ∈ s.world.log, P.admits ev) (i : ℕ) :
    Watched P S G i s := by
  have hall : (∀ ev ∈ s.world.log, P.admits ev) → ∀ i, Watched P S G i s := by
    refine Run.System.Reaches.invariant
      (P := fun s => (∀ ev ∈ s.world.log, P.admits ev) → ∀ i, Watched P S G i s) ?_ ?_ h
    · intro _ i
      exact ⟨⟨h₀, nofun, fun _ _ => Set.eq_empty_of_forall_notMem nofun⟩, nofun⟩
    · intro s a s' hs _ hstep hadm'
      have hsuffix := log_suffix_of_step hstep
      exact Watched.step_all hcode hends (hs fun ev hev => hadm' ev (hsuffix.subset hev)) hstep hadm'
  exact hall hadm i

/-! ### Ranked locks -/

/-- Of the ranked locks that a statement asks for, those that its session does not hold stand above
all that it holds. -/
def Ascending (rank : K → Option ℕ) (held : Set K) (keys : List K) : Prop :=
  ∀ k ∈ keys, k ∉ held → ∀ r, rank k = some r → ∀ k' ∈ held, ∀ r', rank k' = some r' → r' < r

/-- A session waits for a lock of rank `r` that another holds. -/
structure AwaitsAt (rank : K → Option ℕ) (s : State D K R) (i j r : ℕ) : Prop where
  ne : i ≠ j
  waits : ∃ e keys writes next, s.session i = some e ∧ e.prog = .stmt keys true writes next ∧
    ∃ k ∈ keys (e.ctx s.world), s.owner k = some j ∧ rank k = some r

/-- A session waits for a ranked lock that another holds. -/
def Awaits (rank : K → Option ℕ) (s : State D K R) (i j : ℕ) : Prop := ∃ r, AwaitsAt rank s i j r

omit [DecidableEq K] in
/-- Code that asks for unranked locks and for those that its session holds. -/
lemma ends_of_asks {α : Type} {rank : K → Option ℕ} {A : Set K} {p : Prog D K R α} (hp : p.Asks A)
    {Q : Post D K R α} {l : Local D K} {w : World D K R}
    (hA : ∀ k ∈ A, rank k = none ∨ k ∈ l.held)
    (hQ : ∀ a l' w', l.held ⊆ l'.held → Q a l' w') : ends P (Ascending rank) G p Q l w := by
  induction p generalizing l w with
  | pure a => exact hQ a l w Set.Subset.rfl
  | start next ih => exact hp.elim
  | stmt keys wait writes next ih =>
    intro w' _ _
    refine ⟨fun _ k hk hnot r hr => ?_, ?_, fun _ => ih false _ (hp.2 _ _) hA hQ⟩
    · rcases hA k (hp.1 _ k hk) with hnone | hheld
      · rw [hnone] at hr
        nomatch hr
      · exact absurd hheld hnot
    · have hsub := l.held_wrote (keys (l.ctx w')) (writes (l.ctx w'))
      exact ih true _ (hp.2 _ _) (fun k hk => (hA k hk).imp_right fun h => hsub h)
        fun a l' w' hl' => hQ a l' w' (hsub.trans hl')
  | choose next ih => exact fun b => ih b (hp b) hA hQ
  | commit r next ih => exact hp.elim
  | rollback r next ih => exact hp.elim

omit [DecidableEq K] in
/-- Who waits holds locks below only. -/
lemma AwaitsAt.lt {rank : K → Option ℕ} {i j m r r' : ℕ} (h : AwaitsAt rank s i j r)
    (h' : AwaitsAt rank s j m r') (hj : Watched P (Ascending rank) G j s) : r < r' := by
  obtain ⟨-, -, -, -, -, -, k, -, howner, hrank⟩ := h.waits
  obtain ⟨e, keys, writes, next, he, hprog, k', hk', howner', hrank'⟩ := h'.waits
  have hends := hj.ends e he
  rw [hprog] at hends
  obtain ⟨hasc, -⟩ := hends s.world (Rely.refl _ _) hj.sound.inv
  refine hasc rfl k' hk' (fun hmine => ?_) r' hrank' k howner r hrank
  have hheld : s.owner k' = some j := hmine
  exact h'.ne (Option.some.inj (hheld.symm.trans howner'))

omit [DecidableEq K] in
/-- **Lock order**: when every session takes its ranked locks in ascending order, none waits for
itself through others. -/
theorem not_awaits_cycle {rank : K → Option ℕ} (h : ∀ i, Watched P (Ascending rank) G i s) (i : ℕ) :
    ¬ Relation.TransGen (Awaits rank s) i i := by
  have hpath : ∀ j, Relation.TransGen (Awaits rank s) i j →
      ∃ r r' m m', AwaitsAt rank s i m r ∧ AwaitsAt rank s m' j r' ∧ r ≤ r' := by
    intro j hj
    induction hj with
    | @single j hij =>
      obtain ⟨r, hr⟩ := hij
      exact ⟨r, r, j, i, hr, hr, le_rfl⟩
    | @tail j l _ hjl ih =>
      obtain ⟨r, r', m, m', hfirst, hlast, hle⟩ := ih
      obtain ⟨r'', hnext⟩ := hjl
      have hlt := hlast.lt hnext (h j)
      exact ⟨r, r'', m, j, hfirst, hnext, hle.trans hlt.le⟩
  intro hcycle
  obtain ⟨r, r', m, m', hfirst, hlast, hle⟩ := hpath i hcycle
  exact absurd (hlast.lt hfirst (h i)) hle.not_gt

end Db
