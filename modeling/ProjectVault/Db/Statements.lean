import ProjectVault.Db.Rows

/-!
Rules for the statements of a table, for transactions whose writes are written out.
-/

namespace Db

variable {D K R Row : Type} {P : Protocol D K R} {T : Table D K Row}

namespace Table

/-! ### Statements -/

section Statements

variable (T)

/-- `SELECT … FOR UPDATE LIMIT 1` of found rows: the first that still meets the condition once its
lock is there. -/
def selectFirstForUpdate (cond : Ctx D → Row → Bool) : List ℕ → Prog D K R (Option Row)
  | [] => pure none
  | n :: ns => do
      match ← T.selectForUpdate n cond with
      | some row => return some row
      | none => selectFirstForUpdate cond ns

/-- `SELECT … FOR UPDATE` of found rows: those that still meet the condition once their locks are
there. -/
def selectEachForUpdate (cond : Ctx D → Row → Bool) : List ℕ → Prog D K R (List Row)
  | [] => pure []
  | n :: ns => do
      let row ← T.selectForUpdate n cond
      let rows ← selectEachForUpdate cond ns
      return row.toList ++ rows

/-- `DELETE … WHERE id = …`: one row, which is waited for. -/
def deleteRow (n : ℕ) : Prog D K R Unit :=
  .update (fun c => ((T.find c.view n).map fun _ => T.lock n).toList)
    (fun c d => if (T.find c.view n).isSome then
      T.modify (fun rows => rows.filter fun r => T.id r ≠ n) d else d) fun _ => ()

end Statements

/-! ### Rules -/

variable {l : Local D K} {w : World D K R} {n : ℕ} {cond : Ctx D → Row → Bool}

lemma wp_selectForUpdate {Q : Post D K R (Option Row)}
    (hnone : ∀ w', Rely P l.held w w' → P.inv w' → Q none l w'.bump)
    (hsome : ∀ w' r, Rely P l.held w w' → P.inv w' → T.find (l.pending w'.db) n = some r →
      cond (l.ctx w') r = true → Q (some r) (l.wrote [T.lock n] fun d => d) w'.bump) :
    wp P (T.selectForUpdate n cond) Q l w := by
  refine wp_update fun w' hr hinv => ?_
  cases hcand : T.candidate n cond (l.ctx w') with
  | none =>
    have hl : l.wrote [] (fun d => d) = l := l.wrote_nil
    simp only [Option.map_none, Option.toList_none, hl]
    exact hnone w' hr hinv
  | some r =>
    obtain ⟨hfind, hcond⟩ := candidate_eq_some.1 hcand
    simp only [Option.map_some, Option.toList_some]
    exact hsome w' r hr hinv hfind hcond

/-- The rule for `UPDATE … WHERE id = … RETURNING *`. -/
lemma wp_updateRow {set : Ctx D → Row → Row} {Q : Post D K R (Option Row)}
    (hnone : ∀ w', Rely P l.held w w' → P.inv w' → T.candidate n cond (l.ctx w') = none →
      Q none l w'.bump)
    (hsome : ∀ w' r, Rely P l.held w w' → P.inv w' → T.find (l.pending w'.db) n = some r →
      cond (l.ctx w') r = true → Q (some (set (l.ctx w') r))
        (l.wrote [T.lock n] (T.modify (updateWhere (fun r => T.id r = n) (set (l.ctx w'))))) w'.bump) :
    wp P (T.updateRow n cond set) Q l w := by
  refine wp_update fun w' hr hinv => ?_
  cases hcand : T.candidate n cond (l.ctx w') with
  | none =>
    have hl : l.wrote [] (fun d => d) = l := l.wrote_nil
    simp only [Option.map_none, Option.toList_none, Option.isSome_none, Bool.false_eq_true,
      if_false, hl]
    exact hnone w' hr hinv hcand
  | some r =>
    obtain ⟨hfind, hcond⟩ := candidate_eq_some.1 hcand
    simp only [Option.map_some, Option.toList_some, Option.isSome_some, if_true]
    exact hsome w' r hr hinv hfind hcond

/-- The rule for `INSERT … RETURNING *`. -/
lemma wp_insertRow {values : Ctx D → Row} {Q : Post D K R Row}
    (h : ∀ w', Rely P l.held w w' → P.inv w' → Q (values (l.ctx w'))
      (l.wrote [T.lock (T.id (values (l.ctx w')))]
        (T.modify fun rows => rows ++ [values (l.ctx w')])) w'.bump) :
    wp P (T.insertRow values) Q l w :=
  wp_update h

/-- The rule for `DELETE … WHERE id = …`. -/
lemma wp_deleteRow {Q : Post D K R Unit}
    (hnone : ∀ w', Rely P l.held w w' → P.inv w' → T.find (l.pending w'.db) n = none →
      Q () l w'.bump)
    (hsome : ∀ w' r, Rely P l.held w w' → P.inv w' → T.find (l.pending w'.db) n = some r →
      Q () (l.wrote [T.lock n] (T.modify fun rows => rows.filter fun r => T.id r ≠ n)) w'.bump) :
    wp P (T.deleteRow n) Q l w := by
  refine wp_update fun w' hr hinv => ?_
  change Q () (l.wrote ((T.find (l.pending w'.db) n).map _).toList fun d =>
    if (T.find (l.pending w'.db) n).isSome then _ else d) w'.bump
  cases hfind : T.find (l.pending w'.db) n with
  | none =>
    have hl : l.wrote [] (fun d => d) = l := l.wrote_nil
    simp only [Option.map_none, Option.toList_none, Option.isSome_none, Bool.false_eq_true,
      if_false, hl]
    exact hnone w' hr hinv hfind
  | some r =>
    simp only [Option.map_some, Option.toList_some, Option.isSome_some, if_true]
    exact hsome w' r hr hinv hfind

end Table

/-! ### Locked rows -/

/-- Nothing has been written yet. -/
def Local.Clean (l : Local D K) : Prop := ∀ d, l.pending d = d

variable (T P) in
/-- The sessions of a protocol leave a row alone that another has locked. -/
def Table.Stable : Prop :=
  ∀ held (w w' : World D K R) n, Rely P held w w' → T.lock n ∈ held →
    T.find w'.db n = T.find w.db n

variable (T) in
/-- A row that is locked as it was found. -/
structure Table.Held (n : ℕ) (row : Row) (l : Local D K) (w : World D K R) : Prop where
  lock : T.lock n ∈ l.held
  find : T.find w.db n = some row

namespace Table

variable {l l' : Local D K} {w w' : World D K R} {n : ℕ} {row : Row} {cond : Ctx D → Row → Bool}

lemma Held.rely (hP : T.Stable P) (h : T.Held n row l w) (hr : Rely P l.held w w') :
    T.Held n row l w' :=
  ⟨h.lock, (hP _ _ _ _ hr h.lock).trans h.find⟩

lemma Held.later (hP : T.Stable P) (h : T.Held n row l w) (hl : Later P l w l' w') :
    T.Held n row l' w' :=
  ⟨hl.held h.lock, (h.rely hP hl.rely).find⟩

/-- The rule for `SELECT … FOR UPDATE` in a transaction that has written nothing. -/
lemma wp_selectClean (hclean : l.Clean) {Q : Post D K R (Option Row)}
    (hnone : ∀ w', Later P l w l w' → Q none l w')
    (hsome : ∀ r l' w', l'.Clean → Later P l w l' w' → T.Held n r l' w' → (∃ c, cond c r = true) →
      Q (some r) l' w') : wp P (T.selectForUpdate n cond) Q l w := by
  refine wp_selectForUpdate (fun w' hr _ => hnone _ (.stmt hr fun _ hk => hk)) ?_
  intro w' r hr _ hfind hcond
  rw [hclean] at hfind
  refine hsome r _ _ (fun d => hclean d) (.stmt hr (l.held_wrote _ _)) ?_ ⟨_, hcond⟩
  exact ⟨.inr (List.mem_singleton.2 rfl), hfind⟩

/-- The rule for `SELECT … FOR UPDATE LIMIT 1`. -/
lemma wp_selectFirst (hclean : l.Clean) (ns : List ℕ)
    {Q : Post D K R (Option Row)}
    (hnone : ∀ l' w', l'.Clean → Q none l' w')
    (hsome : ∀ m r l' w', l'.Clean → T.id r = m → T.Held m r l' w' → (∃ c, cond c r = true) →
      Q (some r) l' w') : wp P (T.selectFirstForUpdate cond ns) Q l w := by
  induction ns generalizing l w with
  | nil => exact hnone _ _ hclean
  | cons n ns ih =>
    rw [selectFirstForUpdate, wp_bind]
    refine wp_selectClean hclean (fun w' _ => ih hclean) ?_
    intro r l' w' hclean' _ hheld hcond
    exact hsome n r l' w' hclean' (find_eq_some hheld.find).2 hheld hcond

/-- The rule for `SELECT … FOR UPDATE` of several rows. -/
lemma wp_selectEach (hP : T.Stable P) (hclean : l.Clean) (ns : List ℕ)
    {Q : Post D K R (List Row)}
    (hQ : ∀ rs l' w', l'.Clean → Later P l w l' w' →
      (∀ r ∈ rs, T.Held (T.id r) r l' w' ∧ ∃ c, cond c r = true) → Q rs l' w') :
    wp P (T.selectEachForUpdate cond ns) Q l w := by
  induction ns generalizing l w Q with
  | nil => exact hQ _ _ _ hclean (.refl l w) (by simp)
  | cons n ns ih =>
    rw [selectEachForUpdate, wp_bind]
    refine wp_selectClean hclean ?_ ?_
    · intro w' hl
      rw [wp_bind]
      refine ih hclean fun rs l' w'' hclean' hl' hrows => ?_
      exact hQ _ _ _ hclean' (hl.trans hl') hrows
    · intro r l' w' hclean' hl hheld hcond
      rw [wp_bind]
      refine ih hclean' fun rs l'' w'' hclean'' hl' hrows => ?_
      refine hQ _ _ _ hclean'' (hl.trans hl') fun r' hr' => ?_
      rcases List.mem_cons.1 hr' with rfl | hr'
      · have hheld' := hheld.later hP hl'
        rw [(find_eq_some hheld.find).2]
        exact ⟨hheld', hcond⟩
      · exact hrows r' hr'

end Table

/-! ### Updates by id -/

/-- The row of an id after an update of rows that are chosen by id. -/
lemma find_updateWhere (id : Row → ℕ) {f : Row → Row} (hf : ∀ r, id (f r) = id r) (p : ℕ → Bool)
    (n : ℕ) (rows : List Row) :
    (updateWhere (fun r => p (id r)) f rows).find? (fun r => id r = n) =
      (rows.find? fun r => id r = n).map fun r => if p n then f r else r := by
  induction rows with
  | nil => rfl
  | cons r rows ih =>
    have hid : id (if p (id r) then f r else r) = id r := by
      split_ifs
      · exact hf r
      · rfl
    rw [updateWhere_cons]
    by_cases h : id r = n
    · rw [List.find?_cons_of_pos (by simpa [hid] using h),
        List.find?_cons_of_pos (by simpa using h), h, Option.map_some]
    · rw [List.find?_cons_of_neg (by simpa [hid] using h),
        List.find?_cons_of_neg (by simpa using h), ih]

lemma find_updateWhere_self {id : Row → ℕ} {f : Row → Row} (hf : ∀ r, id (f r) = id r) (n : ℕ)
    (rows : List Row) :
    (updateWhere (fun r => id r = n) f rows).find? (fun r => id r = n) =
      (rows.find? fun r => id r = n).map f := by
  have h := find_updateWhere id hf (fun m => m = n) n rows
  simpa using h

lemma find_updateWhere_of_ne {id : Row → ℕ} {f : Row → Row} (hf : ∀ r, id (f r) = id r) {n m : ℕ}
    (hne : m ≠ n) (rows : List Row) :
    (updateWhere (fun r => id r = n) f rows).find? (fun r => id r = m) =
      rows.find? fun r => id r = m := by
  have h := find_updateWhere id hf (fun m => m = n) m rows
  simpa [hne] using h

/-- The row of an id after another has been deleted. -/
lemma find_filter_of_ne {id : Row → ℕ} {n m : ℕ} (hne : m ≠ n) (rows : List Row) :
    (rows.filter fun r => id r ≠ n).find? (fun r => id r = m) = rows.find? fun r => id r = m := by
  rw [List.find?_filter]
  congr 1
  funext r
  by_cases h : id r = m
  · simp [h, hne]
  · simp [h]

end Db
