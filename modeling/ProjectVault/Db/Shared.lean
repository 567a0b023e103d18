import ProjectVault.Db.Statements

/-!
Tables whose rows are locked `FOR SHARE` as well as `FOR UPDATE`.
-/

namespace Db

variable {D K R Row : Type} {readers : ℕ}

/-- A table with the locks of its rows. -/
structure SharedTable (D K Row : Type) (readers : ℕ) where
  rows : D → List Row
  modify : (List Row → List Row) → D → D
  id : Row → ℕ
  lock : ℕ → Option (Fin readers) → K

namespace SharedTable

variable (T : SharedTable D K Row readers)

/-- The row of an id. -/
def find (d : D) (n : ℕ) : Option Row := (T.rows d).find? fun r => T.id r = n

/-- What a writer of a row takes. -/
def locks (n : ℕ) : List K := T.lock n none :: (List.finRange readers).map fun h => T.lock n (some h)

/-- The locks of a row that is there. -/
def locksOf (d : D) (n : ℕ) : List K := if (T.find d n).isSome then T.locks n else []

/-! ### Statements -/

/-- `SELECT … WHERE id = … FOR SHARE`, for one of the readers. -/
def selectForShare (h : Fin readers) (n : ℕ) : Prog D K R (Option Row) :=
  .update (fun c => ((T.find c.view n).map fun _ => T.lock n (some h)).toList) (fun _ d => d)
    fun c => T.find c.view n

/-- `SELECT … WHERE id = … FOR UPDATE`. -/
def selectForUpdate (n : ℕ) : Prog D K R (Option Row) :=
  .update (fun c => T.locksOf c.view n) (fun _ d => d) fun c => T.find c.view n

/-- `UPDATE … SET … WHERE id = …`. -/
def updateRow (n : ℕ) (set : Row → Row) : Prog D K R Unit :=
  .update (fun c => T.locksOf c.view n)
    (fun _ => T.modify (updateWhere (fun r => T.id r = n) set)) fun _ => ()

/-- `DELETE … WHERE id = …`. -/
def deleteRow (n : ℕ) : Prog D K R Unit :=
  .update (fun c => T.locksOf c.view n)
    (fun _ => T.modify fun rows => rows.filter fun r => T.id r ≠ n) fun _ => ()

/-! ### Locked rows -/

variable (P : Protocol D K R)

/-- The sessions of a protocol leave a row alone of which another holds a lock. -/
def Stable : Prop :=
  ∀ held (w w' : World D K R) n h, Rely P held w w' → T.lock n h ∈ held →
    T.find w'.db n = T.find w.db n

variable {T P}

lemma lock_mem_locks (n : ℕ) (h : Option (Fin readers)) : T.lock n h ∈ T.locks n := by
  cases h with
  | none => exact List.mem_cons_self
  | some h => exact List.mem_cons_of_mem _ (List.mem_map_of_mem (List.mem_finRange h))

lemma mem_locks {n : ℕ} {k : K} (hk : k ∈ T.locks n) : ∃ h, k = T.lock n h := by
  rcases List.mem_cons.1 hk with rfl | hk
  · exact ⟨none, rfl⟩
  · obtain ⟨h, -, rfl⟩ := List.mem_map.1 hk
    exact ⟨some h, rfl⟩

lemma mem_locksOf {d : D} {n : ℕ} {k : K} (hk : k ∈ T.locksOf d n) : ∃ h, k = T.lock n h := by
  rw [locksOf] at hk
  split_ifs at hk
  · exact mem_locks hk
  · nomatch hk

lemma locksOf_of_find {d : D} {n : ℕ} {r : Row} (h : T.find d n = some r) :
    T.locksOf d n = T.locks n := by
  rw [locksOf, h]
  rfl

lemma locksOf_of_none {d : D} {n : ℕ} (h : T.find d n = none) : T.locksOf d n = [] := by
  rw [locksOf, h]
  rfl

variable (T) in
/-- A row that is locked, as it was found: the locks `hs` of it are held. -/
structure Held (hs : Set (Option (Fin readers))) (n : ℕ) (row : Row) (l : Local D K)
    (w : World D K R) : Prop where
  lock : ∀ h ∈ hs, T.lock n h ∈ l.held
  find : T.find w.db n = some row

section Rules

variable {l l' : Local D K} {w w' : World D K R} {n : ℕ} {row : Row} {h : Fin readers}
  {hs : Set (Option (Fin readers))}

lemma Held.rely (hP : T.Stable P) (hmem : hs.Nonempty) (hheld : T.Held hs n row l w)
    (hr : Rely P l.held w w') : T.Held hs n row l w' := by
  obtain ⟨h, hh⟩ := hmem
  exact ⟨hheld.lock, (hP _ _ _ _ _ hr (hheld.lock h hh)).trans hheld.find⟩

lemma Held.later (hP : T.Stable P) (hmem : hs.Nonempty) (hheld : T.Held hs n row l w)
    (hl : Later P l w l' w') : T.Held hs n row l' w' :=
  ⟨fun h hh => hl.held (hheld.lock h hh), (hheld.rely hP hmem hl.rely).find⟩

/-- The rule for `SELECT … FOR SHARE` in a transaction that has written nothing. -/
lemma wp_selectForShare (hclean : l.Clean) {Q : Post D K R (Option Row)}
    (hnone : ∀ w', Later P l w l w' → Q none l w')
    (hsome : ∀ r l' w', l'.Clean → Later P l w l' w' → T.Held {some h} n r l' w' →
      Q (some r) l' w') : wp P (T.selectForShare h n) Q l w := by
  refine wp_update fun w' hr _ => ?_
  have hview : (l.ctx w').view = w'.db := hclean _
  cases hfind : T.find w'.db n with
  | none =>
    have hl : l.wrote [] (fun d => d) = l := l.wrote_nil
    simp only [hview, hfind, Option.map_none, Option.toList_none, hl]
    exact hnone _ (.stmt hr fun _ hk => hk)
  | some r =>
    simp only [hview, hfind, Option.map_some, Option.toList_some]
    refine hsome r _ _ (fun d => hclean d) (.stmt hr (l.held_wrote _ _)) ⟨?_, hfind⟩
    rintro _ rfl
    exact .inr (List.mem_singleton.2 rfl)

/-- The rule for `SELECT … FOR UPDATE` in a transaction that has written nothing. -/
lemma wp_selectForUpdate (hclean : l.Clean) {Q : Post D K R (Option Row)}
    (hnone : ∀ w', Later P l w l w' → Q none l w')
    (hsome : ∀ r l' w', l'.Clean → Later P l w l' w' → T.Held Set.univ n r l' w' →
      Q (some r) l' w') : wp P (T.selectForUpdate n) Q l w := by
  refine wp_update fun w' hr _ => ?_
  have hview : (l.ctx w').view = w'.db := hclean _
  cases hfind : T.find w'.db n with
  | none =>
    have hl : l.wrote [] (fun d => d) = l := l.wrote_nil
    simp only [hview, hfind, locksOf_of_none hfind, hl]
    exact hnone _ (.stmt hr fun _ hk => hk)
  | some r =>
    simp only [hview, hfind, locksOf_of_find hfind]
    refine hsome r _ _ (fun d => hclean d) (.stmt hr (l.held_wrote _ _)) ⟨fun h _ => ?_, hfind⟩
    exact .inr (lock_mem_locks n h)

end Rules

end SharedTable

end Db
