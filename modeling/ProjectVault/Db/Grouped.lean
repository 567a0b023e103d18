import ProjectVault.Db.Table

/-!
The first rows of an ordered select, group by group.
-/

namespace Db

variable {α β γ : Type*}

/-- `ORDER BY key LIMIT n`. -/
def firstRows [LinearOrder β] (key : α → β) (n : ℕ) (rows : List α) : List α :=
  (sortAsc key rows).take n

/-! ### Groups in order -/

/-- Rows in order split at a condition that a row passes on to those before it. -/
lemma eq_filter_append_filter_not {R : α → α → Prop} {p : α → Bool} {l : List α}
    (h : l.Pairwise R) (hp : ∀ a b, R a b → p b = true → p a = true) :
    l = l.filter p ++ l.filter fun x => !p x := by
  induction l with
  | nil => rfl
  | cons a l ih =>
    obtain ⟨ha, hl⟩ := List.pairwise_cons.1 h
    by_cases hpa : p a = true
    · rw [List.filter_cons_of_pos hpa, List.filter_cons_of_neg (by simpa using hpa),
        List.cons_append, ← ih hl]
    · have hnone : ∀ b ∈ l, ¬p b = true := fun b hb hpb => hpa (hp a b (ha b hb) hpb)
      have hall : ∀ b ∈ a :: l, (!p b) = true := by
        intro b hb
        rcases List.mem_cons.1 hb with rfl | hb
        · simpa using hpa
        · simpa using hnone b hb
      rw [List.filter_cons_of_neg hpa, List.filter_eq_nil_iff.2 hnone,
        List.filter_eq_self.2 hall, List.nil_append]

variable [LinearOrder γ] {g : α → γ} {l : List α}

/-- The first row of a group is among the first `n` rows if and only if the groups before it have
fewer than `n`. -/
lemma find?_take_of_groups (h : l.Pairwise fun a b => g a ≤ g b) (c : γ) (n : ℕ) :
    (l.take n).find? (fun x => g x = c) =
      if (l.filter fun x => g x < c).length < n then l.find? (fun x => g x = c) else none := by
  have hsplit := eq_filter_append_filter_not (p := fun x => g x < c) h
    (fun a b hab hb => by simpa using hab.trans_lt (by simpa using hb))
  generalize hbefore : l.filter (fun x => g x < c) = before at hsplit ⊢
  generalize hafter : (l.filter fun x => !decide (g x < c)) = after at hsplit
  have hskip : ∀ x ∈ before, ¬decide (g x = c) = true := by
    intro x hx
    rw [← hbefore, List.mem_filter] at hx
    simpa using ne_of_lt (by simpa using hx.2)
  rw [hsplit, List.take_append]
  split_ifs with hlt
  · rw [List.take_of_length_le hlt.le, List.find?_append, List.find?_append,
      List.find?_eq_none.2 hskip, Option.none_or, Option.none_or]
    -- one row at least is left of the groups from `c` on
    obtain ⟨m, hm⟩ : ∃ m, n - before.length = m + 1 := ⟨n - before.length - 1, by omega⟩
    rw [hm]
    cases after with
    | nil => rfl
    | cons b rest =>
      rw [List.take_succ_cons, List.find?_cons, List.find?_cons]
      by_cases hb : g b = c
      · simp [hb]
      · have hsorted : (b :: rest).Pairwise fun a b => g a ≤ g b := by
          rw [← hafter]
          exact h.filter _
        have hcb : c ≤ g b := by
          have hmem : b ∈ l.filter fun x => !decide (g x < c) := by
            rw [hafter]
            exact List.mem_cons_self
          simpa using (List.mem_filter.1 hmem).2
        have hrest : ∀ x ∈ rest, ¬decide (g x = c) = true := by
          intro x hx hxc
          have hle := (List.pairwise_cons.1 hsorted).1 x hx
          rw [of_decide_eq_true hxc] at hle
          exact hb (le_antisymm hle hcb)
        rw [List.find?_eq_none.2 hrest,
          List.find?_eq_none.2 fun x hx => hrest x (List.mem_of_mem_take hx)]
  · rw [List.find?_eq_none]
    intro x hx
    have hzero : n - before.length = 0 := by omega
    rw [hzero, List.take_zero, List.append_nil] at hx
    exact hskip x (List.mem_of_mem_take hx)

/-- When the groups up to a group have at most `n` rows, its rows are all among the first `n`. -/
lemma mem_take_of_groups (h : l.Pairwise fun a b => g a ≤ g b) {c : γ} {n : ℕ}
    (hn : (l.filter fun x => g x ≤ c).length ≤ n) {x : α} (hx : x ∈ l) (hxc : g x = c) :
    x ∈ l.take n := by
  have hsplit := eq_filter_append_filter_not (p := fun x => g x ≤ c) h
    (fun a b hab hb => by simpa using hab.trans (by simpa using hb))
  rw [hsplit, List.take_append, List.take_of_length_le hn]
  exact List.mem_append_left _ (List.mem_filter.2 ⟨hx, by simpa using hxc.le⟩)

/-- Up to its own group there is one row more than before it. -/
lemma length_filter_lt_of_mem {x : α} (hx : x ∈ l) :
    (l.filter fun y => g y < g x).length < (l.filter fun y => g y ≤ g x).length := by
  have hfilter : (l.filter fun y => g y < g x) =
      (l.filter fun y => g y ≤ g x).filter fun y => g y < g x := by
    rw [List.filter_filter]
    refine List.filter_congr fun y _ => ?_
    by_cases hy : g y < g x
    · simp [hy, hy.le]
    · simp [hy]
  rw [hfilter, List.length_filter_lt_length_iff_exists]
  exact ⟨x, List.mem_filter.2 ⟨hx, by simp⟩, by simp⟩

/-! ### The first row of a group -/

lemma firstRows_subset [LinearOrder β] {key : α → β} {n : ℕ} {rows : List α} {x : α}
    (hx : x ∈ firstRows key n rows) : x ∈ rows :=
  (mem_sortAsc key).1 (List.mem_of_mem_take hx)

/-- The first row with a property is the least one. -/
lemma find?_sortAsc [LinearOrder β] {key : α → β} {rows : List α} {p : α → Bool} {r : α}
    (h : (sortAsc key rows).find? p = some r) :
    r ∈ rows ∧ p r = true ∧ ∀ x ∈ rows, p x = true → key r ≤ key x := by
  obtain ⟨hp, before, after, hsplit, hbefore⟩ := List.find?_eq_some_iff_append.1 h
  have hsorted := sortAsc_pairwise key rows
  refine ⟨(mem_sortAsc key).1 (List.mem_of_find?_eq_some h), hp, fun x hx hpx => ?_⟩
  rw [← mem_sortAsc key, hsplit] at hx
  rw [hsplit] at hsorted
  rcases List.mem_append.1 hx with hx | hx
  · exact absurd hpx (by simpa using hbefore x hx)
  · rcases List.mem_cons.1 hx with rfl | hx
    · exact le_rfl
    · exact (List.pairwise_cons.1 (List.pairwise_append.1 hsorted).2.1).1 x hx

end Db
