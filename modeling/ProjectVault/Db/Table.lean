import Mathlib.Tactic
import Mathlib.Data.List.MinMax
import Mathlib.Data.List.Sort
import Mathlib.Data.Prod.Lex

/-!
Tables as lists of rows, and the three statements a service issues against them.
-/

namespace Db

variable {α β : Type*}
variable {rows : List α} {p : α → Bool} {f : α → α}

/-! ### Updates -/

/-- `UPDATE rows SET f WHERE p`. -/
def updateWhere (p : α → Bool) (f : α → α) (rows : List α) : List α :=
  rows.map fun r => if p r then f r else r

@[simp] lemma updateWhere_nil (p : α → Bool) (f : α → α) : updateWhere p f [] = [] := rfl

@[simp] lemma updateWhere_cons (p : α → Bool) (f : α → α) (r : α) (rows : List α) :
    updateWhere p f (r :: rows) = (if p r then f r else r) :: updateWhere p f rows := rfl

@[simp] lemma updateWhere_append (p : α → Bool) (f : α → α) (l₁ l₂ : List α) :
    updateWhere p f (l₁ ++ l₂) = updateWhere p f l₁ ++ updateWhere p f l₂ := by
  simp [updateWhere]

lemma mem_updateWhere {x : α} :
    x ∈ updateWhere p f rows ↔ ∃ r ∈ rows, (if p r then f r else r) = x := by
  simp [updateWhere]

/-- A selection whose predicate the update leaves alone commutes with it. -/
lemma filter_updateWhere {q : α → Bool} (rows : List α) (h : ∀ r ∈ rows, p r = true → q (f r) = q r)
    :
    (updateWhere p f rows).filter q = updateWhere p f (rows.filter q) := by
  induction rows with
  | nil => rfl
  | cons r rows ih =>
    have ih' := ih fun x hx => h x (by simp [hx])
    by_cases hp : p r = true
    · have hq := h r (by simp) hp
      by_cases hqr : q r = true
      · simp [hp, hqr, hq, ih']
      · simp [hp, hqr, hq, ih']
    · by_cases hqr : q r = true
      · simp [hp, hqr, ih']
      · simp [hp, hqr, ih']

/-- An update that meets no row changes nothing. -/
lemma updateWhere_eq_self (h : ∀ r ∈ rows, p r = true → f r = r) : updateWhere p f rows = rows := by
  induction rows with
  | nil => rfl
  | cons r rows ih =>
    rw [updateWhere_cons, ih fun x hx => h x (by simp [hx])]
    by_cases hp : p r = true
    · rw [if_pos hp, h r (by simp) hp]
    · rw [if_neg hp]

/-- An update keeps every column the new rows keep. -/
lemma map_updateWhere {g : α → β} (rows : List α) (h : ∀ r ∈ rows, p r = true → g (f r) = g r) :
    (updateWhere p f rows).map g = rows.map g := by
  induction rows with
  | nil => rfl
  | cons r rows ih =>
    rw [updateWhere_cons, List.map_cons, List.map_cons, ih fun x hx => h x (by simp [hx])]
    by_cases hp : p r = true
    · rw [if_pos hp, h r (by simp) hp]
    · rw [if_neg hp]

/-- Two updates that meet the same rows in the same way are one. -/
lemma updateWhere_congr {q : α → Bool} {g : α → α} (hpq : ∀ r ∈ rows, p r = q r)
    (hfg : ∀ r ∈ rows, p r = true → f r = g r) :
    updateWhere p f rows = updateWhere q g rows := by
  refine List.map_congr_left fun r hr => ?_
  rw [← hpq r hr]
  by_cases hp : p r = true
  · rw [if_pos hp, if_pos hp, hfg r hr hp]
  · rw [if_neg hp, if_neg hp]

/-- An update seen through a projection of the rows. -/
lemma map_updateWhere_comm {q : β → Bool} {g : α → β} {h : β → β} (rows : List α)
    (hpq : ∀ r ∈ rows, q (g r) = p r) (hf : ∀ r ∈ rows, p r = true → g (f r) = h (g r)) :
    (updateWhere p f rows).map g = updateWhere q h (rows.map g) := by
  rw [updateWhere, updateWhere, List.map_map, List.map_map]
  refine List.map_congr_left fun r hr => ?_
  simp only [Function.comp_apply]
  rw [hpq r hr]
  by_cases hp : p r = true
  · rw [if_pos hp, if_pos hp, hf r hr hp]
  · rw [if_neg hp, if_neg hp]

/-- One update after another, where the first takes its rows out of the second's
reach. -/
lemma updateWhere_updateWhere {q : α → Bool} (h : ∀ r ∈ rows, p r = true → q (f r) = false) :
    updateWhere q f (updateWhere p f rows) = updateWhere (fun r => p r || q r) f rows := by
  rw [updateWhere, updateWhere, updateWhere, List.map_map]
  refine List.map_congr_left fun r hr => ?_
  by_cases hp : p r = true
  · simp [hp, h r hr hp]
  · simp [hp]

/-- Every row is still there, changed as `R` allows. -/
def Continues (R : α → α → Prop) (rows rows' : List α) : Prop := ∀ r ∈ rows, ∃ r' ∈ rows', R r r'

lemma Continues.append {R : α → α → Prop} {rows' : List α} (h : Continues R rows rows')
    (new : List α) : Continues R rows (rows' ++ new) := by
  intro r hr
  obtain ⟨r', hr', hR⟩ := h r hr
  exact ⟨r', List.mem_append_left new hr', hR⟩

lemma Continues.updateWhere {R : α → α → Prop} {rows' : List α} [IsTrans α R]
    (h : Continues R rows rows') (hf : ∀ r ∈ rows', p r = true → R r (f r)) :
    Continues R rows (Db.updateWhere p f rows') := by
  intro r hr
  obtain ⟨r', hr', hR⟩ := h r hr
  refine ⟨_, mem_updateWhere.2 ⟨r', hr', rfl⟩, ?_⟩
  split_ifs with hp
  · exact IsTrans.trans _ _ _ hR (hf r' hr' hp)
  · exact hR

/-! ### Keys -/

/-- In a table sorted by a key, the key determines the row. -/
lemma eq_of_key_eq [Preorder β] {key : α → β} (hs : rows.Pairwise fun a b => key a < key b)
    {x y : α} (hx : x ∈ rows) (hy : y ∈ rows) (h : key x = key y) : x = y := by
  induction rows with
  | nil => simp at hx
  | cons r rows ih =>
    obtain ⟨hr, hs'⟩ := List.pairwise_cons.mp hs
    rcases List.mem_cons.mp hx with rfl | hx'
    · rcases List.mem_cons.mp hy with rfl | hy'
      · rfl
      · exact absurd (hr y hy') (by rw [h]; exact lt_irrefl _)
    · rcases List.mem_cons.mp hy with rfl | hy'
      · exact absurd (hr x hx') (by rw [h]; exact lt_irrefl _)
      · exact ih hs' hx' hy'

/-! ### First rows -/

/-- The row above all others is the one `ORDER BY … DESC LIMIT 1` returns. -/
lemma argmax_eq_some_of_lt [LinearOrder β] {f : α → β} {r : α} (hr : r ∈ rows)
    (h : ∀ x ∈ rows, x ≠ r → f x < f r) : rows.argmax f = some r := by
  cases hm : rows.argmax f with
  | none => rw [List.argmax_eq_none.mp hm] at hr; simp at hr
  | some m =>
    by_cases hmr : m = r
    · rw [hmr]
    · have hlt := h m (List.argmax_mem hm) hmr
      have hle := List.le_of_mem_argmax hr hm
      exact absurd hlt (not_lt.mpr hle)

/-- `ORDER BY key DESC`. -/
def sortDesc [LinearOrder β] (key : α → β) (rows : List α) : List α :=
  rows.insertionSort fun a b => key b ≤ key a

section SortDesc

variable [LinearOrder β] (key : α → β)

instance totalDesc : Std.Total (fun a b : α => key b ≤ key a) := ⟨fun a b => le_total (key b) (key a)⟩

instance isTransDesc : IsTrans α (fun a b : α => key b ≤ key a) := ⟨fun _ _ _ h₁ h₂ => h₂.trans h₁⟩

@[simp] lemma mem_sortDesc {rows : List α} {x : α} : x ∈ sortDesc key rows ↔ x ∈ rows :=
  (List.perm_insertionSort _ rows).mem_iff

lemma sortDesc_pairwise (rows : List α) :
    (sortDesc key rows).Pairwise fun a b => key b ≤ key a :=
  List.pairwise_insertionSort _ rows

/-- The first row of a descending sort is above every row. -/
lemma head?_sortDesc {rows : List α} {r : α} (h : (sortDesc key rows).head? = some r) :
    r ∈ rows ∧ ∀ x ∈ rows, key x ≤ key r := by
  cases hs : sortDesc key rows with
  | nil => rw [hs] at h; simp at h
  | cons a l =>
    rw [hs] at h
    obtain rfl : a = r := by simpa using h
    have hmem : ∀ x, x ∈ a :: l ↔ x ∈ rows := fun x => by rw [← hs]; simp
    have hpw := sortDesc_pairwise key rows
    rw [hs] at hpw
    refine ⟨(hmem a).mp (by simp), fun x hx => ?_⟩
    rcases List.mem_cons.mp ((hmem x).mpr hx) with rfl | hx'
    · exact le_rfl
    · exact (List.pairwise_cons.mp hpw).1 x hx'

end SortDesc

/-- `ORDER BY key ASC`. -/
def sortAsc [LinearOrder β] (key : α → β) (rows : List α) : List α :=
  rows.insertionSort fun a b => key a ≤ key b

section SortAsc

variable [LinearOrder β] (key : α → β)
variable {rows : List α}

lemma perm_sortAsc (rows : List α) : (sortAsc key rows).Perm rows :=
  List.perm_insertionSort _ rows

@[simp] lemma mem_sortAsc {x : α} : x ∈ sortAsc key rows ↔ x ∈ rows :=
  (perm_sortAsc key rows).mem_iff

lemma sortAsc_pairwise (rows : List α) : (sortAsc key rows).Pairwise fun a b => key a ≤ key b :=
  List.pairwise_insertionSort _ rows

/-- The first rows of an ascending table are those up to the last of them. -/
lemma mem_prefix_iff {first : List α} {last x : α} (h : rows.Pairwise fun a b => key a < key b)
    (hfirst : first <+: rows) (hlast : first.getLast? = some last) (hx : x ∈ rows) :
    x ∈ first ↔ key x ≤ key last := by
  obtain ⟨rest, rfl⟩ := hfirst
  obtain ⟨front, rfl⟩ := List.getLast?_eq_some_iff.1 hlast
  obtain ⟨hordered, -, hrest⟩ := List.pairwise_append.1 h
  constructor
  · intro hmem
    rcases List.mem_append.1 hmem with hfront | heq
    · exact ((List.pairwise_append.1 hordered).2.2 x hfront last List.mem_cons_self).le
    · rw [List.mem_singleton.1 heq]
  · intro hle
    refine (List.mem_append.1 hx).resolve_right fun hlater => ?_
    exact (hrest last (by simp) x hlater).not_ge hle

/-- Rows that already stand in order stay as they are. -/
lemma sortAsc_eq_self (h : rows.Pairwise fun a b => key a < key b) :
    sortAsc key rows = rows :=
  (h.imp fun hlt => hlt.le).insertionSort_eq

/-- The last row of an ascending table is the one `ORDER BY … DESC LIMIT 1` returns. -/
lemma head?_sortDesc_eq_getLast? (h : rows.Pairwise fun a b => key a < key b) :
    (sortDesc key rows).head? = rows.getLast? := by
  have hrev : rows.reverse.Pairwise fun a b => key b ≤ key a :=
    List.pairwise_reverse.2 (h.imp fun hlt => hlt.le)
  have hperm : (sortDesc key rows).Perm rows.reverse :=
    (List.perm_insertionSort _ rows).trans (List.reverse_perm rows).symm
  have hsort : sortDesc key rows = rows.reverse := by
    refine hperm.eq_of_pairwise (fun a b ha hb hab hba => ?_) (sortDesc_pairwise key rows) hrev
    exact eq_of_key_eq h ((mem_sortDesc key).1 ha) (List.mem_reverse.1 hb) (le_antisymm hba hab)
  rw [hsort, List.head?_reverse]

/-- The rows below a row of an ascending table are those before it. -/
lemma filter_lt_eq_of_pairwise {before after : List α} {row : α}
    (h : (before ++ row :: after).Pairwise fun a b => key a < key b) :
    (before ++ row :: after).filter (fun x => key x < key row) = before := by
  obtain ⟨-, hrest, hcross⟩ := List.pairwise_append.1 h
  have hbefore : before.filter (fun x => key x < key row) = before := by
    rw [List.filter_eq_self]
    intro x hx
    simpa using hcross x hx row (by simp)
  have hafter : (row :: after).filter (fun x => key x < key row) = [] := by
    rw [List.filter_eq_nil_iff]
    intro x hx
    cases List.mem_cons.1 hx with
    | inl heq => simp [heq]
    | inr hmem => simpa using ((List.pairwise_cons.1 hrest).1 x hmem).le
  rw [List.filter_append, hbefore, hafter, List.append_nil]

end SortAsc

end Db
