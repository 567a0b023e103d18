import Mathlib.Tactic
import Mathlib.Data.List.Lex
import Mathlib.Data.Sum.Order
import Mathlib.Data.Prod.Lex

/-!
Compare functions of the language, whose sign says how two values compare, and the linear orders
they follow.
-/

namespace Js

/-- The sign of `r` is how `x` and `y` compare. -/
structure Compares {α : Type*} [LinearOrder α] (r : ℤ) (x y : α) : Prop where
  neg : r < 0 ↔ x < y
  pos : 0 < r ↔ y < x

section Compares

variable {α β : Type*} [LinearOrder α] [LinearOrder β] {r s : ℤ} {x y : α} {x' y' : β}

lemma Compares.eq_zero (h : Compares r x y) : r = 0 ↔ x = y := by
  constructor
  · rintro rfl
    exact le_antisymm (not_lt.1 fun hlt => by simpa using h.pos.2 hlt)
      (not_lt.1 fun hlt => by simpa using h.neg.2 hlt)
  · rintro rfl
    have hneg : ¬ r < 0 := fun hr => lt_irrefl x (h.neg.1 hr)
    have hpos : ¬ 0 < r := fun hr => lt_irrefl x (h.pos.1 hr)
    omega

/-- Two compare functions that agree on the order agree on the sign. -/
lemma Compares.congr (h : Compares r x y) (hlt : x < y ↔ x' < y') (hgt : y < x ↔ y' < x') :
    Compares r x' y' :=
  ⟨h.neg.trans hlt, h.pos.trans hgt⟩

lemma compares_sub (m n : ℕ) : Compares (m - n : ℤ) m n := by
  constructor <;> omega

/-- `r || s`: the second comparison decides where the first finds no difference. -/
def orElse (r s : ℤ) : ℤ := if r ≠ 0 then r else s

/-- **`r || s` follows the lexicographic order.** -/
lemma Compares.orElse (h : Compares r x y) (h' : Compares s x' y') :
    Compares (orElse r s) (toLex (x, x')) (toLex (y, y')) := by
  unfold Js.orElse
  by_cases hr : r = 0
  · obtain rfl := h.eq_zero.1 hr
    rw [if_neg (not_not.2 hr)]
    exact h'.congr (by simp [Prod.Lex.toLex_lt_toLex]) (by simp [Prod.Lex.toLex_lt_toLex])
  · have hne : x ≠ y := fun hxy => hr (h.eq_zero.2 hxy)
    rw [if_pos hr]
    exact h.congr (by simp [Prod.Lex.toLex_lt_toLex, hne])
      (by simp [Prod.Lex.toLex_lt_toLex, hne.symm])

/-! ### Lists -/

variable {ι : Type*}

/-- The first difference the compare function finds in the common part of two lists, else the
difference of their lengths. -/
def compareLists (compare : ι → ι → ℤ) (a b : List ι) : ℤ :=
  (((a.zip b).map fun p => compare p.1 p.2).find? fun d => decide (d ≠ 0)).getD
    (a.length - b.length)

lemma compareLists_cons (compare : ι → ι → ℤ) (u v : ι) (a b : List ι) :
    compareLists compare (u :: a) (v :: b) =
      Js.orElse (compare u v) (compareLists compare a b) := by
  unfold compareLists Js.orElse
  by_cases h : compare u v = 0
  · simp [h]
  · simp [h]

/-- **`compareLists` follows the lexicographic order of lists**, in which a list is above its
prefixes. -/
lemma compares_compareLists {compare : ι → ι → ℤ} {key : ι → α}
    (h : ∀ u v, Compares (compare u v) (key u) (key v)) :
    ∀ a b : List ι, Compares (compareLists compare a b) (a.map key) (b.map key)
  | [], [] => by
    constructor <;> simp [compareLists]
  | [], v :: b => by
    constructor
    · simp only [compareLists, List.zip_nil_left, List.map_nil, List.find?_nil,
        Option.getD_none, List.length_nil, List.length_cons, List.map_cons, List.nil_lt_cons,
        iff_true]
      omega
    · simp only [compareLists, List.zip_nil_left, List.map_nil, List.find?_nil,
        Option.getD_none, List.length_nil, List.length_cons, List.not_lt_nil, iff_false]
      omega
  | u :: a, [] => by
    constructor
    · simp only [compareLists, List.zip_nil_right, List.map_nil, List.find?_nil,
        Option.getD_none, List.length_nil, List.length_cons, List.not_lt_nil, iff_false]
      omega
    · simp only [compareLists, List.zip_nil_right, List.map_nil, List.find?_nil,
        Option.getD_none, List.length_nil, List.length_cons, List.map_cons, List.nil_lt_cons,
        iff_true]
      omega
  | u :: a, v :: b => by
    rw [compareLists_cons]
    refine ((h u v).orElse (compares_compareLists h a b)).congr ?_ ?_
    · rw [Prod.Lex.toLex_lt_toLex, List.map_cons, List.map_cons, List.cons_lt_cons_iff]
    · rw [Prod.Lex.toLex_lt_toLex, List.map_cons, List.map_cons, List.cons_lt_cons_iff]

/-- Strings compare as the lists of the numbers of their units. -/
lemma map_toNat_lt_map_toNat : ∀ a b : List UInt16,
    a.map UInt16.toNat < b.map UInt16.toNat ↔ a < b
  | [], [] => by simp
  | [], _ :: _ => by simp
  | _ :: _, [] => by simp
  | u :: a, v :: b => by
    rw [List.map_cons, List.map_cons, List.cons_lt_cons_iff, List.cons_lt_cons_iff,
      map_toNat_lt_map_toNat a b, UInt16.lt_iff_toNat_lt, UInt16.toNat_inj]

end Compares

end Js
