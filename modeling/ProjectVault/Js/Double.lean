import Mathlib.Tactic
import Mathlib.Data.Int.Log

/-!
The finite numbers of the language, as the rationals they are.
-/

namespace Js

variable {x : ℚ} {k : ℤ}

/-- The nearest integer, the even one of two. -/
def roundEven (x : ℚ) : ℤ :=
  if 2 * (x - ⌊x⌋) < 1 ∨ (2 * (x - ⌊x⌋) = 1 ∧ Even ⌊x⌋) then ⌊x⌋ else ⌊x⌋ + 1

/-- The distance of two doubles next to a number. -/
def ulp (x : ℚ) : ℚ := 2 ^ (Int.log 2 |x| - 52)

/-- The double nearest to a number. -/
def toDouble (x : ℚ) : ℚ := if x = 0 then 0 else roundEven (x / ulp x) * ulp x

lemma roundEven_le (h : x ≤ k) : roundEven x ≤ k := by
  rcases h.lt_or_eq with hlt | rfl
  · have hfloor : ⌊x⌋ < k := Int.floor_lt.2 hlt
    rw [roundEven]
    split <;> omega
  · rw [roundEven, Int.floor_intCast, sub_self, mul_zero, if_pos (.inl one_pos)]

lemma le_roundEven (h : (k : ℚ) ≤ x) : k ≤ roundEven x := by
  have hfloor : k ≤ ⌊x⌋ := Int.le_floor.2 h
  rw [roundEven]
  split <;> omega

lemma ulp_pos (x : ℚ) : 0 < ulp x := zpow_pos two_pos _

/-- Below `2^53` the integers are multiples of the distance. -/
lemma intCast_eq_mul_ulp (h : Int.log 2 |x| ≤ 52) (k : ℤ) :
    ((k * 2 ^ (52 - Int.log 2 |x|).toNat : ℤ) : ℚ) * ulp x = k := by
  have hexp : (((52 - Int.log 2 |x|).toNat : ℕ) : ℤ) = 52 - Int.log 2 |x| :=
    Int.toNat_of_nonneg (by omega)
  rw [ulp]
  push_cast
  rw [mul_assoc, ← zpow_natCast, ← zpow_add₀ two_ne_zero, hexp]
  simp

/-- From `2^53` on a number is large. -/
lemma two_pow_le_abs (hx : x ≠ 0) (h : 52 < Int.log 2 |x|) :
    (2 : ℚ) ^ (53 : ℕ) ≤ 2 ^ (52 : ℕ) * ulp x ∧ (2 : ℚ) ^ (52 : ℕ) * ulp x ≤ |x| := by
  have hscale : (2 : ℚ) ^ (52 : ℕ) * ulp x = 2 ^ Int.log 2 |x| := by
    rw [ulp, ← zpow_natCast, ← zpow_add₀ two_ne_zero]
    congr 1
    push_cast
    ring
  rw [hscale]
  refine ⟨?_, Int.zpow_log_le_self one_lt_two (abs_pos.2 hx)⟩
  rw [← zpow_natCast]
  exact zpow_le_zpow_right₀ one_le_two (by push_cast; omega)

/-- Rounding does not pass a safe integer upwards. -/
lemma toDouble_le (hk : -2 ^ 53 < k) (hk' : k < 2 ^ 53) (h : x ≤ k) :
    toDouble x ≤ k := by
  rw [toDouble]
  split
  · rename_i hx
    rwa [hx] at h
  rename_i hx
  rcases le_or_gt (Int.log 2 |x|) 52 with hlog | hlog
  · rw [← intCast_eq_mul_ulp hlog k]
    refine mul_le_mul_of_nonneg_right (Int.cast_le.2 (roundEven_le ?_)) (ulp_pos x).le
    rwa [div_le_iff₀ (ulp_pos x), intCast_eq_mul_ulp hlog k]
  · -- a number this large and not above `k` is negative
    obtain ⟨hsmall, hlarge⟩ := two_pow_le_abs hx hlog
    have hk'' : (k : ℚ) < 2 ^ 53 := by exact_mod_cast hk'
    have hneg : x ≤ -(2 ^ 52 * ulp x) := by
      rcases le_abs'.1 hlarge with hle | hle
      · exact hle
      · linarith
    have hround : roundEven (x / ulp x) ≤ -2 ^ 52 := by
      refine roundEven_le ?_
      rw [div_le_iff₀ (ulp_pos x)]
      push_cast
      linarith
    have hcast : ((roundEven (x / ulp x) : ℤ) : ℚ) ≤ -2 ^ 52 := by exact_mod_cast hround
    have hlow : (-2 ^ 53 : ℚ) < k := by exact_mod_cast hk
    calc (roundEven (x / ulp x) : ℚ) * ulp x
        ≤ -2 ^ 52 * ulp x := mul_le_mul_of_nonneg_right hcast (ulp_pos x).le
      _ ≤ k := by linarith

lemma roundEven_neg (x : ℚ) : roundEven (-x) = -roundEven x := by
  by_cases hint : ∃ n : ℤ, x = n
  · obtain ⟨n, rfl⟩ := hint
    have hself : ∀ m : ℤ, roundEven (m : ℚ) = m := fun m =>
      le_antisymm (roundEven_le le_rfl) (le_roundEven le_rfl)
    rw [← Int.cast_neg, hself, hself]
  · have hlt : (⌊x⌋ : ℚ) < x := lt_of_le_of_ne (Int.floor_le x) fun h => hint ⟨⌊x⌋, h.symm⟩
    have hfloor : ⌊-x⌋ = -⌊x⌋ - 1 := by
      rw [Int.floor_eq_iff]
      have hup := Int.lt_floor_add_one x
      push_cast
      constructor <;> linarith
    rw [roundEven, roundEven, hfloor]
    have hparity : Even (-⌊x⌋ - 1) ↔ ¬ Even ⌊x⌋ := by
      rw [Int.even_sub_one, even_neg]
    push_cast
    by_cases hlow : 2 * (x - ⌊x⌋) < 1
    · rw [if_neg, if_pos (.inl hlow)]
      · omega
      · rintro (h | h)
        · linarith
        · linarith [h.1]
    · by_cases heq : 2 * (x - ⌊x⌋) = 1
      · have heq' : 2 * (-x - (-(⌊x⌋ : ℚ) - 1)) = 1 := by linarith
        simp only [heq, heq', lt_irrefl, false_or, true_and, hparity]
        split_ifs with h <;> omega
      · have hhigh : 2 * (-x - (-(⌊x⌋ : ℚ) - 1)) < 1 := by
          have hge : 1 < 2 * (x - ⌊x⌋) := lt_of_le_of_ne (not_lt.1 hlow) (Ne.symm heq)
          linarith
        rw [if_pos (.inl hhigh), if_neg]
        · omega
        · rintro (h | h)
          · exact hlow h
          · exact heq h.1

@[simp] lemma toDouble_neg (x : ℚ) : toDouble (-x) = -toDouble x := by
  have hulp : ulp (-x) = ulp x := by rw [ulp, abs_neg, ulp]
  rw [toDouble, toDouble, hulp]
  by_cases hx : x = 0
  · simp [hx]
  · rw [if_neg (by simpa using hx), if_neg hx, neg_div, roundEven_neg]
    push_cast
    ring

/-- Rounding does not pass a safe integer downwards. -/
lemma le_toDouble (hk : -2 ^ 53 < k) (hk' : k < 2 ^ 53) (h : (k : ℚ) ≤ x) :
    (k : ℚ) ≤ toDouble x := by
  have hneg := toDouble_le (x := -x) (k := -k) (by omega) (by omega)
    (by push_cast; linarith)
  rw [toDouble_neg] at hneg
  push_cast at hneg
  linarith

/-- The distance scales with the number. -/
lemma ulp_mul_zpow (hx : x ≠ 0) (n : ℤ) : ulp (x * 2 ^ n) = ulp x * 2 ^ n := by
  have hpos : 0 < |x| := abs_pos.2 hx
  have hscale : (0 : ℚ) < 2 ^ n := zpow_pos two_pos n
  have habs : |x * 2 ^ n| = |x| * 2 ^ n := by rw [abs_mul, abs_of_pos hscale]
  have hlow : (2 : ℚ) ^ (Int.log 2 |x|) ≤ |x| := Int.zpow_log_le_self one_lt_two hpos
  have hhigh : |x| < (2 : ℚ) ^ (Int.log 2 |x| + 1) := Int.lt_zpow_succ_log_self one_lt_two |x|
  have hlog : Int.log 2 |x * 2 ^ n| = Int.log 2 |x| + n := by
    have hpos' : 0 < |x| * 2 ^ n := mul_pos hpos hscale
    rw [habs]
    refine le_antisymm (Int.le_of_lt_add_one ?_) ?_
    · refine (Int.lt_zpow_iff_log_lt one_lt_two hpos').1 ?_
      calc |x| * 2 ^ n < 2 ^ (Int.log 2 |x| + 1) * 2 ^ n := mul_lt_mul_of_pos_right hhigh hscale
        _ = 2 ^ (Int.log 2 |x| + n + 1) := by
            rw [← zpow_add₀ two_ne_zero]
            congr 1
            ring
    · refine (Int.zpow_le_iff_le_log one_lt_two hpos').1 ?_
      calc (2 : ℚ) ^ (Int.log 2 |x| + n) = 2 ^ Int.log 2 |x| * 2 ^ n :=
            zpow_add₀ two_ne_zero _ _
        _ ≤ |x| * 2 ^ n := mul_le_mul_of_nonneg_right hlow hscale.le
  rw [ulp, ulp, hlog, ← zpow_add₀ two_ne_zero]
  congr 1
  ring

/-- Rounding commutes with the powers of two. -/
lemma toDouble_mul_zpow (x : ℚ) (n : ℤ) : toDouble (x * 2 ^ n) = toDouble x * 2 ^ n := by
  have hscale : (2 : ℚ) ^ n ≠ 0 := zpow_ne_zero n two_ne_zero
  by_cases hx : x = 0
  · simp [hx, toDouble]
  · rw [toDouble, toDouble, if_neg hx, if_neg (mul_ne_zero hx hscale), ulp_mul_zpow hx,
      mul_div_mul_right _ _ hscale, mul_assoc]

/-- Rounding does not pass a dyadic number downwards. -/
lemma div_le_toDouble {n : ℤ} (hk : -2 ^ 53 < k) (hk' : k < 2 ^ 53) (h : (k : ℚ) / 2 ^ n ≤ x) :
    (k : ℚ) / 2 ^ n ≤ toDouble x := by
  have hscale : (0 : ℚ) < 2 ^ n := zpow_pos two_pos n
  rw [div_le_iff₀ hscale] at h ⊢
  rw [← toDouble_mul_zpow]
  exact le_toDouble hk hk' h

/-- Safe integers are doubles. -/
lemma toDouble_intCast (hk : -2 ^ 53 < k) (hk' : k < 2 ^ 53) :
    toDouble (k : ℚ) = k :=
  le_antisymm (toDouble_le hk hk' le_rfl) (le_toDouble hk hk' le_rfl)

end Js
