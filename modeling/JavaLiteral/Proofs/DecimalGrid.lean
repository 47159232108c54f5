import JavaLiteral.Proofs.Rounding
import JavaLiteral.Decimal.Shortest
import Mathlib.Algebra.Order.Field.Basic
import Mathlib.Tactic.NormNum

/-!
# The decimals near a number

The exponent of the leading digit of a number puts it between two powers of ten
(`zpow_leadingExponent_le`, `lt_zpow_leadingExponent`). Its nearest decimal on a grid is no further
away than half a step of the grid (`abs_nearest_sub_le`), and nothing is strictly closer to it than
a point of the grid that is that close already (`not_closer_of_grid`).
-/

namespace JavaLiteral

theorem digitCount_pos (n : ℕ) : 0 < digitCount n := Nat.length_toDigits_pos

theorem lt_pow_digitCount (n : ℕ) : n < 10 ^ digitCount n :=
  (Nat.length_toDigits_le_iff (by decide) (digitCount_pos n)).1 le_rfl

theorem pow_digitCount_le {n : ℕ} (h : 0 < n) : 10 ^ (digitCount n - 1) ≤ n := by
  rcases Nat.eq_zero_or_pos (digitCount n - 1) with h0 | h0
  · rw [h0]
    exact h
  · refine not_lt.1 (mt (Nat.length_toDigits_le_iff (by decide) h0).2 ?_)
    have := digitCount_pos n
    unfold digitCount at *
    omega

theorem zpow_natCast_digitCount_sub_one (n : ℕ) :
    (10 : ℚ) ^ ((digitCount n : ℤ) - 1) = (10 ^ (digitCount n - 1) : ℕ) := by
  rw [← Nat.cast_pred (digitCount_pos n), zpow_natCast, Nat.cast_pow, Nat.cast_ofNat]

section LeadingExponent

variable {x : ℚ}

theorem leadingExponent_of_one_le (h : 1 ≤ x) :
    (10 : ℚ) ^ leadingExponent x ≤ x ∧ x < (10 : ℚ) ^ (leadingExponent x + 1) := by
  have hx : 0 ≤ x := by linarith
  have hle := floor_toNat_le hx
  have hlt := lt_floor_toNat_add_one hx
  unfold leadingExponent
  rw [if_pos h, sub_add_cancel, zpow_natCast_digitCount_sub_one, zpow_natCast]
  have hpos : 0 < x.floor.toNat := by
    by_contra hcon
    rw [Nat.eq_zero_of_not_pos hcon] at hlt
    norm_num at hlt
    linarith
  generalize x.floor.toNat = n at *
  refine ⟨le_trans ?_ hle, hlt.trans_le ?_⟩
  · exact_mod_cast pow_digitCount_le hpos
  · exact_mod_cast lt_pow_digitCount n

theorem leadingExponent_of_lt_one (h0 : 0 < x) (h : x < 1) :
    (10 : ℚ) ^ leadingExponent x ≤ x ∧ x < (10 : ℚ) ^ (leadingExponent x + 1) := by
  have hinv : 1 < x⁻¹ := (one_lt_inv₀ h0).2 h
  have hceil : 1 < x⁻¹.ceil := Rat.lt_ceil_iff.2 (by exact_mod_cast hinv)
  obtain ⟨n, hn⟩ : ∃ n : ℕ, x⁻¹.ceil = n + 1 := ⟨x⁻¹.ceil.toNat - 1, by omega⟩
  have hlow : (n : ℚ) < x⁻¹ := by
    have : (n : ℤ) < x⁻¹.ceil := by omega
    exact_mod_cast Rat.lt_ceil_iff.1 this
  have hup : x⁻¹ ≤ n + 1 := by
    have := Rat.le_ceil (x := x⁻¹)
    rw [hn] at this
    exact_mod_cast this
  have hpos : 0 < n := by omega
  have hlead : leadingExponent x = -digitCount n := by
    unfold leadingExponent
    rw [if_neg (by linarith), hn]
    rfl
  rw [hlead, show -(digitCount n : ℤ) + 1 = -((digitCount n : ℤ) - 1) by ring, zpow_neg, zpow_neg,
    zpow_natCast_digitCount_sub_one, zpow_natCast]
  constructor
  · refine inv_le_of_inv_le₀ h0 (hup.trans ?_)
    exact_mod_cast lt_pow_digitCount n
  · refine lt_inv_of_lt_inv₀ (by positivity) (lt_of_le_of_lt ?_ hlow)
    exact_mod_cast pow_digitCount_le hpos

theorem zpow_leadingExponent_le (h : 0 < x) : (10 : ℚ) ^ leadingExponent x ≤ x := by
  rcases le_or_gt 1 x with h1 | h1
  · exact (leadingExponent_of_one_le h1).1
  · exact (leadingExponent_of_lt_one h h1).1

theorem lt_zpow_leadingExponent (h : 0 < x) : x < (10 : ℚ) ^ (leadingExponent x + 1) := by
  rcases le_or_gt 1 x with h1 | h1
  · exact (leadingExponent_of_one_le h1).2
  · exact (leadingExponent_of_lt_one h h1).2

end LeadingExponent

namespace Decimal

variable {x : ℚ} {e : ℤ}

theorem value_nonneg (d : Decimal) : 0 ≤ d.value :=
  mul_nonneg (Nat.cast_nonneg _) (zpow_nonneg (by norm_num) _)

theorem distance_eq (d : Decimal) (x : ℚ) : d.distance x = |d.value - x| := by
  unfold distance
  split_ifs with h
  · rw [abs_of_neg (by linarith), neg_sub]
  · rw [abs_of_nonneg (by linarith)]

/-- The nearest decimal is at most half a step of its grid away. -/
theorem abs_nearest_sub_le (hx : 0 ≤ x) (e : ℤ) : |(nearest x e).value - x| ≤ (10 : ℚ) ^ e / 2 := by
  have hp : (0 : ℚ) < (10 : ℚ) ^ e := zpow_pos (by norm_num) e
  have h := abs_sub_roundEven_le (div_nonneg hx hp.le)
  have heq : (nearest x e).value - x
      = -(x / (10 : ℚ) ^ e - roundEven (x / (10 : ℚ) ^ e)) * (10 : ℚ) ^ e := by
    rw [neg_mul, sub_mul, div_mul_cancel₀ _ hp.ne', neg_sub]
    rfl
  rw [heq, abs_mul, abs_neg, abs_of_pos hp]
  linarith [mul_le_mul_of_nonneg_right h hp.le]

/-- Of two points of a grid none is strictly closer than one within half a step of a number. -/
theorem not_closer_of_grid (a b : ℕ) (h : |a * (10 : ℚ) ^ e - x| ≤ (10 : ℚ) ^ e / 2) :
    ¬|b * (10 : ℚ) ^ e - x| < |a * (10 : ℚ) ^ e - x| := by
  intro hb
  have hp : (0 : ℚ) < (10 : ℚ) ^ e := zpow_pos (by norm_num) e
  have hab : |(a : ℚ) - b| * (10 : ℚ) ^ e < 1 * (10 : ℚ) ^ e := by
    rw [← abs_of_pos hp, ← abs_mul, sub_mul, abs_of_pos hp]
    have := abs_sub_le (a * (10 : ℚ) ^ e) x (b * (10 : ℚ) ^ e)
    rw [abs_sub_comm x] at this
    linarith
  have hint : |(a : ℤ) - b| < 1 := by exact_mod_cast lt_of_mul_lt_mul_right hab hp.le
  obtain rfl : a = b := by
    have := Int.abs_lt_one_iff.1 hint
    omega
  exact lt_irrefl _ hb

end Decimal

end JavaLiteral
