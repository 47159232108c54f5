import JavaLiteral.Decimal
import JavaLiteral.Proofs.DecimalGrid
import Mathlib.Data.Nat.Prime.Basic

/-!
# Decimals close to the middles between singles

Let a decimal and the middle between two neighbours of type `float` be multiples of `α` and of one,
in a unit that depends on the binade only. A convergent `p / q` of `α` tells them apart: if they are
as close as half the spacing of type `double`, the multiples are themselves multiples of `q` and `p`
(`exists_mul_of_approximates`). In all binades but one there is a convergent whose denominator is
too large for that, so that the two are equal or not close at all, and in that one there is a single
exception (`close_cases`).
-/

namespace JavaLiteral

namespace CloseFractions

open Binary.Format

/-- Whether a fraction in lowest terms is so close to a number that no other multiples below the
bound come near each other. -/
def Approximates (α : ℚ) (p q : ℕ) : Prop :=
  p.Coprime q ∧ 0 < q ∧ q / 2 ^ 28 + 2 ^ 25 / α * (p - q * α) < 1
    ∧ q / 2 ^ 28 + 2 ^ 25 / α * (q * α - p) < 1

instance (α : ℚ) (p q : ℕ) : Decidable (Approximates α p q) := inferInstanceAs (Decidable (_ ∧ _))

variable {α : ℚ} {p q d n : ℕ}

/-- Close multiples of a number and of one are multiples of a fraction that approximates it. -/
theorem exists_mul_of_approximates (h : Approximates α p q) (hα : 0 < α) (hd : d * α < 2 ^ 25)
    (hclose : |d * α - n| ≤ 1 / 2 ^ 28) : ∃ j, d = j * q ∧ n = j * p := by
  obtain ⟨hcop, hq, hlow, hup⟩ := h
  obtain ⟨h1, h2⟩ := abs_le.1 hclose
  have hq' : (0 : ℚ) < q := Nat.cast_pos.2 hq
  have hbound : (d : ℚ) ≤ 2 ^ 25 / α := (le_div_iff₀ hα).2 hd.le
  have hd0 : (0 : ℚ) ≤ d := Nat.cast_nonneg d
  have hcross : (d : ℚ) * p - n * q = q * (d * α - n) + d * (p - q * α) := by ring
  have hleft := mul_le_mul_of_nonneg_left h1 hq'.le
  have hright := mul_le_mul_of_nonneg_left h2 hq'.le
  have hlt : |(d : ℚ) * p - n * q| < 1 := by
    rw [hcross, abs_lt]
    rcases le_total 0 ((p : ℚ) - q * α) with hs | hs
    · have hmul := mul_le_mul_of_nonneg_right hbound hs
      have hpos := mul_nonneg hd0 hs
      have := mul_nonneg (hd0.trans hbound) hs
      exact ⟨by linarith, by linarith⟩
    · have hmul := mul_le_mul_of_nonneg_right hbound (neg_nonneg.2 hs)
      have hpos := mul_nonneg hd0 (neg_nonneg.2 hs)
      have := mul_nonneg (hd0.trans hbound) (neg_nonneg.2 hs)
      exact ⟨by linarith, by linarith⟩
  have heq : d * p = n * q := by
    have hint : |(d * p : ℤ) - n * q| < 1 := by exact_mod_cast hlt
    have := Int.abs_lt_one_iff.1 hint
    exact_mod_cast sub_eq_zero.1 this
  obtain ⟨j, rfl⟩ := hcop.symm.dvd_of_dvd_mul_right (Dvd.intro_left n heq.symm)
  refine ⟨j, Nat.mul_comm q j, ?_⟩
  rw [Nat.mul_assoc, Nat.mul_comm] at heq
  exact (Nat.eq_of_mul_eq_mul_right hq heq).symm

/-- The convergent of `a / b` by Euclid's algorithm that is the first to have a denominator past a
bound, or else the last one. The two pairs are the convergents found last. -/
def convergent (bound : ℕ) : ℕ → ℕ → ℕ → ℕ × ℕ → ℕ × ℕ → ℕ × ℕ
  | 0, _, _, _, c => c
  | fuel + 1, a, b, c', c =>
    if b = 0 ∨ bound < c.2 then c
    else convergent bound fuel b (a % b) c (a / b * c.1 + c'.1, a / b * c.2 + c'.2)

/-- The power of ten after the step of a grid of singles, in halves of the step. -/
def ratio (s : ℕ) : ℚ := (10 : ℚ) ^ (leadingExponent (single.step s) + 1) / (single.step s / 2)

theorem exists_value_eq_ratio {s : ℕ} {d : Decimal} (h : single.step s < (10 : ℚ) ^ d.exp) :
    ∃ m : ℕ, d.value = m * ratio s * (single.step s / 2) := by
  have hhalf := half_pos (single.step_pos s)
  have hlt := (zpow_leadingExponent_le (single.step_pos s)).trans_lt h
  have hle : leadingExponent (single.step s) + 1 ≤ d.exp :=
    (zpow_lt_zpow_iff_right₀ (by norm_num : (1 : ℚ) < 10)).1 hlt
  obtain ⟨i, hi⟩ := Int.eq_ofNat_of_zero_le (sub_nonneg.2 hle)
  refine ⟨d.coeff * 10 ^ i, ?_⟩
  rw [ratio, mul_assoc, div_mul_cancel₀ _ hhalf.ne', Decimal.value,
    show d.exp = i + (leadingExponent (single.step s) + 1) by omega, zpow_add₀ (by norm_num),
    zpow_natCast]
  push_cast
  ring

/-- The fraction that tells decimals and middles apart in a binade. -/
def fraction (s : ℕ) : ℕ × ℕ :=
  convergent (2 ^ 25 / ratio s).floor.toNat 30 (ratio s).num.toNat (ratio s).den (0, 1) (1, 0)

theorem ratio_pos (s : ℕ) : 0 < ratio s :=
  div_pos (zpow_pos (by norm_num) _) (half_pos (single.step_pos s))

theorem approximates_fraction : ∀ s < 254, s ≠ 42 →
    Approximates (ratio s) (fraction s).1 (fraction s).2
      ∧ (2 ^ 25 ≤ (fraction s).2 * ratio s ∨ (fraction s).2 * ratio s = (fraction s).1) := by
  decide +kernel

theorem approximates_exception :
    Approximates (ratio 42) 22841339 7038531 ∧ 2 ^ 25 ≤ 2 * 7038531 * ratio 42 := by
  decide +kernel

/-- A decimal that is closer to a middle than a `double` can tell is the middle, save for one. -/
theorem close_cases {s : ℕ} (hs : s < 254) (hn0 : 0 < n) (hn : n < 2 ^ 25)
    (hclose : |d * ratio s - n| ≤ n / 2 ^ 53) :
    d * ratio s = n ∨ s = 42 ∧ d = 7038531 ∧ n = 22841339 := by
  have hr := ratio_pos s
  have hn1 : (n : ℚ) + 1 ≤ 2 ^ 25 := by exact_mod_cast hn
  have hclose28 : |d * ratio s - n| ≤ 1 / 2 ^ 28 := hclose.trans (by linarith)
  have hd : d * ratio s < 2 ^ 25 := by linarith [(abs_le.1 hclose28).2]
  by_cases h42 : s = 42
  · subst h42
    obtain ⟨happrox, hlarge⟩ := approximates_exception
    obtain ⟨j, rfl, rfl⟩ := exists_mul_of_approximates happrox hr hd hclose28
    have hj : j < 2 := by
      by_contra hcon
      have hj : (2 : ℚ) ≤ j := by exact_mod_cast not_lt.1 hcon
      have := mul_le_mul_of_nonneg_right hj (mul_nonneg (by norm_num : (0 : ℚ) ≤ 7038531) hr.le)
      push_cast at hd
      linarith
    obtain rfl : j = 1 := by
      have := Nat.pos_of_mul_pos_right hn0
      omega
    exact .inr ⟨rfl, Nat.one_mul _, Nat.one_mul _⟩
  · obtain ⟨happrox, hlarge⟩ := approximates_fraction s hs h42
    obtain ⟨j, rfl, rfl⟩ := exists_mul_of_approximates happrox hr hd hclose28
    left
    rcases hlarge with hlarge | hlarge
    · have hj : (1 : ℚ) ≤ j := by exact_mod_cast Nat.pos_of_mul_pos_right hn0
      have := mul_le_mul_of_nonneg_right hj (mul_nonneg (Nat.cast_nonneg (fraction s).2) hr.le)
      push_cast at hd
      linarith
    · push_cast
      rw [mul_assoc, hlarge]

end CloseFractions

end JavaLiteral
