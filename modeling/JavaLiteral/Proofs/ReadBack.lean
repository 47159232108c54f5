import JavaLiteral.Proofs.DecimalDigits
import JavaLiteral.Proofs.DecimalGrid

/-!
# Digits that read back

Decimals with enough digits read back (`round_nearest`). Where two digits take the place of a single
one, they are closer to a number than half the unit of the format, whatever binade the number is in
(`preferTwo_eq_or`): everywhere else the single digit is a point of the grid of two digits already.
So the digits of a `double` read back (`Double.round_decimal`).
-/

namespace JavaLiteral

namespace Binary.Format

open Decimal

variable {F : Format} {code : ℕ} {y : ℚ}

/-- What is rounded to a code is no further from it than half the spacing above it. -/
theorem abs_sub_le_of_round (hy : 0 ≤ y) (h0 : 0 < code) (hc : code < F.infinity)
    (h : F.round y = code) : |y - F.magnitude code| ≤ F.spacing code * F.unit / 2 := by
  obtain ⟨k, rfl⟩ := Nat.exists_eq_add_one.2 h0
  have hlow := middle_le_of_round hy h
  have hup := le_middle_of_round hy hc h
  have hmono := spacing_mul_unit_le_succ (F := F) k
  have hsucc := F.magnitude_succ k
  rw [middle_eq] at hlow hup
  exact abs_le.2 ⟨by linarith, by linarith⟩

theorem unit_le_spacing_mul_unit (code : ℕ) : F.unit ≤ F.spacing code * F.unit := by
  have h : (1 : ℚ) ≤ F.spacing code := by exact_mod_cast F.spacing_pos code
  have := mul_le_mul_of_nonneg_right h F.unit_pos.le
  linarith

theorem round_eq_of_abs_sub_lt_unit (hy : 0 ≤ y) (h0 : 0 < code) (hc : code ≤ F.infinity)
    (h : |y - F.magnitude code| < F.unit / 2) : F.round y = code := by
  obtain ⟨k, rfl⟩ := Nat.exists_eq_add_one.2 h0
  have := unit_le_spacing_mul_unit (F := F) k
  exact round_eq_of_abs_sub_lt hy hc (h.trans_le (by linarith))

theorem magnitude_succ_le (k : ℕ) :
    F.magnitude (k + 1) ≤ 2 * F.binade * (F.spacing k * F.unit) := by
  have h : ((F.multiple k + F.spacing k : ℕ) : ℚ) ≤ (2 * F.binade * F.spacing k : ℕ) :=
    Nat.cast_le.2 (multiple_add_spacing_le k)
  rw [magnitude, multiple_succ, ← mul_assoc]
  refine mul_le_mul_of_nonneg_right ?_ F.unit_pos.le
  exact_mod_cast h

theorem binade_mul_spacing_le_magnitude (h : F.binade ≤ code) :
    F.binade * (F.spacing code * F.unit) ≤ F.magnitude code := by
  have h : ((F.binade * F.spacing code : ℕ) : ℚ) ≤ F.multiple code :=
    Nat.cast_le.2 (binade_mul_spacing_le h)
  rw [magnitude, ← mul_assoc]
  refine mul_le_mul_of_nonneg_right ?_ F.unit_pos.le
  exact_mod_cast h

/-- The nearest decimal of `n + 1` digits reads back if there are more decimals with that many
digits than codes in two binades. -/
theorem round_nearest {n k : ℕ} (hn : 2 * F.binade < 10 ^ n) (hk : k + 1 ≤ F.infinity) :
    F.round (nearest (F.magnitude (k + 1)) (gridExponent (F.magnitude (k + 1)) n)).value
      = k + 1 := by
  have hx := F.magnitude_pos (Nat.succ_pos k)
  refine round_eq_of_abs_sub_lt (value_nonneg _) hk ?_
  refine (abs_nearest_sub_le hx.le _).trans_lt ?_
  have hstep : 0 < (F.spacing k : ℚ) * F.unit :=
    mul_pos (Nat.cast_pos.2 (F.spacing_pos k)) F.unit_pos
  have hpow : (2 * F.binade : ℚ) < 10 ^ n := by exact_mod_cast hn
  have hlead := zpow_leadingExponent_le hx
  have hle := magnitude_succ_le (F := F) k
  have hgrid : (10 : ℚ) ^ gridExponent (F.magnitude (k + 1)) n
      = (10 : ℚ) ^ leadingExponent (F.magnitude (k + 1)) / 10 ^ n := by
    rw [gridExponent, zpow_sub₀ (by norm_num), zpow_natCast]
  rw [hgrid]
  refine div_lt_div_of_pos_right ?_ two_pos
  rw [div_lt_iff₀ (by positivity)]
  calc (10 : ℚ) ^ leadingExponent (F.magnitude (k + 1))
      ≤ 2 * F.binade * (F.spacing k * F.unit) := hlead.trans hle
    _ < 10 ^ n * (F.spacing k * F.unit) := mul_lt_mul_of_pos_right hpow hstep
    _ = F.spacing k * F.unit * 10 ^ n := mul_comm _ _

end Binary.Format

namespace Decimal

open Digits

variable {x : ℚ}

/-- A decimal of a single digit is a multiple of every power of ten that is less than a tenth of
it. -/
theorem exists_value_eq_of_length_eq_one {d : Decimal} {e : ℤ} (h : d.digits.length = 1)
    (he : (10 : ℚ) ^ (e + 1) ≤ 2 * d.value) : ∃ a : ℕ, d.value = a * (10 : ℚ) ^ e := by
  rw [length_digits] at h
  obtain ⟨g, hg⟩ := List.length_eq_one_iff.1 h
  have hlt : g < 10 := lt_of_mem_significant (n := d.coeff) (by rw [hg]; exact List.mem_cons_self)
  have hvalue : d.value = g * (10 : ℚ) ^ d.leading := by
    rw [d.value_eq, hg, List.length_singleton, Nat.cast_one, add_sub_cancel_right]
    simp [Digits.value]
  have hle : e ≤ d.leading := by
    by_contra hcon
    have hpow : (10 : ℚ) ^ d.leading * 100 ≤ (10 : ℚ) ^ (e + 1) := by
      have h2 : (10 : ℚ) ^ d.leading * 100 = (10 : ℚ) ^ (d.leading + 2) := by
        rw [zpow_add₀ (by norm_num)]
        norm_num
      rw [h2]
      exact zpow_le_zpow_right₀ (by norm_num) (by omega)
    have hg9 : (g : ℚ) ≤ 9 := by exact_mod_cast Nat.lt_succ_iff.1 hlt
    have hpos : (0 : ℚ) < (10 : ℚ) ^ d.leading := zpow_pos (by norm_num) _
    have hmul := mul_le_mul_of_nonneg_right hg9 hpos.le
    linarith
  obtain ⟨k, hk⟩ := Int.eq_ofNat_of_zero_le (sub_nonneg.2 hle)
  refine ⟨g * 10 ^ k, ?_⟩
  rw [hvalue, show d.leading = k + e by omega, zpow_add₀ (by norm_num), zpow_natCast]
  push_cast
  ring

/-- A single digit that is closer to a number than half a step of the grid of two digits stays. -/
theorem preferTwo_eq_self {d : Decimal} (hx : 0 < x)
    (h : |d.value - x| < (10 : ℚ) ^ gridExponent x 1 / 2) : preferTwo x d = d := by
  unfold preferTwo
  refine if_neg ?_
  rintro ⟨hlen, hcloser⟩
  have hlead := zpow_leadingExponent_le hx
  have hten : (10 : ℚ) ^ leadingExponent x = 10 * (10 : ℚ) ^ gridExponent x 1 := by
    rw [gridExponent, zpow_sub₀ (by norm_num)]
    norm_num
    ring
  have hpos : (0 : ℚ) < (10 : ℚ) ^ gridExponent x 1 := zpow_pos (by norm_num) _
  obtain ⟨h1, h2⟩ := abs_lt.1 h
  obtain ⟨a, ha⟩ := exists_value_eq_of_length_eq_one (e := gridExponent x 1) hlen (by
    rw [zpow_add_one₀ (by norm_num)]
    linarith)
  rw [distance_eq, distance_eq, ha] at hcloser
  rw [ha] at h
  exact not_closer_of_grid a _ h.le hcloser

/-- Where the grid of two digits is coarser than the unit, a step of it is more than twice the
spacing. -/
theorem spacing_lt_grid {F : Binary.Format} {p : ℤ} (hup : F.unit < (10 : ℚ) ^ (p + 1) / 2)
    (hbinade : 200 ≤ F.binade) {code : ℕ} (h0 : 0 < code)
    (hp : p < gridExponent (F.magnitude code) 1) :
    F.spacing code * F.unit < (10 : ℚ) ^ gridExponent (F.magnitude code) 1 / 2 := by
  have hx := F.magnitude_pos h0
  rcases Nat.lt_or_ge code F.binade with hb | hb
  · have hone : F.spacing code = 1 := by
      rw [Binary.Format.spacing, Nat.div_eq_of_lt hb]
      rfl
    have hmono : (10 : ℚ) ^ (p + 1) ≤ (10 : ℚ) ^ gridExponent (F.magnitude code) 1 :=
      zpow_le_zpow_right₀ (by norm_num) hp
    rw [hone, Nat.cast_one, one_mul]
    linarith
  · have hmul := Binary.Format.binade_mul_spacing_le_magnitude hb
    have hlead := lt_zpow_leadingExponent hx
    have hstep : 0 < (F.spacing code : ℚ) * F.unit :=
      mul_pos (Nat.cast_pos.2 (F.spacing_pos code)) F.unit_pos
    have h200 : 200 * ((F.spacing code : ℚ) * F.unit) ≤ F.binade * (F.spacing code * F.unit) :=
      mul_le_mul_of_nonneg_right (by exact_mod_cast hbinade) hstep.le
    have hhundred : (10 : ℚ) ^ (leadingExponent (F.magnitude code) + 1)
        = 100 * (10 : ℚ) ^ gridExponent (F.magnitude code) 1 := by
      rw [gridExponent, zpow_sub₀ (by norm_num), zpow_add₀ (by norm_num)]
      norm_num
      ring
    linarith

/-- The digits that `preferTwo` gives are the ones it is given, unless the grid of two digits is as
fine as `10 ^ p`; then they may be others within half a step of it. -/
theorem preferTwo_eq_or_fine {F : Binary.Format} {p : ℤ} (hup : F.unit < (10 : ℚ) ^ (p + 1) / 2)
    (hbinade : 200 ≤ F.binade) {code : ℕ} (h0 : 0 < code)
    {d : Decimal} (hd : |d.value - F.magnitude code| ≤ F.spacing code * F.unit) :
    preferTwo (F.magnitude code) d = d
      ∨ gridExponent (F.magnitude code) 1 ≤ p
        ∧ |(preferTwo (F.magnitude code) d).value - F.magnitude code| ≤ (10 : ℚ) ^ p / 2 := by
  have hx := F.magnitude_pos h0
  rcases Int.lt_or_le p (gridExponent (F.magnitude code) 1) with hp | hp
  · exact .inl (preferTwo_eq_self hx (hd.trans_lt (spacing_lt_grid hup hbinade h0 hp)))
  · unfold preferTwo
    dsimp only
    split_ifs
    · have hmono : (10 : ℚ) ^ gridExponent (F.magnitude code) 1 ≤ (10 : ℚ) ^ p :=
        zpow_le_zpow_right₀ (by norm_num) hp
      have := abs_nearest_sub_le hx.le (gridExponent (F.magnitude code) 1)
      exact .inr ⟨hp, by linarith⟩
    · exact .inl rfl

/-- The digits that `preferTwo` gives are the ones it is given, or else closer to the magnitude of a
code than half the unit of the format. -/
theorem preferTwo_eq_or {F : Binary.Format} {p : ℤ} (hlow : (10 : ℚ) ^ p < F.unit)
    (hup : F.unit < (10 : ℚ) ^ (p + 1) / 2) (hbinade : 200 ≤ F.binade) {code : ℕ} (h0 : 0 < code)
    {d : Decimal} (hd : |d.value - F.magnitude code| ≤ F.spacing code * F.unit) :
    preferTwo (F.magnitude code) d = d
      ∨ |(preferTwo (F.magnitude code) d).value - F.magnitude code| < F.unit / 2 := by
  rcases preferTwo_eq_or_fine hup hbinade h0 hd with h | ⟨-, h⟩
  · exact .inl h
  · exact .inr (by linarith)

end Decimal

namespace Double

open Binary Decimal

theorem round_shortest {code : ℕ} (h0 : 0 < code) (hc : code < Format.double.infinity) :
    Format.double.round (shortest code).value = code := by
  unfold shortest
  dsimp only
  cases hfind : (List.range maxDigits).findSome?
      (neighbour? (Format.double.magnitude code) (Format.double.readsBack code)) with
  | none =>
    obtain ⟨k, rfl⟩ := Nat.exists_eq_add_one.2 h0
    exact Format.round_nearest (n := 16) (by decide +kernel) hc.le
  | some d =>
    obtain ⟨n, -, hn⟩ := List.exists_of_findSome?_eq_some hfind
    unfold neighbour? at hn
    have hback : Format.double.readsBack code d := List.find?_some hn
    exact of_decide_eq_true hback

/-- Rounding the digits of a `double` gives the `double` again. -/
theorem round_decimal {code : ℕ} (h0 : 0 < code) (hc : code < Format.double.infinity) :
    Format.double.round (decimal code).value = code := by
  have hround := round_shortest h0 hc
  have hclose := Format.abs_sub_le_of_round (value_nonneg _) h0 hc hround
  have hstep : 0 < (Format.double.spacing code : ℚ) * Format.double.unit :=
    mul_pos (Nat.cast_pos.2 (Format.double.spacing_pos code)) Format.double.unit_pos
  unfold decimal
  rcases preferTwo_eq_or (F := Format.double) (p := -324) (by decide +kernel) (by decide +kernel)
    (by decide +kernel) h0 (hclose.trans (by linarith)) with h | h
  · rw [h]
    exact hround
  · exact Format.round_eq_of_abs_sub_lt_unit (value_nonneg _) h0 hc.le h

end Double

end JavaLiteral
