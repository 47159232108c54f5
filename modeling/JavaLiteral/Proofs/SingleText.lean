import JavaLiteral.Proofs.RoundedDigits
import JavaLiteral.Proofs.SingleReading

/-!
# The text of a `float` is read back

A decimal is read as a `float` by way of `double` if it is closer to it than half the spacing below,
and that by a little more than a `double` can tell (`isNearestThrough_of_abs_sub_lt`). The spacing
below is the smaller one at a power of two, and even there nine digits are close enough
(`isNearestThrough_candidate`), so the search for digits never runs out. Two digits in place of one
are not tried again, but they are new digits only where their grid is finer than the least spacing
(`isNearestThrough_decimal`). So the text of a finite value tells its sign and is read back
(`exists_text_readBack`), and no two values have the same text (`digits_readBack`).
-/

namespace JavaLiteral

open Source

namespace Single

open Binary Binary.Format Decimal

section Reading

variable {k code : ℕ} {y : ℚ}

theorem middle_lt_throughDouble (hk : k < single.infinity) (hy : 0 ≤ y)
    (h : single.middle k + single.middle k / 2 ^ 53 < y) :
    single.middle k < throughDouble y := by
  obtain ⟨j, hj, hmiddle⟩ := exists_magnitude_eq_middle hk
  have hpos := (single.magnitude_nonneg k).trans (single.magnitude_lt_middle k).le
  have hle : single.middle k ≤ throughDouble y := by
    rw [← hmiddle]
    exact le_throughDouble hj (by linarith)
  refine hle.lt_of_ne' fun heq => ?_
  have := le_of_abs_le (abs_sub_middle_le hk hy heq)
  linarith

theorem throughDouble_lt_middle (hk : k < single.infinity) (hy : 0 ≤ y)
    (h : y + single.middle k / 2 ^ 53 < single.middle k) :
    throughDouble y < single.middle k := by
  obtain ⟨j, hj, hmiddle⟩ := exists_magnitude_eq_middle hk
  have hpos := (single.magnitude_nonneg k).trans (single.magnitude_lt_middle k).le
  have hle : throughDouble y ≤ single.middle k := by
    rw [← hmiddle]
    exact throughDouble_le hy hj (by linarith)
  refine hle.lt_of_ne fun heq => ?_
  have := neg_le_of_abs_le (abs_sub_middle_le hk hy heq)
  linarith

/-- What is closer to a code than half the spacing below it, by more than a `double` can tell there,
is read as the code by way of `double`. -/
theorem isNearestThrough_of_abs_sub_lt (hk : k + 1 < single.infinity) (hy : 0 ≤ y)
    (h : |y - single.magnitude (k + 1)| + single.magnitude (k + 1) / 2 ^ 52
      < single.spacing k * single.unit / 2) : IsNearestThrough y (k + 1) := by
  have hpos := single.magnitude_nonneg k
  have hsucc := single.magnitude_succ k
  have hmono := spacing_mul_unit_le_succ (F := single) k
  obtain ⟨hlow, hup⟩ := abs_lt.1 (lt_sub_iff_add_lt.2 h)
  rw [isNearestThrough_iff hy]
  -- Both middles are half the spacing below away or more, and less than twice the number itself.
  refine round_eq_of_between (double.magnitude_nonneg _) hk.le ?_ fun _ => ?_
  · intro j hj
    obtain rfl := Nat.succ_injective hj
    refine middle_lt_throughDouble (by omega) hy ?_
    rw [middle_eq]
    linarith
  · refine throughDouble_lt_middle hk hy ?_
    rw [middle_eq]
    linarith

/-- Nine digits are enough for every `float`, the powers of two included. -/
theorem isNearestThrough_candidate (h0 : 0 < code) (hc : code < single.infinity) :
    IsNearestThrough (candidate code 8).value code := by
  obtain ⟨k, rfl⟩ := Nat.exists_eq_add_one.2 h0
  have hx := single.magnitude_pos h0
  have hclose := abs_nearest_sub_le hx.le (gridExponent (single.magnitude (k + 1)) 8)
  have hgrid := zpow_gridExponent (single.magnitude (k + 1)) 8
  have hlead := zpow_leadingExponent_le hx
  have hspacing := single.magnitude_succ_le k
  rw [show single.binade = 2 ^ 23 from rfl] at hspacing
  push_cast at hspacing
  refine isNearestThrough_of_abs_sub_lt hc (value_nonneg _) ?_
  unfold candidate
  linarith

theorem readsBack_candidate (h0 : 0 < code) (hc : code < single.infinity) :
    readsBack code (candidate code 8) :=
  readsBack_iff.2 (isNearestThrough_candidate h0 hc)

theorem isNearestThrough_firstRounded (h0 : 0 < code) (hc : code < single.infinity) :
    IsNearestThrough (firstRounded code).value code := by
  obtain ⟨n, -, heq, hback, -⟩ := exists_firstRounded_eq_candidate (readsBack_candidate h0 hc)
  rw [heq]
  exact readsBack_iff.1 hback

/-- The digits of a `float` are read back after the choice of two digits too. -/
theorem isNearestThrough_decimal (h0 : 0 < code) (hc : code < single.infinity) :
    IsNearestThrough (decimal code).value code := by
  have hfirst := isNearestThrough_firstRounded h0 hc
  have hclose := abs_sub_le_of_readsBack h0 hc (readsBack_iff.2 hfirst)
  unfold decimal
  rcases preferTwo_eq_or_fine (F := single) (p := -45) (by decide +kernel) (by decide +kernel) h0
    hclose with h | ⟨hgrid, h⟩
  · rw [h]
    exact hfirst
  · -- A number with so fine a grid is so small that a `double` can tell far less than the unit.
    obtain ⟨k, rfl⟩ := Nat.exists_eq_add_one.2 h0
    have hx : single.magnitude (k + 1) < (10 : ℚ) ^ (-43 : ℤ) := by
      refine (lt_zpow_leadingExponent (single.magnitude_pos h0)).trans_le ?_
      refine zpow_le_zpow_right₀ (by norm_num) ?_
      unfold gridExponent at hgrid
      omega
    have hunit := unit_le_spacing_mul_unit (F := single) k
    have hsmall : (10 : ℚ) ^ (-45 : ℤ) / 2 + (10 : ℚ) ^ (-43 : ℤ) / 2 ^ 52 < single.unit / 2 := by
      decide +kernel
    refine isNearestThrough_of_abs_sub_lt hc (value_nonneg _) ?_
    calc |(preferTwo (single.magnitude (k + 1)) (firstRounded (k + 1))).value
            - single.magnitude (k + 1)| + single.magnitude (k + 1) / 2 ^ 52
        < (10 : ℚ) ^ (-45 : ℤ) / 2 + (10 : ℚ) ^ (-43 : ℤ) / 2 ^ 52 :=
          add_lt_add_of_le_of_lt h (div_lt_div_of_pos_right hx (by norm_num))
      _ < single.unit / 2 := hsmall
      _ ≤ single.spacing k * single.unit / 2 := div_le_div_of_nonneg_right hunit two_pos.le

theorem isNearestThrough_zero : IsNearestThrough 0 0 := by
  rw [isNearestThrough_iff le_rfl, throughDouble, round_zero, Format.magnitude_zero, round_zero]

theorem IsNearestThrough.code_eq {code' : ℕ} (hy : 0 ≤ y) (h : IsNearestThrough y code)
    (h' : IsNearestThrough y code') : code = code' := by
  rw [isNearestThrough_iff hy] at h h'
  exact h.symm.trans h'

end Reading

section Text

variable {x y : Single}

/-- The text of a finite value is that of a decimal under the sign of the value, and the decimal is
read as the magnitude by way of `double`. -/
theorem exists_text_readBack (hx : x.isFinite) :
    ∃ t d, x.text? = some t
      ∧ floatExpression? floatSyntax (t ++ [CodePoint.ofChar 'f'])
        = some (if x.negative then .negation (.literal d) else .literal d)
      ∧ IsNearestThrough d.value x.code := by
  have hnearest : x.code ≠ 0 → IsNearestThrough (decimal x.code).value x.code := fun h0 =>
    isNearestThrough_decimal (Nat.pos_of_ne_zero h0) (of_decide_eq_true hx)
  obtain ⟨d, hread, hvalue⟩ := exists_finiteText_literal floatSyntax (x := x) decimal
    (c := CodePoint.ofChar 'f') (by decide) fun h0 =>
      pos_of_isNearestThrough (Nat.pos_of_ne_zero h0) (value_nonneg _) (hnearest h0)
  refine ⟨_, d, if_pos hx, hread, ?_⟩
  rw [hvalue]
  split_ifs with h0
  · rw [h0]
    exact isNearestThrough_zero
  · exact hnearest h0

theorem signed_literal_injective {F : Format} {m n : Bool} {d e : Decimal}
    (h : (if m then FloatExpression.negation (.literal d) else .literal d : FloatExpression F)
      = if n then .negation (.literal e) else .literal e) : m = n ∧ d = e := by
  cases m <;> cases n <;> simp_all

theorem eq_of_text?_eq (hx : x.isFinite) (hy : y.isFinite) (h : x.text? = y.text?) : x = y := by
  obtain ⟨t, d, ht, hread, hd⟩ := exists_text_readBack hx
  obtain ⟨u, e, hu, hread', he⟩ := exists_text_readBack hy
  obtain rfl : t = u := Option.some.inj (ht.symm.trans (h.trans hu))
  obtain ⟨hsign, rfl⟩ := signed_literal_injective (Option.some.inj (hread.symm.trans hread'))
  exact Binary.ext hsign (hd.code_eq d.value_nonneg he)

/-- What holds of the digits of a `float` of a code: the search accepts a candidate of no more than
nine digits, the first one that is read back, and its digits are read as the `float` by way of
`double`, as they are and after the choice of two digits. -/
structure DigitsReadBack (code : ℕ) : Prop where
  found : ∃ n ≤ 8, firstRounded code = candidate code n ∧ readsBack code (candidate code n)
    ∧ ∀ m < n, ¬readsBack code (candidate code m)
  firstRounded : IsNearestThrough (firstRounded code).value code
  decimal : IsNearestThrough (decimal code).value code

/-- **The digits of a `float` are read back.** The search for them never runs out, they are read as
the `float` by way of `double`, and finite values that are not the same have texts that are not the
same. -/
theorem digits_readBack :
    (∀ x : Single, x.isFinite → x.isZero = false → DigitsReadBack x.code)
      ∧ ∀ x y : Single, x.isFinite → y.isFinite → x ≠ y →
        ∃ t u, x.text? = some t ∧ y.text? = some u ∧ t ≠ u := by
  constructor
  · intro x hx hzero
    have h0 : 0 < x.code := Nat.pos_of_ne_zero (of_decide_eq_false hzero)
    have hc : x.code < single.infinity := of_decide_eq_true hx
    exact ⟨exists_firstRounded_eq_candidate (readsBack_candidate h0 hc),
      isNearestThrough_firstRounded h0 hc, isNearestThrough_decimal h0 hc⟩
  · intro x y hx hy hne
    refine ⟨_, _, if_pos hx, if_pos hy, fun h => hne (eq_of_text?_eq hx hy ?_)⟩
    rw [text?, text?, if_pos hx, if_pos hy, h]

/-- A power of two that needs nine digits. -/
def longPower : Single := ofBits single 0x0F800000

/-- The value below the one whose text is rounded to another value by one rounding. -/
def belowCrossed : Single := ofBits single 0x15AE43FD

theorem digits_readBack_longPower :
    longPower.isFinite ∧ longPower.isZero = false ∧ DigitsReadBack longPower.code
      ∧ crossed.isFinite ∧ belowCrossed.isFinite ∧ crossed ≠ belowCrossed
      ∧ ∃ t u, crossed.text? = some t ∧ belowCrossed.text? = some u ∧ t ≠ u := by
  have hpower : longPower.isFinite := by decide +kernel
  have hcrossed : crossed.isFinite := by decide +kernel
  have hbelow : belowCrossed.isFinite := by decide +kernel
  have hne : crossed ≠ belowCrossed := by decide +kernel
  exact ⟨hpower, rfl, digits_readBack.1 longPower hpower rfl, hcrossed, hbelow, hne,
    digits_readBack.2 crossed belowCrossed hcrossed hbelow hne⟩

example : longPower.magnitude = 2 ^ (-96 : ℤ)
    ∧ longPower.text? = some (Text.ofString "1.26217745E-29") := by
  decide +kernel

end Text

end Single

end JavaLiteral
