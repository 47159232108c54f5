import JavaLiteral.Proofs.DoubleRounding
import JavaLiteral.Proofs.ShortestDigits

/-!
# The rounded digits of a `float` are the shortest

The digits of a `float` are looked for among the nearest decimals only, one for each number of
digits. Away from the powers of two nothing is missed that way: whether a number is read as a
`float` by way of `double` depends on its distance alone (`exists_radius`), for the binade of the
`float` has room for both of the middles beside it, and the spacing of `double` is the same at
either of them. So the nearest decimal is read back whenever any decimal with so many digits is
(`firstRounded_isShortest`).
-/

namespace JavaLiteral

namespace Binary.Format

variable {F : Format} {y : ℚ}

/-- Within a binade rounding is rounding to the points of its grid. -/
theorem round_le_add_iff {s q : ℕ} (hy : 0 ≤ y) (hs : s = 0 ∨ F.binade ≤ q)
    (hq : q < 2 * F.binade) (hc : s * F.binade + q < F.infinity) :
    F.round y ≤ s * F.binade + q
      ↔ y < (q + 1 / 2) * F.step s ∨ y = (q + 1 / 2) * F.step s ∧ q % 2 = 0 := by
  rw [round_le_iff hy hc, middle_add hs hq, mul_binade_add_mod_two]

end Binary.Format

namespace Single

open Binary Binary.Format Decimal

variable {code : ℕ} {y : ℚ}

/-- A number that is read as the `float` of a code by way of the `double` nearest to it. -/
def IsNearestThrough (y : ℚ) (code : ℕ) : Prop :=
  ∃ j, double.IsNearest y j ∧ single.IsNearest (double.magnitude j) code

theorem isNearestThrough_iff (hy : 0 ≤ y) :
    IsNearestThrough y code ↔ single.round (throughDouble y) = code := by
  constructor
  · rintro ⟨j, hj, hcode⟩
    obtain rfl := (isNearest_iff hy).1 hj
    exact (isNearest_iff (double.magnitude_nonneg _)).1 hcode
  · intro h
    exact ⟨_, isNearest_round hy, (isNearest_iff (double.magnitude_nonneg _)).2 h⟩

theorem readsBack_iff {d : Decimal} : readsBack code d ↔ IsNearestThrough d.value code := by
  rw [isNearestThrough_iff d.value_nonneg, readsBack_iff_round]

section Radius

variable {r x : ℚ} {P : Prop}

/-- Two sides of a number at one distance, of which both or neither belong to what is between. -/
theorem between_iff (hr : 0 < r) :
    (y < x + r ∨ y = x + r ∧ P) ∧ ¬(y < x - r ∨ y = x - r ∧ ¬P)
      ↔ |y - x| < r ∨ |y - x| = r ∧ P := by
  rcases le_total x y with h | h
  · have hleft : ¬(y < x - r ∨ y = x - r ∧ ¬P) := by
      rintro (h | ⟨h, -⟩) <;> linarith
    rw [abs_of_nonneg (by linarith), sub_lt_iff_lt_add', sub_eq_iff_eq_add', and_iff_left hleft]
  · have hright : y < x + r := by linarith
    rw [abs_of_nonpos (by linarith), and_iff_right (.inl hright), neg_sub, not_or, not_and, not_not,
      not_lt]
    constructor
    · rintro ⟨hle, hP⟩
      rcases hle.lt_or_eq with hlt | heq
      · exact .inl (by linarith)
      · exact .inr ⟨by linarith, hP heq.symm⟩
    · rintro (hlt | ⟨heq, hP⟩)
      · exact ⟨by linarith, fun h => by linarith⟩
      · exact ⟨by linarith, fun _ => hP⟩

end Radius

/-- Where a code of type `float` lies that is no power of two: at `q` on the grid of its binade, and
within one binade of type `double` together with its neighbours. A step of its grid is `2 * v` steps
of the grid of `double`. -/
structure DoublePlace (code s q S v : ℕ) : Prop where
  code_eq : code = s * single.binade + q
  binade_lt : s = 0 ∨ single.binade < q
  lt_binade : q < 2 * single.binade
  step_eq : single.step s = (2 * v : ℕ) * double.step S
  even : v % 2 = 0
  pos : 0 < v
  binade_le : double.binade + 2 * v ≤ 2 * v * q
  le_binade : 2 * v * q + 2 * v ≤ 2 * double.binade
  le_infinity : (S + 2) * double.binade ≤ double.infinity

theorem ne_two_pow_of_magnitude {s q : ℕ} (hs : s = 0 ∨ single.binade ≤ q)
    (hq : q ≤ 2 * single.binade)
    (hpow : ∀ k : ℤ, single.magnitude (s * single.binade + q) ≠ 2 ^ k) (e : ℕ) : q ≠ 2 ^ e := by
  rintro rfl
  have hunit : single.unit = (2 : ℚ) ^ (-149 : ℤ) := by decide +kernel
  refine hpow (e + s + -149) ?_
  rw [single.magnitude_add hs hq, step, hunit, zpow_add₀ (by norm_num), zpow_add₀ (by norm_num),
    zpow_natCast, zpow_natCast]
  push_cast
  ring

theorem exists_two_pow_lt {n q : ℕ} (h0 : q ≠ 0) (hq : q < 2 ^ n) (hne : ∀ e, q ≠ 2 ^ e) :
    ∃ e < n, 2 ^ e < q ∧ q < 2 ^ (e + 1) := by
  have hlow : 2 ^ Nat.log2 q < q := (Nat.log2_self_le h0).lt_of_ne (hne _).symm
  exact ⟨Nat.log2 q, (Nat.pow_lt_pow_iff_right (by decide)).1 (hlow.trans hq), hlow,
    Nat.lt_log2_self⟩

theorem exists_doublePlace (h0 : 0 < code) (hc : code < single.infinity)
    (hpow : ∀ k : ℤ, single.magnitude code ≠ 2 ^ k) : ∃ s q S v, DoublePlace code s q S v := by
  have hinf : single.infinity = 255 * 2 ^ 23 := by decide +kernel
  have hinf' : double.infinity = 2047 * 2 ^ 52 := by decide +kernel
  obtain ⟨k, hk, hunits⟩ : ∃ k : ℕ, k = 925 ∧ single.unit = 2 ^ k * double.unit :=
    ⟨925, rfl, by decide +kernel⟩
  have hbinade : single.binade = 2 ^ 23 := by decide +kernel
  have hbinade' : double.binade = 2 ^ 52 := by decide +kernel
  obtain ⟨s, q, rfl, hs, hq, -⟩ := single.exists_binade code
  have hq0 : q ≠ 0 := by
    rintro rfl
    rcases hs with rfl | hs
    · simp at h0
    · exact absurd hs (not_le.2 single.binade_pos)
  have hne := ne_two_pow_of_magnitude hs hq.le hpow
  obtain ⟨e, he, hlow, hup⟩ := exists_two_pow_lt (n := 24) hq0 (by omega) hne
  have hv : 2 * 2 ^ (51 - e) * 2 ^ e = 2 ^ 52 := by
    rw [← pow_succ', ← pow_add, show 51 - e + 1 + e = 52 by omega]
  refine ⟨s, q, e + s + (k - 52), 2 ^ (51 - e), rfl, ?_, hq, ?_, ?_, Nat.two_pow_pos _, ?_, ?_, ?_⟩
  · have := hne 23
    omega
  · have hsteps : (2 : ℚ) * 2 ^ (51 - e) * 2 ^ (e + s + (k - 52)) = 2 ^ s * 2 ^ k := by
      rw [← pow_succ', ← pow_add, ← pow_add, show 51 - e + 1 + (e + s + (k - 52)) = s + k by omega]
    rw [step, step, hunits]
    push_cast
    rw [← mul_assoc, ← mul_assoc, hsteps]
  · rw [show 51 - e = 50 - e + 1 by omega, pow_succ, Nat.mul_mod_left]
  · rw [hbinade', ← hv, ← Nat.mul_succ]
    exact Nat.mul_le_mul_left _ hlow
  · have hdouble : 2 * 2 ^ 52 = 2 * 2 ^ (51 - e) * 2 ^ (e + 1) := by
      rw [pow_succ 2 e, ← mul_assoc, hv, mul_comm]
    rw [hbinade', hdouble, ← Nat.mul_succ]
    exact Nat.mul_le_mul_left _ hup
  · rw [hbinade', hinf']
    rw [hinf, hbinade] at hc
    omega

/-- Two roundings pass a middle that has a multiple of two as its place on the grid of `double` by
half a step of that grid, and go to the even side of it. -/
theorem round_throughDouble_le_iff {S m : ℕ} (hy : 0 ≤ y) (hc : code < single.infinity)
    (hmiddle : single.middle code = m * double.step S) (heven : m % 2 = 0)
    (hlow : double.binade < m) (hup : m < 2 * double.binade)
    (hS : (S + 2) * double.binade ≤ double.infinity) :
    single.round (throughDouble y) ≤ code
      ↔ y < (m - (code % 2 : ℕ) + 1 / 2) * double.step S
        ∨ y = (m - (code % 2 : ℕ) + 1 / 2) * double.step S ∧ code % 2 = 0 := by
  have hmagnitude : double.magnitude (S * double.binade + m) = single.middle code := by
    rw [double.magnitude_add (.inr hlow.le) hup.le, hmiddle]
  have hcut : single.round (throughDouble y) ≤ code
      ↔ double.round y ≤ S * double.binade + (m - code % 2) := by
    rw [throughDouble, round_le_iff (double.magnitude_nonneg _) hc, ← hmagnitude,
      double.magnitude_strictMono.lt_iff_lt, double.magnitude_strictMono.injective.eq_iff]
    omega
  have hcast : ((m - code % 2 : ℕ) : ℚ) = m - (code % 2 : ℕ) := Nat.cast_sub (by omega)
  have hparity : (m - code % 2) % 2 = 0 ↔ code % 2 = 0 := by omega
  rw [hcut, round_le_add_iff hy (by omega) (by omega) (by rw [Nat.add_mul] at hS; omega), hcast,
    hparity]

/-- How far a number may be from a code to be read as the code by way of `double`. -/
def radius (code S v : ℕ) : ℚ := (v + 1 / 2 - (code % 2 : ℕ)) * double.step S

namespace DoublePlace

variable {s q S v : ℕ}

theorem pos_place (h : DoublePlace code s q S v) : 0 < q := by
  have hle := h.binade_le
  have := double.binade_pos
  refine Nat.pos_of_ne_zero ?_
  rintro rfl
  omega

theorem magnitude_eq (h : DoublePlace code s q S v) :
    single.magnitude code = 2 * v * q * double.step S := by
  have := h.binade_lt
  rw [h.code_eq, single.magnitude_add (by omega) h.lt_binade.le, h.step_eq]
  push_cast
  ring

theorem middle_eq (h : DoublePlace code s q S v) :
    single.middle code = (2 * v * q + v : ℕ) * double.step S := by
  have := h.binade_lt
  rw [h.code_eq, middle_add (by omega) h.lt_binade, h.step_eq]
  push_cast
  ring

theorem middle_pred_eq {k : ℕ} (h : DoublePlace (k + 1) s q S v) :
    single.middle k = (2 * v * q - v : ℕ) * double.step S := by
  obtain ⟨p, rfl⟩ := Nat.exists_eq_add_one.2 h.pos_place
  have hlt := h.binade_lt
  have hup := h.lt_binade
  have hcode := h.code_eq
  obtain rfl : k = s * single.binade + p := by omega
  rw [middle_add (by omega) (by omega), h.step_eq, Nat.mul_succ, Nat.cast_sub (by omega)]
  push_cast
  ring

theorem half_lt_radius (h : DoublePlace code s q S v) :
    v / 2 * double.step S < radius code S v := by
  have heven := h.even
  have hpos := h.pos
  have hv : (2 : ℚ) ≤ v := by exact_mod_cast (show 2 ≤ v by omega)
  have hodd : ((code % 2 : ℕ) : ℚ) ≤ 1 := by exact_mod_cast (show code % 2 ≤ 1 by omega)
  exact mul_lt_mul_of_pos_right (by linarith) (double.step_pos S)

theorem radius_pos (h : DoublePlace code s q S v) : 0 < radius code S v :=
  (mul_nonneg (by positivity) (double.step_pos S).le).trans_lt h.half_lt_radius

/-- The numbers that are read as a code reach further than decimals of nine digits are apart. -/
theorem lt_radius (h : DoublePlace code s q S v) :
    single.magnitude code / 2 ^ 26 < radius code S v := by
  have hbinade : single.binade = 2 ^ 23 := by decide +kernel
  have hq : (q : ℚ) ≤ 2 * 2 ^ 23 := by
    have := h.lt_binade
    rw [hbinade] at this
    exact_mod_cast this.le
  have hstep := double.step_pos S
  refine lt_of_le_of_lt ?_ h.half_lt_radius
  rw [h.magnitude_eq, div_le_iff₀ (by norm_num)]
  calc 2 * v * q * double.step S = 2 * (v * double.step S) * q := by ring
    _ ≤ 2 * (v * double.step S) * (2 * 2 ^ 23) := by gcongr
    _ = v / 2 * double.step S * 2 ^ 26 := by ring

theorem round_le_iff (h : DoublePlace code s q S v) (hc : code < single.infinity) (hy : 0 ≤ y) :
    single.round (throughDouble y) ≤ code ↔ y < single.magnitude code + radius code S v
      ∨ y = single.magnitude code + radius code S v ∧ code % 2 = 0 := by
  obtain ⟨-, -, -, -, heven, hpos, hlow, hup, hinf⟩ := id h
  have hplace : (2 * v * q + v) % 2 = 0 := by
    rw [mul_assoc, Nat.mul_add_mod, heven]
  have hradius : ((2 * v * q + v : ℕ) - (code % 2 : ℕ) + 1 / 2) * double.step S
      = single.magnitude code + radius code S v := by
    rw [h.magnitude_eq, radius]
    push_cast
    ring
  rw [round_throughDouble_le_iff hy hc h.middle_eq hplace (by omega) (by omega) hinf, hradius]

theorem round_le_pred_iff {k : ℕ} (h : DoublePlace (k + 1) s q S v) (hc : k < single.infinity)
    (hy : 0 ≤ y) :
    single.round (throughDouble y) ≤ k ↔ y < single.magnitude (k + 1) - radius (k + 1) S v
      ∨ y = single.magnitude (k + 1) - radius (k + 1) S v ∧ ¬(k + 1) % 2 = 0 := by
  obtain ⟨-, -, -, -, heven, hpos, hlow, hup, hinf⟩ := id h
  have hplace : (2 * v * q - v) % 2 = 0 := by
    have : (2 * v * q) % 2 = 0 := by rw [mul_assoc, Nat.mul_mod_right]
    omega
  have hparity : ((k % 2 : ℕ) : ℚ) = 1 - ((k + 1) % 2 : ℕ) := by
    rw [eq_sub_iff_add_eq]
    exact_mod_cast (show k % 2 + (k + 1) % 2 = 1 by omega)
  have hradius : ((2 * v * q - v : ℕ) - (k % 2 : ℕ) + 1 / 2) * double.step S
      = single.magnitude (k + 1) - radius (k + 1) S v := by
    rw [h.magnitude_eq, radius, hparity, Nat.cast_sub (by omega)]
    push_cast
    ring
  rw [round_throughDouble_le_iff hy hc h.middle_pred_eq hplace (by omega) (by omega) hinf, hradius,
    show k % 2 = 0 ↔ ¬(k + 1) % 2 = 0 by omega]

end DoublePlace

/-- Whether a number is read as a code by way of `double` depends on how far it is away. -/
theorem exists_radius (h0 : 0 < code) (hc : code < single.infinity)
    (hpow : ∀ k : ℤ, single.magnitude code ≠ 2 ^ k) :
    ∃ r, single.magnitude code / 2 ^ 26 < r ∧ ∀ y, 0 ≤ y → (IsNearestThrough y code
      ↔ |y - single.magnitude code| < r ∨ |y - single.magnitude code| = r ∧ code % 2 = 0) := by
  obtain ⟨s, q, S, v, h⟩ := exists_doublePlace h0 hc hpow
  obtain ⟨k, rfl⟩ := Nat.exists_eq_add_one.2 h0
  refine ⟨radius (k + 1) S v, h.lt_radius, fun y hy => ?_⟩
  have hcut : IsNearestThrough y (k + 1) ↔ single.round (throughDouble y) ≤ k + 1
      ∧ ¬single.round (throughDouble y) ≤ k := by
    rw [isNearestThrough_iff hy]
    omega
  rw [hcut, h.round_le_iff hc hy, h.round_le_pred_iff (by omega) hy, between_iff h.radius_pos]

section Search

variable {z : ℚ} {d : Decimal}

/-- What is no further away than a number that is read as a code is read as the code too. -/
theorem isNearestThrough_of_le (h0 : 0 < code) (hc : code < single.infinity)
    (hpow : ∀ k : ℤ, single.magnitude code ≠ 2 ^ k) (hy : 0 ≤ y) (hz : 0 ≤ z)
    (hle : |y - single.magnitude code| ≤ |z - single.magnitude code|)
    (h : IsNearestThrough z code) : IsNearestThrough y code := by
  obtain ⟨r, -, hr⟩ := exists_radius h0 hc hpow
  rw [hr z hz] at h
  rw [hr y hy]
  rcases h with h | ⟨h, heven⟩
  · exact .inl (hle.trans_lt h)
  · rcases (hle.trans h.le).lt_or_eq with hlt | heq
    · exact .inl hlt
    · exact .inr ⟨heq, heven⟩

theorem isNearestThrough_nearest (h0 : 0 < code) (hc : code < single.infinity)
    (hpow : ∀ k : ℤ, single.magnitude code ≠ 2 ^ k) :
    IsNearestThrough
      (nearest (single.magnitude code) (gridExponent (single.magnitude code) 8)).value code := by
  obtain ⟨r, hlt, hr⟩ := exists_radius h0 hc hpow
  have hx := single.magnitude_pos h0
  have hclose := abs_nearest_sub_le hx.le (gridExponent (single.magnitude code) 8)
  have hgrid := zpow_gridExponent (single.magnitude code) 8
  have hlead := zpow_leadingExponent_le hx
  have hbound : (10 : ℚ) ^ gridExponent (single.magnitude code) 8 / 2
      ≤ single.magnitude code / 2 ^ 26 := by
    rw [← hgrid] at hlead
    rw [le_div_iff₀ (by norm_num)]
    linarith
  exact (hr _ (value_nonneg _)).2 (.inl ((hclose.trans hbound).trans_lt hlt))

theorem pos_of_isNearestThrough (h0 : 0 < code) (hy : 0 ≤ y) (h : IsNearestThrough y code) :
    0 < y := by
  refine hy.lt_of_ne ?_
  rintro rfl
  rw [isNearestThrough_iff le_rfl, throughDouble, round_zero, Format.magnitude_zero,
    round_zero] at h
  omega

/-- The correctly rounded decimal of `n + 1` digits. -/
def candidate (code n : ℕ) : Decimal :=
  nearest (single.magnitude code) (gridExponent (single.magnitude code) n)

/-- The search goes through the numbers of digits in order and ends with the first one for which the
nearest decimal is read back, if there is one. -/
theorem exists_firstRounded_eq_candidate (h : readsBack code (candidate code 8)) :
    ∃ n ≤ 8, firstRounded code = candidate code n ∧ readsBack code (candidate code n)
      ∧ ∀ m < n, ¬readsBack code (candidate code m) := by
  have heq : firstRounded code = (((List.range maxDigits).map (candidate code)).find?
      (readsBack code)).getD (candidate code (maxDigits - 1)) := rfl
  rw [List.find?_map] at heq
  rcases hfind : (List.range maxDigits).find? (readsBack code ∘ candidate code) with _ | n
  · have hnone := List.find?_eq_none.1 hfind 8 (by decide)
    rw [Function.comp_apply] at hnone
    exact absurd h hnone
  · obtain ⟨hback, hmem, hbefore⟩ := List.find?_range_eq_some.1 hfind
    rw [hfind, Option.map_some, Option.getD_some] at heq
    rw [Function.comp_apply] at hback
    refine ⟨n, Nat.le_of_lt_succ (List.mem_range.1 hmem), heq, hback, fun m hm hcon => ?_⟩
    have hnot := hbefore m hm
    rw [Function.comp_apply, hcon] at hnot
    exact Bool.false_ne_true hnot

theorem exists_firstRounded_eq (h0 : 0 < code) (hc : code < single.infinity)
    (hpow : ∀ k : ℤ, single.magnitude code ≠ 2 ^ k) :
    ∃ n, firstRounded code
        = nearest (single.magnitude code) (gridExponent (single.magnitude code) n)
      ∧ IsNearestThrough (firstRounded code).value code
      ∧ ∀ m < n, ¬IsNearestThrough
        (nearest (single.magnitude code) (gridExponent (single.magnitude code) m)).value code := by
  obtain ⟨n, -, heq, hback, hbefore⟩ := exists_firstRounded_eq_candidate
    (readsBack_iff.2 (isNearestThrough_nearest h0 hc hpow))
  refine ⟨n, heq, ?_, fun m hm => mt readsBack_iff.2 (hbefore m hm)⟩
  rw [heq]
  exact readsBack_iff.1 hback

/-- A decimal that is read as the `float` of a code by way of `double`, has as few digits as any
decimal that is, and is as close to the `float` as any decimal with so few digits. -/
structure IsShortestThrough (code : ℕ) (d : Decimal) : Prop where
  isNearest : IsNearestThrough d.value code
  isLeast : IsLeast {k | ∃ d' : Decimal, IsNearestThrough d'.value code ∧ d'.digits.length = k}
    d.digits.length
  closest : ∀ d' : Decimal, d'.digits.length ≤ d.digits.length →
    |d.value - single.magnitude code| ≤ |d'.value - single.magnitude code|

/-- **The rounded digits are the shortest.** The digits that are looked for first, for a `float`
whose magnitude is no power of two, are those of the shortest decimal that is read as the `float` by
way of `double`, and none with so few digits is closer, whether it is read so or not. -/
theorem firstRounded_isShortest (x : Single) (hfinite : x.isFinite) (hzero : x.isZero = false)
    (hpow : ∀ k : ℤ, x.magnitude ≠ 2 ^ k) : IsShortestThrough x.code (firstRounded x.code) := by
  have h0 : 0 < x.code := Nat.pos_of_ne_zero (of_decide_eq_false hzero)
  have hc : x.code < single.infinity := of_decide_eq_true hfinite
  have hx := single.magnitude_pos h0
  obtain ⟨n, heq, hnearest, hbefore⟩ := exists_firstRounded_eq h0 hc hpow
  have hfits : (firstRounded x.code).digits.length ≤ n + 1 := by
    rw [length_digits_le_iff, heq]
    exact fits_nearest hx n
  refine ⟨hnearest, ⟨⟨_, hnearest, rfl⟩, ?_⟩, fun d' hd' => ?_⟩
  · rintro _ ⟨d', hd', rfl⟩
    have hself := (length_digits_le_iff d' _).1 le_rfl
    obtain ⟨m, hm⟩ := Nat.exists_eq_add_one.2
      (hself.pos_digits (pos_of_isNearestThrough h0 d'.value_nonneg hd'))
    rw [hm] at hself ⊢
    by_contra hcon
    have hclose := abs_nearest_sub_le_of_fits hx hself
    exact hbefore m (by omega)
      (isNearestThrough_of_le h0 hc hpow (value_nonneg _) d'.value_nonneg hclose hd')
  · rw [heq]
    exact abs_nearest_sub_le_of_fits hx ((length_digits_le_iff d' _).1 (hd'.trans hfits))

theorem ne_zpow_of_between {x : ℚ} {e : ℤ} (hlow : (2 : ℚ) ^ e < x) (hup : x < (2 : ℚ) ^ (e + 1))
    (k : ℤ) : x ≠ 2 ^ k := by
  rintro rfl
  rw [zpow_lt_zpow_iff_right₀ (by norm_num)] at hlow hup
  omega

/-- A `float` whose shortest decimal is rounded to another one if it is rounded only once. -/
def crossed : Single := ⟨false, 0x15AE43FE, by decide +kernel⟩

theorem firstRounded_isShortest_crossed :
    crossed.isFinite ∧ crossed.isZero = false ∧ (∀ k : ℤ, crossed.magnitude ≠ 2 ^ k)
      ∧ IsShortestThrough 0x15AE43FE (firstRounded 0x15AE43FE) := by
  have hfinite : crossed.isFinite := by decide +kernel
  have hpow : ∀ k : ℤ, crossed.magnitude ≠ 2 ^ k :=
    ne_zpow_of_between (e := -84) (by decide +kernel) (by decide +kernel)
  exact ⟨hfinite, rfl, hpow, firstRounded_isShortest crossed hfinite rfl hpow⟩

end Search

end Single

end JavaLiteral
