import JavaLiteral.Proofs.FloatReading
import Mathlib.Algebra.Order.Field.Power
import Mathlib.Order.Bounds.Basic

/-!
# The digits of a `double` are the shortest

How many significant digits a decimal has depends on its value alone
(`Decimal.length_digits_le_iff`). A number that can be written with `n + 1` digits is a point of the
grid that the search looks at, or else a point of that grid lies between it and the magnitude
(`Decimal.Fits.exists_grid`). What is rounded to a code is convex, so the two neighbours of the
magnitude on the grid tell whether anything with so many digits reads back (`round_grid_ne`), and
which of it is closest (`abs_sub_le_grid`). So the text of a `double` follows the rule of
`Double.toString` (`Double.text_followsDigitRule`).
-/

namespace JavaLiteral

namespace Digits

section Significant

variable {n : ℕ}

theorem value_significant_mod_ten (h : significant n ≠ []) :
    value 10 (significant n) % 10 ≠ 0 := by
  obtain ⟨ds, d, hds⟩ := (List.eq_nil_or_concat' (significant n)).resolve_left h
  have hd : d ≠ 0 := by
    rintro rfl
    exact getLast?_significant n (by rw [hds, List.getLast?_concat])
  have hlt : d < 10 := lt_of_mem_significant (n := n) (by simp [hds])
  have hlast : value 10 [d] = d := by simp [value]
  rw [hds, value_append, hlast, List.length_singleton, pow_one]
  omega

/-- The first of the significant digits is not zero. -/
theorem pow_le_value_significant (h : significant n ≠ []) :
    10 ^ ((significant n).length - 1) ≤ value 10 (significant n) := by
  obtain ⟨d, ds, hds⟩ := List.exists_cons_of_ne_nil h
  have hd : d ≠ 0 := by
    rintro rfl
    exact head?_significant n (by rw [hds, List.head?_cons])
  rw [hds, List.length_cons, Nat.add_sub_cancel, ← List.singleton_append, value_append]
  have hone : value 10 [d] = d := by simp [value]
  rw [hone]
  have := Nat.le_mul_of_pos_left (10 ^ ds.length) (Nat.pos_of_ne_zero hd)
  omega

end Significant

end Digits

namespace Decimal

open Digits

/-- The numbers that can be written with so many significant digits. -/
def Fits (k : ℕ) (y : ℚ) : Prop := ∃ (a : ℕ) (e : ℤ), a < 10 ^ k ∧ y = a * (10 : ℚ) ^ e

variable {x y : ℚ} {k n : ℕ}

theorem Fits.nonneg (h : Fits k y) : 0 ≤ y := by
  obtain ⟨a, e, -, rfl⟩ := h
  positivity

theorem Fits.pos_digits (h : Fits k y) (hy : 0 < y) : 0 < k := by
  obtain ⟨a, e, ha, rfl⟩ := h
  refine Nat.pos_of_ne_zero ?_
  rintro rfl
  obtain rfl : a = 0 := by simpa using ha
  simp at hy

/-- A number whose last digit is not zero divides what is equal to it up to a power of ten. -/
theorem le_of_mul_zpow_eq {m a : ℕ} {f e : ℤ} (hm : m % 10 ≠ 0)
    (h : m * (10 : ℚ) ^ f = a * (10 : ℚ) ^ e) : m ≤ a := by
  rcases le_or_gt e f with hle | hlt
  · obtain ⟨j, hj⟩ := Int.eq_ofNat_of_zero_le (sub_nonneg.2 hle)
    obtain rfl : f = j + e := by omega
    rw [zpow_add₀ (by norm_num), ← mul_assoc, mul_left_inj' (by positivity), zpow_natCast] at h
    have hnat : m * 10 ^ j = a := by exact_mod_cast h
    rw [← hnat]
    exact Nat.le_mul_of_pos_right _ (by positivity)
  · obtain ⟨j, hj⟩ := Int.eq_ofNat_of_zero_le (sub_nonneg.2 hlt.le)
    obtain rfl : e = j + f := by omega
    rw [zpow_add₀ (by norm_num), ← mul_assoc, mul_left_inj' (by positivity), zpow_natCast] at h
    have hnat : m = a * 10 ^ j := by exact_mod_cast h
    obtain ⟨i, rfl⟩ := Nat.exists_eq_add_one.2 (show 0 < j by omega)
    rw [hnat, pow_succ, ← mul_assoc, Nat.mul_mod_left] at hm
    exact absurd rfl hm

/-- A decimal has as many digits as its value needs. -/
theorem length_digits_le_iff (d : Decimal) (k : ℕ) : d.digits.length ≤ k ↔ Fits k d.value := by
  rw [length_digits, d.value_eq]
  constructor
  · intro h
    refine ⟨_, _, (value_lt_pow (by decide) fun e => lt_of_mem_significant).trans_le ?_, rfl⟩
    exact Nat.pow_le_pow_right (by decide) h
  · rintro ⟨a, e, ha, heq⟩
    rcases eq_or_ne (significant d.coeff) [] with hnil | hne
    · rw [hnil]
      exact Nat.zero_le k
    · have hle := le_of_mul_zpow_eq (value_significant_mod_ten hne) heq
      have hpow := (Nat.pow_lt_pow_iff_right (by decide)).1
        ((pow_le_value_significant hne).trans_lt (hle.trans_lt ha))
      omega

theorem length_digits_congr {d d' : Decimal} (h : d.value = d'.value) :
    d.digits.length = d'.digits.length := by
  apply le_antisymm
  · rw [length_digits_le_iff, h, ← length_digits_le_iff]
  · rw [length_digits_le_iff, ← h, ← length_digits_le_iff]

/-- The step of the grid of `n + 1` digits is that many places after the leading digit. -/
theorem zpow_gridExponent (x : ℚ) (n : ℕ) :
    (10 : ℚ) ^ n * (10 : ℚ) ^ gridExponent x n = (10 : ℚ) ^ leadingExponent x := by
  rw [← zpow_natCast, ← zpow_add₀ (by norm_num), gridExponent, add_sub_cancel]

/-- What can be written with `n + 1` digits lies on the grid, or a point of the grid lies between it
and the number. -/
theorem Fits.exists_grid (hx : 0 < x) (h : Fits (n + 1) y) :
    ∃ b : ℕ, b * (10 : ℚ) ^ gridExponent x n = y
      ∨ y ≤ b * (10 : ℚ) ^ gridExponent x n ∧ b * (10 : ℚ) ^ gridExponent x n ≤ x := by
  obtain ⟨a, e, ha, rfl⟩ := h
  rcases le_or_gt (gridExponent x n) e with hle | hlt
  · obtain ⟨j, hj⟩ := Int.eq_ofNat_of_zero_le (sub_nonneg.2 hle)
    refine ⟨a * 10 ^ j, .inl ?_⟩
    rw [show e = j + gridExponent x n by omega, zpow_add₀ (by norm_num), zpow_natCast]
    push_cast
    ring
  · refine ⟨10 ^ n, .inr ?_⟩
    have hpow : (10 : ℚ) ^ e * 10 ≤ (10 : ℚ) ^ gridExponent x n := by
      rw [← zpow_add_one₀ (by norm_num)]
      exact zpow_le_zpow_right₀ (by norm_num) (by omega)
    have ha' : (a : ℚ) ≤ 10 ^ n * 10 := by
      rw [← pow_succ]
      exact_mod_cast ha.le
    push_cast
    constructor
    · calc (a : ℚ) * (10 : ℚ) ^ e ≤ 10 ^ n * 10 * (10 : ℚ) ^ e := by gcongr
        _ = 10 ^ n * ((10 : ℚ) ^ e * 10) := by ring
        _ ≤ 10 ^ n * (10 : ℚ) ^ gridExponent x n := by gcongr
    · rw [zpow_gridExponent]
      exact zpow_leadingExponent_le hx

/-- The nearest decimal is one of the neighbours. -/
theorem nearest_eq_or (x : ℚ) (e : ℤ) : nearest x e = below x e ∨ nearest x e = above x e := by
  unfold nearest below above roundEven
  dsimp only
  split_ifs
  · exact .inl rfl
  · exact .inr rfl

section Grid

variable {e : ℤ}

theorem below_le (hx : 0 ≤ x) (e : ℤ) : (below x e).value ≤ x := by
  have hp : (0 : ℚ) < (10 : ℚ) ^ e := zpow_pos (by norm_num) e
  exact (le_div_iff₀ hp).1 (floor_toNat_le (div_nonneg hx hp.le))

theorem lt_above (hx : 0 ≤ x) (e : ℤ) : x < (above x e).value := by
  have hp : (0 : ℚ) < (10 : ℚ) ^ e := zpow_pos (by norm_num) e
  have h := (div_lt_iff₀ hp).1 (lt_floor_toNat_add_one (div_nonneg hx hp.le))
  unfold value above
  push_cast
  exact h

/-- No point of the grid is between the neighbours of a number. -/
theorem le_below_or_above_le (x : ℚ) (e : ℤ) (b : ℕ) :
    b * (10 : ℚ) ^ e ≤ (below x e).value ∨ (above x e).value ≤ b * (10 : ℚ) ^ e := by
  have hp : (0 : ℚ) ≤ (10 : ℚ) ^ e := zpow_nonneg (by norm_num) e
  rcases Nat.lt_or_ge (x / (10 : ℚ) ^ e).floor.toNat b with h | h
  · exact .inr (mul_le_mul_of_nonneg_right (Nat.cast_le.2 h) hp)
  · exact .inl (mul_le_mul_of_nonneg_right (Nat.cast_le.2 h) hp)

/-- No point of a grid is closer to a number than the nearest one. -/
theorem abs_nearest_sub_le_grid (hx : 0 ≤ x) (e : ℤ) (b : ℕ) :
    |(nearest x e).value - x| ≤ |b * (10 : ℚ) ^ e - x| :=
  not_lt.1 (not_closer_of_grid _ b (abs_nearest_sub_le hx e))

theorem fits_of_le_above (hx : 0 < x) {a : ℕ} (ha : a ≤ (above x (gridExponent x n)).coeff) :
    Fits (n + 1) (a * (10 : ℚ) ^ gridExponent x n) := by
  have hp : (0 : ℚ) < (10 : ℚ) ^ gridExponent x n := zpow_pos (by norm_num) _
  have hlt : ((below x (gridExponent x n)).coeff : ℚ) < (10 ^ (n + 1) : ℕ) := by
    refine lt_of_mul_lt_mul_right ?_ hp.le
    refine (below_le hx.le _).trans_lt ((lt_zpow_leadingExponent hx).trans_eq ?_)
    rw [zpow_add_one₀ (by norm_num), ← zpow_gridExponent x n]
    push_cast
    ring
  have hle : a ≤ 10 ^ (n + 1) := ha.trans (Nat.cast_lt.1 hlt)
  rcases hle.lt_or_eq with h | rfl
  · exact ⟨a, _, h, rfl⟩
  · refine ⟨1, gridExponent x n + (n + 1), Nat.one_lt_pow (by omega) (by decide), ?_⟩
    rw [zpow_add₀ (by norm_num), Nat.cast_one, one_mul, mul_comm]
    push_cast
    norm_cast

theorem fits_nearest (hx : 0 < x) (n : ℕ) :
    Fits (n + 1) (nearest x (gridExponent x n)).value := by
  rcases nearest_eq_or x (gridExponent x n) with h | h <;> rw [h]
  · exact fits_of_le_above hx (Nat.le_succ _)
  · exact fits_of_le_above hx le_rfl

/-- No number of so many digits is closer than the nearest decimal with them. -/
theorem abs_nearest_sub_le_of_fits (hx : 0 < x) (hy : Fits (n + 1) y) :
    |(nearest x (gridExponent x n)).value - x| ≤ |y - x| := by
  obtain ⟨b, rfl | ⟨hyb, hbx⟩⟩ := Fits.exists_grid hx hy
  · exact abs_nearest_sub_le_grid hx.le _ b
  · refine (abs_nearest_sub_le_grid hx.le _ b).trans ?_
    rw [abs_of_nonpos (by linarith), abs_of_nonpos (by linarith)]
    linarith

end Grid

end Decimal

namespace Binary.Format

open Decimal

variable {F : Format} {code n : ℕ} {d : Decimal} {y : ℚ}

theorem readsBack_iff : F.readsBack code d ↔ F.round d.value = code := decide_eq_true_iff

/-- If a point of a grid reads back, so does the neighbour on its side, which is as close. -/
theorem readsBack_below_or_above (hcode : code ≤ F.infinity) {e : ℤ} {b : ℕ}
    (hb : F.round (b * (10 : ℚ) ^ e) = code) :
    ∃ d, (d = below (F.magnitude code) e ∨ d = above (F.magnitude code) e) ∧ F.readsBack code d
      ∧ |d.value - F.magnitude code| ≤ |b * (10 : ℚ) ^ e - F.magnitude code| := by
  have hx := F.magnitude_nonneg code
  have hnonneg : 0 ≤ b * (10 : ℚ) ^ e := by positivity
  have hlow := below_le hx e
  have hup := lt_above hx e
  rcases le_below_or_above_le (F.magnitude code) e b with h | h
  · refine ⟨_, .inl rfl, readsBack_iff.2 ?_, ?_⟩
    · exact round_eq_of_mem_uIcc hcode hnonneg hb (Set.mem_uIcc.2 (.inl ⟨h, hlow⟩))
    · rw [abs_of_nonpos (by linarith), abs_of_nonpos (by linarith)]
      linarith
  · refine ⟨_, .inr rfl, readsBack_iff.2 ?_, ?_⟩
    · exact round_eq_of_mem_uIcc hcode hnonneg hb (Set.mem_uIcc.2 (.inr ⟨hup.le, h⟩))
    · rw [abs_of_nonneg (by linarith), abs_of_nonneg (by linarith)]
      linarith

/-- Where no point of the grid of `n + 1` digits is found, none reads back. -/
theorem round_grid_ne (hcode : code ≤ F.infinity)
    (h : neighbour? (F.magnitude code) (F.readsBack code) n = none) (b : ℕ) :
    F.round (b * (10 : ℚ) ^ gridExponent (F.magnitude code) n) ≠ code := by
  intro hb
  obtain ⟨d, hd, hback, -⟩ := readsBack_below_or_above hcode hb
  refine List.find?_eq_none.1 h d ?_ hback
  rcases hd with rfl | rfl <;> simp

/-- What is found on the grid of `n + 1` digits is as close as any point of it that reads back. -/
theorem abs_sub_le_grid (hcode : code ≤ F.infinity)
    (h : neighbour? (F.magnitude code) (F.readsBack code) n = some d) {b : ℕ}
    (hb : F.round (b * (10 : ℚ) ^ gridExponent (F.magnitude code) n) = code) :
    |d.value - F.magnitude code|
      ≤ |b * (10 : ℚ) ^ gridExponent (F.magnitude code) n - F.magnitude code| := by
  unfold neighbour? at h
  dsimp only at h
  rw [List.find?_cons] at h
  split at h
  · obtain rfl := Option.some.inj h
    exact abs_nearest_sub_le_grid (F.magnitude_nonneg code) _ b
  · rename_i hnearest
    obtain ⟨d', hd', hback', hclose⟩ := readsBack_below_or_above hcode hb
    suffices d = d' by rwa [this]
    -- Only one of the neighbours reads back, for the nearest decimal is one of them and does not.
    have hback := List.find?_some h
    have hd := List.mem_of_find?_eq_some h
    rw [List.mem_cons, List.mem_singleton] at hd
    have hne : ∀ {c}, F.readsBack code c → nearest (F.magnitude code)
        (gridExponent (F.magnitude code) n) ≠ c := by
      rintro c hc rfl
      exact absurd hc (by simp [hnearest])
    have hother := nearest_eq_or (F.magnitude code) (gridExponent (F.magnitude code) n)
    rcases hd with rfl | rfl <;> rcases hd' with rfl | rfl
    · rfl
    · exact absurd hother (not_or.2 ⟨hne hback, hne hback'⟩)
    · exact absurd hother (not_or.2 ⟨hne hback', hne hback⟩)
    · rfl

theorem fits_of_neighbour? (h0 : 0 < code)
    (h : neighbour? (F.magnitude code) (F.readsBack code) n = some d) : Fits (n + 1) d.value := by
  have hx := F.magnitude_pos h0
  have hd := List.mem_of_find?_eq_some h
  have hor : d = below (F.magnitude code) (gridExponent (F.magnitude code) n)
      ∨ d = above (F.magnitude code) (gridExponent (F.magnitude code) n) := by
    rcases List.mem_cons.1 hd with rfl | hd
    · exact nearest_eq_or _ _
    · simpa using hd
  rcases hor with rfl | rfl
  · exact fits_of_le_above hx (Nat.le_succ _)
  · exact fits_of_le_above hx le_rfl

/-- What reads back with `n + 1` digits is no better than a point of the grid that reads back. -/
theorem exists_grid_of_fits (h0 : 0 < code) (hcode : code ≤ F.infinity) (hy : Fits (n + 1) y)
    (hround : F.round y = code) :
    ∃ b : ℕ, F.round (b * (10 : ℚ) ^ gridExponent (F.magnitude code) n) = code
      ∧ |b * (10 : ℚ) ^ gridExponent (F.magnitude code) n - F.magnitude code|
        ≤ |y - F.magnitude code| := by
  obtain ⟨b, rfl | ⟨hyb, hbx⟩⟩ := hy.exists_grid (F.magnitude_pos h0)
  · exact ⟨b, hround, le_rfl⟩
  · refine ⟨b, round_eq_of_mem_uIcc hcode hy.nonneg hround (Set.mem_uIcc.2 (.inl ⟨hyb, hbx⟩)), ?_⟩
    rw [abs_of_nonpos (by linarith), abs_of_nonpos (by linarith)]
    linarith

end Binary.Format

/-- What comes before a number in a range is all that is less. -/
theorem mem_of_range_eq_append {k n m : ℕ} {before after : List ℕ}
    (h : List.range k = before ++ n :: after) (hm : m < n) : m ∈ before := by
  have hsorted : (before ++ n :: after).Pairwise (· < ·) := h ▸ List.pairwise_lt_range
  have hn : n < k := List.mem_range.1 (by simp [h])
  have hmem : m ∈ before ++ n :: after := by
    rw [← h]
    exact List.mem_range.2 (hm.trans hn)
  rcases List.mem_append.1 hmem with hmem | hmem
  · exact hmem
  · rcases List.mem_cons.1 hmem with rfl | hmem
    · exact absurd hm (lt_irrefl _)
    · have := (List.pairwise_cons.1 (List.pairwise_append.1 hsorted).2.1).1 m hmem
      omega

namespace Double

open Binary Decimal

variable {code : ℕ}

/-- A decimal that reads back, has as few digits as any number that does, and is the closest of
those. -/
structure IsShortest (code : ℕ) (d : Decimal) : Prop where
  round_eq : Format.double.round d.value = code
  length_le : ∀ k y, Fits k y → Format.double.round y = code → d.digits.length ≤ k
  closest : ∀ y, Fits d.digits.length y → Format.double.round y = code →
    |d.value - Format.double.magnitude code| ≤ |y - Format.double.magnitude code|

/-- The search goes through the numbers of digits in order and ends with what it finds first. -/
theorem exists_neighbour?_eq_shortest (h0 : 0 < code) (hc : code ≤ Format.double.infinity) :
    ∃ n, neighbour? (Format.double.magnitude code) (Format.double.readsBack code) n
        = some (shortest code)
      ∧ ∀ m < n, neighbour? (Format.double.magnitude code) (Format.double.readsBack code) m
        = none := by
  unfold shortest
  dsimp only
  cases hfind : (List.range maxDigits).findSome?
      (neighbour? (Format.double.magnitude code) (Format.double.readsBack code)) with
  | none =>
    obtain ⟨k, rfl⟩ := Nat.exists_eq_add_one.2 h0
    have hnone := List.findSome?_eq_none_iff.1 hfind 16 (by decide)
    exact absurd (Format.round_nearest (n := 16) (by decide +kernel) hc)
      (Format.round_grid_ne hc hnone _)
  | some d =>
    obtain ⟨before, n, after, hrange, hn, hbefore⟩ := List.findSome?_eq_some_iff.1 hfind
    exact ⟨n, hn, fun m hm => hbefore m (mem_of_range_eq_append hrange hm)⟩

theorem isShortest_shortest (h0 : 0 < code) (hc : code ≤ Format.double.infinity) :
    IsShortest code (shortest code) := by
  obtain ⟨n, hn, hbefore⟩ := exists_neighbour?_eq_shortest h0 hc
  have hround := Format.readsBack_iff.1 (List.find?_some hn)
  have hmin : ∀ k y, Fits k y → Format.double.round y = code → n + 1 ≤ k := by
    intro k y hy hyround
    obtain ⟨m, rfl⟩ :=
      Nat.exists_eq_add_one.2 (hy.pos_digits (Format.pos_of_round h0 hy.nonneg hyround))
    by_contra hlt
    obtain ⟨b, hb, -⟩ := Format.exists_grid_of_fits h0 hc hy hyround
    exact Format.round_grid_ne hc (hbefore m (by omega)) b hb
  have hlength : (shortest code).digits.length = n + 1 :=
    le_antisymm ((length_digits_le_iff _ _).2 (Format.fits_of_neighbour? h0 hn))
      (hmin _ _ ((length_digits_le_iff _ _).1 le_rfl) hround)
  refine ⟨hround, fun k y hy hyround => hlength ▸ hmin k y hy hyround, fun y hy hyround => ?_⟩
  rw [hlength] at hy
  obtain ⟨b, hb, hclose⟩ := Format.exists_grid_of_fits h0 hc hy hyround
  exact (Format.abs_sub_le_grid hc hn hb).trans hclose

/-- The rule of `Double.toString` for the digits of a code, where `n` is the least number of digits
that a decimal can have and be rounded to the code. -/
structure FollowsDigitRule (code n : ℕ) (d : Decimal) : Prop where
  isLeast : IsLeast {k | ∃ d' : Decimal, Format.double.IsNearest d'.value code
    ∧ d'.digits.length = k} n
  isNearest : Format.double.IsNearest d.value code
  length_le : d.digits.length ≤ max n 2
  length_eq : 2 ≤ n → d.digits.length = n
  closest : ∀ d' : Decimal, Format.double.IsNearest d'.value code →
    d'.digits.length ≤ max n 2 →
    |d.value - Format.double.magnitude code| ≤ |d'.value - Format.double.magnitude code|

/-- The rule is about the value of a decimal only. -/
theorem FollowsDigitRule.congr {n : ℕ} {d d' : Decimal} (h : FollowsDigitRule code n d)
    (hd : d'.value = d.value) : FollowsDigitRule code n d' := by
  obtain ⟨hleast, hnearest, hle, heq, hclose⟩ := h
  have hlength := length_digits_congr hd
  refine ⟨hleast, ?_, ?_, ?_, ?_⟩
  · rwa [hd]
  · rwa [hlength]
  · rwa [hlength]
  · rwa [hd]

theorem isLeast_shortest (h0 : 0 < code) (hc : code ≤ Format.double.infinity) :
    IsLeast {k | ∃ d : Decimal, Format.double.IsNearest d.value code ∧ d.digits.length = k}
      (shortest code).digits.length := by
  have hshort := isShortest_shortest h0 hc
  refine ⟨⟨shortest code, (Format.isNearest_iff (value_nonneg _)).2 hshort.round_eq, rfl⟩, ?_⟩
  rintro _ ⟨d, hd, rfl⟩
  exact hshort.length_le _ _ ((length_digits_le_iff _ _).1 le_rfl)
    ((Format.isNearest_iff d.value_nonneg).1 hd)

theorem decimal_followsDigitRule (h0 : 0 < code) (hc : code < Format.double.infinity) :
    FollowsDigitRule code (shortest code).digits.length (decimal code) := by
  have hx := Format.double.magnitude_pos h0
  have hshort := isShortest_shortest h0 hc.le
  have hround := round_decimal h0 hc
  have hleast := isLeast_shortest h0 hc.le
  have hnearest := (Format.isNearest_iff (value_nonneg _)).2 hround
  have hpos := ((length_digits_le_iff (shortest code) _).1 le_rfl).pos_digits
    (Format.pos_of_round h0 (value_nonneg _) hshort.round_eq)
  have hclosest : ∀ d' : Decimal, Format.double.IsNearest d'.value code →
      d'.digits.length ≤ (shortest code).digits.length →
      |(shortest code).value - Format.double.magnitude code|
        ≤ |d'.value - Format.double.magnitude code| := fun d' hd' hle =>
    hshort.closest _ ((length_digits_le_iff _ _).1 hle)
      ((Format.isNearest_iff d'.value_nonneg).1 hd')
  unfold decimal preferTwo at hnearest ⊢
  dsimp only at hnearest ⊢
  rw [distance_eq, distance_eq] at hnearest ⊢
  split_ifs at hnearest ⊢ with htwo
  · obtain ⟨hlength, -⟩ := htwo
    refine ⟨hleast, hnearest, ?_, fun h => by omega, fun d' _ hle => ?_⟩
    · exact ((length_digits_le_iff _ _).2 (fits_nearest hx 1)).trans (le_max_right _ _)
    · rw [hlength] at hle
      exact abs_nearest_sub_le_of_fits hx ((length_digits_le_iff _ _).1 hle)
  · refine ⟨hleast, hnearest, le_max_left _ _, fun _ => rfl, fun d' hd' hle => ?_⟩
    rcases Nat.lt_or_ge 1 (shortest code).digits.length with hlength | hlength
    · exact hclosest d' hd' (by omega)
    · rw [not_and, not_lt] at htwo
      refine (htwo (by omega)).trans (abs_nearest_sub_le_of_fits hx ?_)
      exact (length_digits_le_iff _ _).1 (hle.trans (by omega))

/-- The text of a finite `double` other than zero is its sign and a decimal that follows the rule of
`Double.toString`. -/
theorem text_followsDigitRule (x : Double) (hfinite : x.isFinite) (hzero : x.isZero = false) :
    ∃ t d n, x.text? = some ((if x.negative then Text.ofString "-" else []) ++ t)
      ∧ Source.decimalLiteral? t = some d ∧ FollowsDigitRule x.code n d := by
  have h0 : 0 < x.code := Nat.pos_of_ne_zero (of_decide_eq_false hzero)
  have hrule := decimal_followsDigitRule h0 (of_decide_eq_true hfinite)
  have hpos := Format.pos_of_round h0 (value_nonneg _)
    ((Format.isNearest_iff (value_nonneg _)).1 hrule.isNearest)
  obtain ⟨d, hread, hvalue, -⟩ := exists_decimalLiteral?_text x.magnitude hpos
  refine ⟨_, d, _, ?_, hread, hrule.congr hvalue⟩
  have hne : ¬x.isZero = true := by simp [hzero]
  rw [text?, if_pos hfinite, finiteText, if_neg hne]

/-- The negative `double` closest to zero, whose decimal gets a second digit. -/
def greatestNegative : Double := ⟨true, 1, by decide +kernel⟩

theorem text_followsDigitRule_greatestNegative :
    greatestNegative.isFinite ∧ greatestNegative.isZero = false
      ∧ ∃ t d n, greatestNegative.text? = some (Text.ofString "-" ++ t)
        ∧ Source.decimalLiteral? t = some d ∧ FollowsDigitRule 1 n d :=
  ⟨by decide +kernel, by decide, text_followsDigitRule _ (by decide +kernel) (by decide)⟩

end Double

end JavaLiteral
