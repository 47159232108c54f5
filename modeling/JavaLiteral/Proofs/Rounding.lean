import JavaLiteral.Binary
import Mathlib.Data.Rat.Floor
import Mathlib.Order.Interval.Set.UnorderedInterval
import Mathlib.Tactic.Linarith
import Mathlib.Tactic.LinearCombination
import Mathlib.Tactic.Positivity

/-!
# Rounding to a format

The magnitudes of a format grow with the codes, by a spacing that doubles from binade to binade
(`multiple_succ`). Rounding cuts the line at the middles between neighbours, and a middle belongs to
the even one of the two (`round_le_iff`). So it is monotone (`round_mono`), keeps the magnitudes
(`round_magnitude`) and finds the nearest one (`isNearest_iff`).
-/

namespace JavaLiteral

section RoundEven

variable {x : ℚ}

theorem floor_toNat_le (hx : 0 ≤ x) : (x.floor.toNat : ℚ) ≤ x := by
  have h0 : 0 ≤ x.floor := Rat.le_floor_iff.2 hx
  have h := Rat.floor_le x
  rwa [← Int.toNat_of_nonneg h0, Int.cast_natCast] at h

theorem lt_floor_toNat_add_one (hx : 0 ≤ x) : x < x.floor.toNat + 1 := by
  have h0 : 0 ≤ x.floor := Rat.le_floor_iff.2 hx
  have h := Rat.lt_floor_add_one x
  rw [← Int.toNat_of_nonneg h0] at h
  exact_mod_cast h

theorem roundEven_le_iff (hx : 0 ≤ x) (n : ℕ) :
    roundEven x ≤ n ↔ x < n + 1 / 2 ∨ x = n + 1 / 2 ∧ n % 2 = 0 := by
  have hle := floor_toNat_le hx
  have hlt := lt_floor_toNat_add_one hx
  unfold roundEven
  dsimp only
  generalize x.floor.toNat = q at *
  rcases lt_trichotomy q n with h | rfl | h
  · have hq : (q : ℚ) + 1 ≤ n := by exact_mod_cast h
    have hleft : x < n + 1 / 2 := by linarith
    refine iff_of_true ?_ (.inl hleft)
    split_ifs <;> omega
  · have hcond : (x - q < 1 / 2 ∨ x - q = 1 / 2 ∧ q % 2 = 0)
        ↔ x < q + 1 / 2 ∨ x = q + 1 / 2 ∧ q % 2 = 0 := by
      rw [sub_lt_iff_lt_add', sub_eq_iff_eq_add']
    rw [← hcond]
    split_ifs with hc
    · exact iff_of_true le_rfl hc
    · exact iff_of_false (by omega) hc
  · have hq : (n : ℚ) + 1 ≤ q := by exact_mod_cast h
    refine iff_of_false ?_ ?_
    · split_ifs <;> omega
    · rintro (h | ⟨h, -⟩) <;> linarith

/-- Nothing is further than a half from what it is rounded to. -/
theorem abs_sub_roundEven_le (hx : 0 ≤ x) : |x - roundEven x| ≤ 1 / 2 := by
  have hup := (roundEven_le_iff hx (roundEven x)).1 le_rfl
  rw [abs_le]
  constructor
  · rcases Nat.eq_zero_or_pos (roundEven x) with h0 | h0
    · rw [h0]
      push_cast
      linarith
    · have hlow := mt (roundEven_le_iff hx (roundEven x - 1)).2 (by omega)
      rw [not_or, not_lt, Nat.cast_pred h0] at hlow
      linarith [hlow.1]
  · rcases hup with h | ⟨h, -⟩ <;> linarith

end RoundEven

namespace Binary.Format

variable (F : Format)

theorem binade_eq : F.binade = 2 ^ F.fractionBits := Nat.one_shiftLeft _

theorem two_dvd_binade : 2 ∣ F.binade := by
  rw [binade_eq]
  exact dvd_pow_self 2 F.fractionBits_pos.ne'

theorem codes_eq : F.codes = 2 ^ F.exponentBits * F.binade := by
  rw [binade_eq, codes, Nat.one_shiftLeft, pow_add]

theorem two_dvd_infinity : 2 ∣ F.infinity := by
  rw [infinity, codes_eq]
  exact Nat.dvd_sub (F.two_dvd_binade.mul_left _) F.two_dvd_binade

theorem infinity_pos : 0 < F.infinity := by
  have hcodes := F.codes_eq
  have hexp : 2 ^ 2 ≤ 2 ^ F.exponentBits :=
    Nat.pow_le_pow_right Nat.zero_lt_two F.one_lt_exponentBits
  have hmul := Nat.mul_le_mul_right F.binade hexp
  have := F.binade_pos
  unfold infinity
  omega

theorem unit_pos : 0 < F.unit := by
  unfold unit
  positivity

/-- The distance from a code to the next one in units. -/
def spacing (code : ℕ) : ℕ := 2 ^ (code / F.binade - 1)

/-- The step of the grid of a binade, the subnormal codes and the first binade being on one grid. -/
def step (s : ℕ) : ℚ := 2 ^ s * F.unit

/-- The middle between a code and the next one. -/
def middle (code : ℕ) : ℚ := (F.magnitude code + F.magnitude (code + 1)) / 2

theorem multiple_add {s q : ℕ} (hs : s = 0 ∨ F.binade ≤ q) (hq : q ≤ 2 * F.binade) :
    F.multiple (s * F.binade + q) = q * 2 ^ s := by
  have hb := F.binade_pos
  unfold multiple
  rw [Nat.shiftLeft_eq, Nat.mul_comm s, Nat.mul_add_mod, Nat.mul_add_div hb]
  rcases hq.lt_or_eq with hlt | rfl
  · rcases Nat.lt_or_ge q F.binade with h | h
    · obtain rfl := hs.resolve_right (by omega)
      rw [if_pos (by omega)]
      omega
    · have hdiv : q / F.binade = 1 := Nat.div_eq_of_lt_le (by omega) (by omega)
      have hmod : F.binade + q % F.binade = q := by
        rw [Nat.mod_eq_sub_mod h, Nat.mod_eq_of_lt (by omega)]
        omega
      rw [if_neg (by omega), hdiv, hmod, Nat.add_sub_cancel]
  · rw [if_neg (by omega), Nat.mul_mod_left, Nat.mul_div_cancel _ hb, Nat.add_zero,
      show s + 2 - 1 = s + 1 by omega, pow_succ]
    ring

theorem step_pos (s : ℕ) : 0 < F.step s := mul_pos (by positivity) F.unit_pos

theorem magnitude_add {s q : ℕ} (hs : s = 0 ∨ F.binade ≤ q) (hq : q ≤ 2 * F.binade) :
    F.magnitude (s * F.binade + q) = q * F.step s := by
  rw [magnitude, F.multiple_add hs hq, step]
  push_cast
  ring

theorem mul_binade_add_mod_two (s q : ℕ) : (s * F.binade + q) % 2 = q % 2 := by
  obtain ⟨k, hk⟩ := F.two_dvd_binade
  rw [hk, Nat.mul_left_comm, Nat.mul_add_mod]

/-- Every code lies in a binade, the subnormal codes in the first one. -/
theorem exists_binade (code : ℕ) :
    ∃ s q, code = s * F.binade + q ∧ (s = 0 ∨ F.binade ≤ q) ∧ q < 2 * F.binade
      ∧ F.spacing code = 2 ^ s := by
  have hb := F.binade_pos
  have hdiv := Nat.div_add_mod code F.binade
  have hmod := Nat.mod_lt code hb
  rw [Nat.mul_comm] at hdiv
  rcases Nat.eq_zero_or_pos (code / F.binade) with h | h
  · refine ⟨0, code, by omega, .inl rfl, by rw [h] at hdiv; omega, by rw [spacing, h]⟩
  · obtain ⟨s, hs⟩ := Nat.exists_eq_add_one.2 h
    rw [hs, Nat.succ_mul] at hdiv
    exact ⟨s, F.binade + code % F.binade, by omega, .inr (by omega), by omega,
      by rw [spacing, hs, Nat.add_sub_cancel]⟩

theorem multiple_succ (code : ℕ) : F.multiple (code + 1) = F.multiple code + F.spacing code := by
  obtain ⟨s, q, rfl, hs, hq, hspacing⟩ := F.exists_binade code
  rw [hspacing, Nat.add_assoc, F.multiple_add (q := q + 1) (by omega) (by omega),
    F.multiple_add hs hq.le]
  ring

theorem spacing_pos (code : ℕ) : 0 < F.spacing code := Nat.two_pow_pos _

theorem multiple_strictMono : StrictMono F.multiple :=
  strictMono_nat_of_lt_succ fun code => by
    rw [multiple_succ]
    exact Nat.lt_add_of_pos_right (F.spacing_pos code)

theorem magnitude_strictMono : StrictMono F.magnitude := fun _ _ h =>
  mul_lt_mul_of_pos_right (Nat.cast_lt.2 (F.multiple_strictMono h)) F.unit_pos

theorem magnitude_zero : F.magnitude 0 = 0 := by
  have h : F.multiple 0 = 0 := if_pos F.binade_pos
  rw [magnitude, h, Nat.cast_zero, zero_mul]

theorem magnitude_nonneg (code : ℕ) : 0 ≤ F.magnitude code :=
  mul_nonneg (Nat.cast_nonneg _) F.unit_pos.le

theorem magnitude_pos {code : ℕ} (h : 0 < code) : 0 < F.magnitude code := by
  rw [← F.magnitude_zero]
  exact F.magnitude_strictMono h

theorem magnitude_succ (code : ℕ) :
    F.magnitude (code + 1) = F.magnitude code + F.spacing code * F.unit := by
  rw [magnitude, magnitude, multiple_succ, Nat.cast_add, add_mul]

theorem magnitude_lt_middle (code : ℕ) : F.magnitude code < F.middle code := by
  have := F.magnitude_strictMono (Nat.lt_succ_self code)
  unfold middle
  linarith

theorem middle_lt_magnitude (code : ℕ) : F.middle code < F.magnitude (code + 1) := by
  have := F.magnitude_strictMono (Nat.lt_succ_self code)
  unfold middle
  linarith

theorem middle_eq (code : ℕ) :
    F.middle code = F.magnitude code + F.spacing code * F.unit / 2 := by
  rw [middle, magnitude_succ]
  ring

variable {F} {x y : ℚ} {code : ℕ}

theorem middle_add {s q : ℕ} (hs : s = 0 ∨ F.binade ≤ q) (hq : q < 2 * F.binade) :
    F.middle (s * F.binade + q) = (q + 1 / 2) * F.step s := by
  rw [middle, Nat.add_assoc, F.magnitude_add hs hq.le, F.magnitude_add (by omega) hq]
  push_cast
  ring

/-- What rounding looks at first: the grid of a number, and the place of the number on it. -/
theorem exists_round_eq (hx : 0 ≤ x) :
    ∃ (s : ℕ) (t : ℚ), 0 ≤ t ∧ x = t * F.step s ∧ (s = 0 ∨ F.binade ≤ t)
      ∧ t < 2 * F.binade ∧ F.round x = min (s * F.binade + roundEven t) F.infinity := by
  have hu := F.unit_pos
  have hu0 : 0 ≤ x / F.unit := div_nonneg hx hu.le
  have hle := floor_toNat_le hu0
  have hlt := lt_floor_toNat_add_one hu0
  set n := (x / F.unit).floor.toNat with hn
  set s := Nat.log2 n - F.fractionBits with hs
  have hp : (0 : ℚ) < 2 ^ s := by positivity
  refine ⟨s, x / F.unit / 2 ^ s, by positivity, ?_, ?_, ?_, rfl⟩
  · rw [step, ← mul_assoc, div_mul_cancel₀ _ hp.ne', div_mul_cancel₀ _ hu.ne']
  · rcases Nat.eq_zero_or_pos s with h0 | h0
    · exact .inl h0
    · right
      have hn0 : n ≠ 0 := by
        rintro h
        rw [h, Nat.log2_zero] at hs
        omega
      have hpow : 2 ^ F.fractionBits * 2 ^ s ≤ n := by
        rw [← pow_add, show F.fractionBits + s = Nat.log2 n by omega]
        exact Nat.log2_self_le hn0
      have hpow' : (F.binade : ℚ) * 2 ^ s ≤ n := by
        rw [binade_eq]
        exact_mod_cast hpow
      rw [le_div_iff₀ hp]
      exact hpow'.trans hle
  · have hpow : n < 2 ^ (F.fractionBits + 1) * 2 ^ s := by
      rw [← pow_add]
      exact Nat.lt_log2_self.trans_le (Nat.pow_le_pow_right Nat.zero_lt_two (by omega))
    have hpow' : (n : ℚ) + 1 ≤ 2 * F.binade * 2 ^ s := by
      rw [binade_eq, mul_comm (2 : ℚ)]
      exact_mod_cast hpow
    rw [div_lt_iff₀ hp]
    exact hlt.trans_le hpow'

section Place

variable {s : ℕ} {t : ℚ}

theorem middle_lt_of_lt (hst : F.binade ≤ t) (h : code < s * F.binade + F.binade) :
    F.middle code < t * F.step s ∧ code < s * F.binade + roundEven t := by
  have hb := F.binade_pos
  constructor
  · calc F.middle code < F.magnitude (code + 1) := F.middle_lt_magnitude code
      _ ≤ F.magnitude (s * F.binade + F.binade) := F.magnitude_strictMono.monotone h
      _ = F.binade * F.step s := F.magnitude_add (.inr le_rfl) (by omega)
      _ ≤ t * F.step s := mul_le_mul_of_nonneg_right hst (F.step_pos s).le
  · have ht : 0 ≤ t := (Nat.cast_nonneg F.binade).trans hst
    have hq : F.binade ≤ roundEven t := by
      by_contra hcon
      have hlow := (roundEven_le_iff ht (F.binade - 1)).1 (by omega)
      rw [Nat.cast_pred hb] at hlow
      rcases hlow with h | ⟨h, -⟩ <;> linarith
    omega

theorem lt_middle_of_le (ht : 0 ≤ t) (htb : t < 2 * F.binade)
    (h : s * F.binade + 2 * F.binade ≤ code) :
    t * F.step s < F.middle code ∧ s * F.binade + roundEven t ≤ code := by
  have hb := F.binade_pos
  constructor
  · calc t * F.step s < 2 * F.binade * F.step s := mul_lt_mul_of_pos_right htb (F.step_pos s)
      _ = (2 * F.binade : ℕ) * F.step s := by push_cast; rfl
      _ = F.magnitude (s * F.binade + 2 * F.binade) :=
          (F.magnitude_add (.inr (by omega)) le_rfl).symm
      _ ≤ F.magnitude code := F.magnitude_strictMono.monotone h
      _ < F.middle code := F.magnitude_lt_middle code
  · have hq : roundEven t ≤ 2 * F.binade := by
      refine (roundEven_le_iff ht _).2 (.inl ?_)
      push_cast
      linarith
    omega

theorem le_add_iff_lt_middle {q : ℕ} (ht : 0 ≤ t) (hs : s = 0 ∨ F.binade ≤ q)
    (hq : q < 2 * F.binade) :
    s * F.binade + roundEven t ≤ s * F.binade + q
      ↔ t * F.step s < F.middle (s * F.binade + q)
        ∨ t * F.step s = F.middle (s * F.binade + q) ∧ (s * F.binade + q) % 2 = 0 := by
  have hp := F.step_pos s
  rw [Nat.add_le_add_iff_left, roundEven_le_iff ht, middle_add hs hq, mul_binade_add_mod_two,
    mul_lt_mul_iff_left₀ hp, mul_left_inj' hp.ne']

end Place

/-- Rounding cuts at the middles, and a middle belongs to the even code beside it. -/
theorem round_le_iff (hx : 0 ≤ x) (hc : code < F.infinity) :
    F.round x ≤ code ↔ x < F.middle code ∨ x = F.middle code ∧ code % 2 = 0 := by
  obtain ⟨s, t, ht, rfl, hs, htb, hround⟩ := F.exists_round_eq hx
  rw [hround, min_le_iff, or_iff_left (by omega)]
  rcases Nat.lt_or_ge code (s * F.binade + 2 * F.binade) with h2 | h2
  · by_cases h1 : s ≠ 0 ∧ code < s * F.binade + F.binade
    · obtain ⟨hmid, hlt⟩ := middle_lt_of_lt (hs.resolve_left h1.1) h1.2
      exact iff_of_false (by omega) (by rintro (h | ⟨h, -⟩) <;> linarith)
    · have hle : s * F.binade ≤ code := by
        rcases Nat.eq_zero_or_pos s with rfl | h
        · omega
        · by_contra hcon
          exact h1 ⟨h.ne', by omega⟩
      obtain ⟨q, rfl⟩ := Nat.exists_eq_add_of_le hle
      refine le_add_iff_lt_middle ht ?_ (by omega)
      by_contra hcon
      exact h1 ⟨fun h => hcon (.inl h), by omega⟩
  · obtain ⟨hmid, hle⟩ := lt_middle_of_le ht htb h2
    exact iff_of_true hle (.inl hmid)

/-- A tie with infinity goes to infinity, the greatest finite code being odd. -/
theorem round_eq_infinity_iff (hx : 0 ≤ x) :
    F.round x = F.infinity ↔ F.middle (F.infinity - 1) ≤ x := by
  have hpos := F.infinity_pos
  have heven := F.two_dvd_infinity
  have hle := F.round_le x
  have hcut := round_le_iff hx (show F.infinity - 1 < F.infinity by omega)
  rw [or_iff_left (by omega)] at hcut
  rw [← not_lt, ← hcut]
  omega

theorem round_eq_of_between (hx : 0 ≤ x) (hc : code ≤ F.infinity)
    (hlow : ∀ k, k + 1 = code → F.middle k < x) (hup : code < F.infinity → x < F.middle code) :
    F.round x = code := by
  apply le_antisymm
  · rcases hc.lt_or_eq with h | rfl
    · exact (round_le_iff hx h).2 (.inl (hup h))
    · exact F.round_le x
  · rcases Nat.eq_zero_or_pos code with rfl | h
    · exact Nat.zero_le _
    · obtain ⟨k, rfl⟩ := Nat.exists_eq_add_one.2 h
      by_contra hcon
      have hk := hlow k rfl
      rcases (round_le_iff hx (by omega)).1 (Nat.lt_succ_iff.1 (not_le.1 hcon)) with h | ⟨h, -⟩ <;>
        linarith

theorem round_magnitude (hc : code ≤ F.infinity) : F.round (F.magnitude code) = code := by
  refine round_eq_of_between (F.magnitude_nonneg code) hc ?_ fun _ => F.magnitude_lt_middle code
  rintro k rfl
  exact F.middle_lt_magnitude k

theorem round_zero : F.round 0 = 0 := by
  rw [← F.magnitude_zero]
  exact round_magnitude (Nat.zero_le _)

theorem pos_of_round (h0 : 0 < code) (hx : 0 ≤ x) (h : F.round x = code) : 0 < x := by
  refine hx.lt_of_ne ?_
  rintro rfl
  rw [round_zero] at h
  omega

theorem round_mono (hx : 0 ≤ x) (hxy : x ≤ y) : F.round x ≤ F.round y := by
  rcases (F.round_le y).lt_or_eq with h | h
  · refine (round_le_iff hx h).2 ?_
    rcases (round_le_iff (hx.trans hxy) h).1 le_rfl with hy | ⟨hy, heven⟩
    · exact .inl (hxy.trans_lt hy)
    · rcases (hxy.trans hy.le).lt_or_eq with hlt | heq
      · exact .inl hlt
      · exact .inr ⟨heq, heven⟩
  · rw [h]
    exact F.round_le x

theorem le_round_of_magnitude_le (hcode : code ≤ F.infinity) (h : F.magnitude code ≤ y) :
    code ≤ F.round y := by
  rw [← round_magnitude hcode]
  exact round_mono (F.magnitude_nonneg code) h

theorem round_le_of_le_magnitude (hy : 0 ≤ y) (hcode : code ≤ F.infinity)
    (h : y ≤ F.magnitude code) : F.round y ≤ code := by
  conv_rhs => rw [← round_magnitude hcode]
  exact round_mono hy h

/-- What lies between a code and a number that is rounded to it is rounded to it too. -/
theorem round_eq_of_mem_uIcc (hcode : code ≤ F.infinity) (hx : 0 ≤ x) (h : F.round x = code)
    (hy : y ∈ Set.uIcc x (F.magnitude code)) : F.round y = code := by
  have hself := round_magnitude hcode
  rcases Set.mem_uIcc.1 hy with ⟨h1, h2⟩ | ⟨h1, h2⟩
  · exact le_antisymm (round_le_of_le_magnitude (hx.trans h1) hcode h2)
      (h.ge.trans (round_mono hx h1))
  · exact le_antisymm ((round_mono ((F.magnitude_nonneg code).trans h1) h2).trans_eq h)
      (le_round_of_magnitude_le hcode h1)

theorem middle_le_of_round (hx : 0 ≤ x) (h : F.round x = code + 1) : F.middle code ≤ x := by
  by_contra hcon
  have hle := F.round_le x
  have := (round_le_iff hx (by omega : code < F.infinity)).2 (.inl (not_le.1 hcon))
  omega

theorem le_middle_of_round (hx : 0 ≤ x) (hc : code < F.infinity) (h : F.round x = code) :
    x ≤ F.middle code := by
  rcases (round_le_iff hx hc).1 h.le with h | ⟨h, -⟩
  · exact h.le
  · exact h.le

variable (F) in
/-- A code that is nearest to a number among those up to infinity, and an even code if another one
is as near. Infinity counts as the number that comes after the finite ones. -/
structure IsNearest (x : ℚ) (code : ℕ) : Prop where
  le_infinity : code ≤ F.infinity
  nearest : ∀ other ≤ F.infinity, |x - F.magnitude code| ≤ |x - F.magnitude other|
  even : ∀ other ≤ F.infinity, other ≠ code →
    |x - F.magnitude code| = |x - F.magnitude other| → code % 2 = 0

theorem middle_le_of_lt_round (hx : 0 ≤ x) {k : ℕ} (h : k + 1 = F.round x) :
    F.middle k ≤ x ∧ (x = F.middle k → F.round x % 2 = 0) := by
  have hle := F.round_le x
  refine ⟨middle_le_of_round hx h.symm, fun heq => ?_⟩
  have hnot := mt (round_le_iff hx (by omega : k < F.infinity)).2 (by omega)
  rw [not_or, not_and] at hnot
  have := hnot.2 heq
  omega

/-- Below the code that a number is rounded to none is nearer, and if one is as near, the code is
even. -/
theorem nearest_below (hx : 0 ≤ x) {other : ℕ} (hlt : other < F.round x) :
    |x - F.magnitude (F.round x)| ≤ |x - F.magnitude other|
      ∧ (|x - F.magnitude (F.round x)| = |x - F.magnitude other| → F.round x % 2 = 0) := by
  obtain ⟨k, hk⟩ : ∃ k, k + 1 = F.round x := ⟨F.round x - 1, by omega⟩
  obtain ⟨hmid, heven⟩ := middle_le_of_lt_round hx hk
  have hother := F.magnitude_strictMono.monotone (show other ≤ k by omega)
  have hnext := F.magnitude_strictMono (Nat.lt_succ_self k)
  rw [← hk] at heven ⊢
  unfold middle at hmid heven
  rw [abs_of_nonneg (show 0 ≤ x - F.magnitude other by linarith)]
  rcases abs_cases (x - F.magnitude (k + 1)) with ⟨habs, -⟩ | ⟨habs, -⟩ <;> rw [habs]
  · exact ⟨by linarith, fun h => by linarith⟩
  · exact ⟨by linarith, fun h => heven (by linarith)⟩

theorem nearest_above (hx : 0 ≤ x) {other : ℕ} (hother : other ≤ F.infinity)
    (hlt : F.round x < other) :
    |x - F.magnitude (F.round x)| ≤ |x - F.magnitude other|
      ∧ (|x - F.magnitude (F.round x)| = |x - F.magnitude other| → F.round x % 2 = 0) := by
  have hcut := (round_le_iff hx (hlt.trans_le hother)).1 le_rfl
  generalize F.round x = code at *
  have hle := F.magnitude_strictMono.monotone hlt
  have hnext := F.magnitude_strictMono (Nat.lt_succ_self code)
  have hmid : x ≤ F.middle code := by
    rcases hcut with h | ⟨h, -⟩
    · exact h.le
    · exact h.le
  have heven : x = F.middle code → code % 2 = 0 := fun heq => by
    rcases hcut with h | ⟨-, h⟩
    · exact absurd heq h.ne
    · exact h
  unfold middle at hmid heven
  rw [abs_of_nonpos (show x - F.magnitude other ≤ 0 by linarith)]
  rcases abs_cases (x - F.magnitude code) with ⟨habs, -⟩ | ⟨habs, -⟩ <;> rw [habs]
  · exact ⟨by linarith, fun h => heven (by linarith)⟩
  · exact ⟨by linarith, fun h => by linarith⟩

theorem isNearest_round (hx : 0 ≤ x) : F.IsNearest x (F.round x) := by
  refine ⟨F.round_le x, fun other hother => ?_, fun other hother hne => ?_⟩
  · rcases lt_trichotomy other (F.round x) with h | rfl | h
    · exact (nearest_below hx h).1
    · exact le_rfl
    · exact (nearest_above hx hother h).1
  · rcases hne.lt_or_gt with h | h
    · exact (nearest_below hx h).2
    · exact (nearest_above hx hother h).2

/-- Two nearest codes are both even, and the one between them would be nearer. -/
theorem IsNearest.not_lt {code' : ℕ} (h : F.IsNearest x code) (h' : F.IsNearest x code') :
    ¬code < code' := by
  intro hlt
  have heq := le_antisymm (h.nearest code' h'.le_infinity) (h'.nearest code h.le_infinity)
  have heven := h.even code' h'.le_infinity hlt.ne' heq
  have heven' := h'.even code h.le_infinity hlt.ne heq.symm
  have hnext := h.nearest (code + 1) (by have := h'.le_infinity; omega)
  have h1 := F.magnitude_strictMono (Nat.lt_succ_self code)
  have h2 := F.magnitude_strictMono (show code + 1 < code' by omega)
  rcases abs_eq_abs.1 heq with hsame | hsame
  · linarith
  · have hcloser : |x - F.magnitude (code + 1)| < |x - F.magnitude code| := by
      rw [abs_of_nonneg (show 0 ≤ x - F.magnitude code by linarith)]
      exact abs_lt.2 ⟨by linarith, by linarith⟩
    linarith

/-- Rounding finds the nearest code. -/
theorem isNearest_iff (hx : 0 ≤ x) : F.IsNearest x code ↔ F.round x = code := by
  refine ⟨fun h => ?_, fun h => h ▸ isNearest_round hx⟩
  have hround := isNearest_round (F := F) hx
  exact le_antisymm (not_lt.1 (h.not_lt hround)) (not_lt.1 (hround.not_lt h))

theorem multiple_add_spacing_le (code : ℕ) :
    F.multiple code + F.spacing code ≤ 2 * F.binade * F.spacing code := by
  obtain ⟨s, q, rfl, hs, hq, hspacing⟩ := F.exists_binade code
  rw [hspacing, F.multiple_add hs hq.le, ← Nat.succ_mul]
  exact Nat.mul_le_mul_right _ hq

theorem binade_mul_spacing_le (h : F.binade ≤ code) :
    F.binade * F.spacing code ≤ F.multiple code := by
  obtain ⟨s, q, rfl, hs, hq, hspacing⟩ := F.exists_binade code
  rw [hspacing, F.multiple_add hs hq.le]
  refine Nat.mul_le_mul_right _ ?_
  rcases hs with rfl | hs
  · omega
  · exact hs

theorem spacing_mono : Monotone F.spacing := fun _ _ h =>
  Nat.pow_le_pow_right Nat.zero_lt_two (Nat.sub_le_sub_right (Nat.div_le_div_right h) 1)

theorem spacing_mul_unit_le_succ (code : ℕ) :
    F.spacing code * F.unit ≤ F.spacing (code + 1) * F.unit :=
  mul_le_mul_of_nonneg_right (Nat.cast_le.2 (spacing_mono (Nat.le_succ code))) F.unit_pos.le

/-- What is closer to a code than half the spacing below it is rounded to it. -/
theorem round_eq_of_abs_sub_lt (hy : 0 ≤ y) (hc : code + 1 ≤ F.infinity)
    (h : |y - F.magnitude (code + 1)| < F.spacing code * F.unit / 2) : F.round y = code + 1 := by
  obtain ⟨h1, h2⟩ := abs_lt.1 h
  have hsucc := F.magnitude_succ code
  refine round_eq_of_between hy hc ?_ fun _ => ?_
  · intro k hk
    obtain rfl := Nat.succ_injective hk
    rw [middle_eq]
    linarith
  · have hmono := spacing_mul_unit_le_succ (F := F) code
    rw [middle_eq]
    linarith

end Binary.Format

end JavaLiteral
