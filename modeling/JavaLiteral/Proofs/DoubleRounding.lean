import JavaLiteral.Proofs.Conversion
import JavaLiteral.Proofs.ReadBack

/-!
# Rounding to `float` by way of `double`

The magnitudes of type `float` and the middles between them are of type `double`
(`exists_magnitude_eq`, `exists_magnitude_eq_middle`), so a number that is rounded to `double` first
does not pass any of them (`throughDouble_le`, `le_throughDouble`). One rounding and two differ only
where the first of the two goes to a middle, which the number then is as close to as a `double` can
tell (`exists_crosses`, `abs_sub_middle_le`).
-/

namespace JavaLiteral

namespace Binary.Format

variable {F : Format}

/-- The multiples that fit into two binades are multiples of codes, in every binade. -/
theorem exists_multiple_eq {n : ℕ} (s : ℕ) (hn : n ≤ 2 * F.binade) :
    ∃ code, F.multiple code = n * 2 ^ s := by
  induction s generalizing n with
  | zero =>
    refine ⟨0 * F.binade + n, ?_⟩
    exact F.multiple_add (.inl rfl) hn
  | succ s ih =>
    rcases Nat.lt_or_ge n F.binade with h | h
    · obtain ⟨code, hcode⟩ := ih (n := 2 * n) (by omega)
      exact ⟨code, by rw [hcode, pow_succ]; ring⟩
    · exact ⟨(s + 1) * F.binade + n, F.multiple_add (.inr h) hn⟩

end Binary.Format

namespace Single

open Binary Binary.Format Decimal

/-- The magnitudes of type `float` and the middles between them are halves of the step of a
binade. -/
theorem exists_magnitude_eq_half {n s : ℕ} (hn : n ≤ 2 ^ 25) (hs : s < 254) :
    ∃ j ≤ double.infinity, double.magnitude j = n * (single.step s / 2) := by
  obtain ⟨k, hunit⟩ : ∃ k : ℕ, single.unit / 2 = 2 ^ k * double.unit :=
    ⟨924, by decide +kernel⟩
  obtain ⟨j, hj⟩ := double.exists_multiple_eq (s + k)
    (hn.trans (by decide +kernel : 2 ^ 25 ≤ 2 * double.binade))
  have hvalue : double.magnitude j = n * (single.step s / 2) := by
    rw [Format.magnitude, hj, Format.step, mul_div_assoc, hunit]
    push_cast
    ring
  refine ⟨j, ?_, hvalue⟩
  rw [← double.magnitude_strictMono.le_iff_le, hvalue]
  have hlarge : 2 ^ 25 * (single.step 253 / 2) ≤ double.magnitude double.infinity := by
    decide +kernel
  have hstep : single.step s / 2 ≤ single.step 253 / 2 := by
    unfold Format.step
    refine div_le_div_of_nonneg_right ?_ two_pos.le
    refine mul_le_mul_of_nonneg_right ?_ single.unit_pos.le
    exact pow_le_pow_right₀ (by norm_num) (by omega)
  have hn' : (n : ℚ) ≤ 2 ^ 25 := by exact_mod_cast hn
  calc (n : ℚ) * (single.step s / 2) ≤ 2 ^ 25 * (single.step s / 2) :=
        mul_le_mul_of_nonneg_right hn' (half_pos (single.step_pos s)).le
    _ ≤ 2 ^ 25 * (single.step 253 / 2) := mul_le_mul_of_nonneg_left hstep (by norm_num)
    _ ≤ _ := hlarge

/-- Where a code of type `float` is in its binade. -/
theorem exists_place {code : ℕ} (h : code < single.infinity) :
    ∃ s n, s < 254 ∧ n < 2 ^ 24 ∧ code = s * 2 ^ 23 + n
      ∧ single.spacing code * single.unit = single.step s
      ∧ single.magnitude code = (2 * n : ℕ) * (single.step s / 2)
      ∧ single.middle code = (2 * n + 1 : ℕ) * (single.step s / 2)
      ∧ single.magnitude (code + 1) = (2 * n + 2 : ℕ) * (single.step s / 2) := by
  have hinf : single.infinity = 255 * 2 ^ 23 := by decide +kernel
  have hbinade : single.binade = 2 ^ 23 := by decide +kernel
  obtain ⟨s, n, rfl, hs, hn, hspacing⟩ := single.exists_binade code
  have hstep : single.spacing (s * single.binade + n) * single.unit
      = single.step s := by
    rw [hspacing, step, Nat.cast_pow, Nat.cast_ofNat]
  have hmagnitude : single.magnitude (s * single.binade + n)
      = (2 * n : ℕ) * (single.step s / 2) := by
    rw [Format.magnitude, single.multiple_add hs hn.le, step]
    push_cast
    ring
  have hnext : single.magnitude (s * single.binade + n + 1)
      = (2 * n + 2 : ℕ) * (single.step s / 2) := by
    rw [Format.magnitude_succ, hstep, hmagnitude]
    push_cast
    ring
  rw [hbinade] at h hn
  refine ⟨s, n, by omega, by omega, by rw [hbinade], hstep, hmagnitude, ?_, hnext⟩
  rw [Format.middle, hmagnitude, hnext]
  push_cast
  ring

theorem exists_magnitude_eq_middle {code : ℕ} (h : code < single.infinity) :
    ∃ j ≤ double.infinity, double.magnitude j = single.middle code := by
  obtain ⟨s, n, hs, hn, -, -, -, hmiddle, -⟩ := exists_place h
  rw [hmiddle]
  exact exists_magnitude_eq_half (by omega) hs

theorem exists_magnitude_eq {code : ℕ} (h : code < single.infinity) :
    ∃ j ≤ double.infinity, double.magnitude j = single.magnitude code := by
  obtain ⟨s, n, hs, hn, -, -, hmagnitude, -⟩ := exists_place h
  rw [hmagnitude]
  exact exists_magnitude_eq_half (by omega) hs

theorem exists_magnitude_eq_succ {code : ℕ} (h : code < single.infinity) :
    ∃ j ≤ double.infinity,
      double.magnitude j = single.magnitude (code + 1) := by
  obtain ⟨s, n, hs, hn, -, -, -, -, hnext⟩ := exists_place h
  rw [hnext]
  exact exists_magnitude_eq_half (by omega) hs

/-- The number of type `double` that a decimal is read as first. -/
def throughDouble (x : ℚ) : ℚ := double.magnitude (double.round x)

variable {code : ℕ} {d : Decimal} {x : ℚ}

theorem code_convert_ofMagnitude (x : ℚ) :
    ((ofMagnitude false x : Double).convert single).code = single.round (throughDouble x) := by
  rcases isFinite_or_eq_infinite (isNaN_ofMagnitude false x) with h | h | h
  · rw [convert_of_isFinite h]
    rfl
  · exact absurd (congrArg negative h) Bool.false_ne_true
  · have hround : double.round x = double.infinity := congrArg code h
    have hinfinite : single.round (double.magnitude double.infinity) = single.infinity := by
      decide +kernel
    rw [h, convert_infinite, throughDouble, hround, hinfinite]
    rfl

theorem readsBack_iff_round : readsBack code d ↔ single.round (throughDouble d.value) = code := by
  rw [readsBack, decide_eq_true_iff, code_convert_ofMagnitude]

theorem throughDouble_le {j : ℕ} (hx : 0 ≤ x) (hj : j ≤ double.infinity)
    (h : x ≤ double.magnitude j) : throughDouble x ≤ double.magnitude j :=
  double.magnitude_strictMono.monotone (Format.round_le_of_le_magnitude hx hj h)

theorem le_throughDouble {j : ℕ} (hj : j ≤ double.infinity)
    (h : double.magnitude j ≤ x) : double.magnitude j ≤ throughDouble x :=
  double.magnitude_strictMono.monotone (Format.le_round_of_magnitude_le hj h)

/-- Two roundings go no further than to a neighbour. -/
theorem abs_sub_le_of_readsBack (h0 : 0 < code) (hc : code < single.infinity)
    (h : readsBack code d) :
    |d.value - single.magnitude code|
      ≤ single.spacing code * single.unit := by
  have hround := readsBack_iff_round.1 h
  have hy : 0 ≤ throughDouble d.value := double.magnitude_nonneg _
  obtain ⟨k, rfl⟩ := Nat.exists_eq_add_one.2 h0
  have hlow := Format.middle_le_of_round hy hround
  have hup := Format.le_middle_of_round hy hc hround
  have hmono := Format.spacing_mul_unit_le_succ (F := single) k
  have hsucc := single.magnitude_succ k
  have hsucc' := single.magnitude_succ (k + 1)
  have hleft : single.magnitude k ≤ d.value := by
    by_contra hcon
    obtain ⟨j, hj, hmag⟩ := exists_magnitude_eq (by omega : k < single.infinity)
    have hle := throughDouble_le d.value_nonneg hj (by rw [hmag]; exact (not_le.1 hcon).le)
    rw [hmag] at hle
    linarith [single.magnitude_lt_middle k]
  have hright : d.value ≤ single.magnitude (k + 1 + 1) := by
    by_contra hcon
    obtain ⟨j, hj, hmag⟩ := exists_magnitude_eq_succ hc
    have hle := le_throughDouble (x := d.value) hj (by rw [hmag]; exact (not_le.1 hcon).le)
    rw [hmag] at hle
    linarith [single.middle_lt_magnitude (k + 1)]
  exact abs_le.2 ⟨by linarith, by linarith⟩

/-- A number that two roundings put on the other side of a middle beside a code than one rounding
does. The first of the two goes to the middle itself. -/
structure Crosses (x : ℚ) (k code : ℕ) : Prop where
  beside : code = k ∨ code = k + 1
  even : code % 2 = 0
  finite : k < single.infinity
  middle : throughDouble x = single.middle k
  ne : x ≠ single.middle k
  far : single.spacing k * single.unit / 2 < |x - single.magnitude code|

theorem crosses_of_round_lt {k : ℕ} (hk : k + 1 < single.infinity) (hx : 0 ≤ x)
    (h : single.round (throughDouble x) = k + 1) (hlt : single.round x < k + 1) :
    Crosses x k (k + 1) := by
  have hy : 0 ≤ throughDouble x := double.magnitude_nonneg _
  have hk' : k < single.infinity := by omega
  have hle := (Format.round_le_iff hx hk').1 (Nat.lt_succ_iff.1 hlt)
  have hnot := mt (Format.round_le_iff hy hk').2 (by omega)
  rw [not_or, not_lt, not_and] at hnot
  have hxle : x ≤ single.middle k := hle.elim LT.lt.le fun h => h.1.le
  obtain ⟨j, hj, hmag⟩ := exists_magnitude_eq_middle hk'
  have heq : throughDouble x = single.middle k := by
    refine le_antisymm ?_ hnot.1
    rw [← hmag] at hxle ⊢
    exact throughDouble_le hx hj hxle
  have hodd := hnot.2 heq
  have hne : x ≠ single.middle k := fun hx => by
    rcases hle with h | ⟨-, h⟩
    · exact h.ne hx
    · exact hodd h
  refine ⟨.inr rfl, by omega, hk', heq, hne, ?_⟩
  have hxlt := hxle.lt_of_ne hne
  have hnext := single.magnitude_strictMono (Nat.lt_succ_self k)
  have hsucc := single.magnitude_succ k
  rw [Format.middle_eq] at hxlt
  rw [abs_of_nonpos (by linarith)]
  linarith

theorem crosses_of_lt_round (hc : code < single.infinity) (hx : 0 ≤ x)
    (h : single.round (throughDouble x) = code) (hgt : code < single.round x) :
    Crosses x code code := by
  have hy : 0 ≤ throughDouble x := double.magnitude_nonneg _
  have hle := (Format.round_le_iff hy hc).1 h.le
  have hnot := mt (Format.round_le_iff hx hc).2 (not_le.2 hgt)
  rw [not_or, not_lt, not_and] at hnot
  obtain ⟨j, hj, hmag⟩ := exists_magnitude_eq_middle hc
  have hge : single.middle code ≤ throughDouble x := by
    rw [← hmag]
    exact le_throughDouble hj (by rw [hmag]; exact hnot.1)
  have heven : code % 2 = 0 := by
    rcases hle with h | ⟨-, h⟩
    · exact absurd h (not_lt.2 hge)
    · exact h
  have hne : x ≠ single.middle code := fun h => hnot.2 h heven
  refine ⟨.inl rfl, heven, hc, le_antisymm (hle.elim LT.lt.le fun h => h.1.le) hge, hne, ?_⟩
  have hxlt := hnot.1.lt_of_ne' hne
  have hmiddle := single.magnitude_lt_middle code
  rw [Format.middle_eq] at hxlt hmiddle
  rw [abs_of_nonneg (by linarith)]
  linarith

/-- Where one rounding and two differ, a middle is crossed. -/
theorem exists_crosses (h0 : 0 < code) (hc : code < single.infinity) (hx : 0 ≤ x)
    (h : single.round (throughDouble x) = code) (hne : single.round x ≠ code) :
    ∃ k, Crosses x k code := by
  rcases hne.lt_or_gt with hlt | hgt
  · obtain ⟨k, rfl⟩ := Nat.exists_eq_add_one.2 h0
    exact ⟨k, crosses_of_round_lt hc hx h hlt⟩
  · exact ⟨code, crosses_of_lt_round hc hx h hgt⟩

/-- What is read as a middle by way of `double` is as close to it as a `double` can tell. -/
theorem abs_sub_middle_le {k : ℕ} (hk : k < single.infinity) (hx : 0 ≤ x)
    (h : throughDouble x = single.middle k) :
    |x - single.middle k| ≤ single.middle k / 2 ^ 53 := by
  obtain ⟨j', hj', hnext⟩ := exists_magnitude_eq_succ hk
  obtain ⟨j, hj, hmag⟩ := exists_magnitude_eq_middle hk
  have hround : double.round x = j :=
    double.magnitude_strictMono.injective (h.trans hmag.symm)
  have hlt : j < double.infinity := by
    refine lt_of_lt_of_le ?_ hj'
    rw [← double.magnitude_strictMono.lt_iff_lt, hmag, hnext]
    exact single.middle_lt_magnitude k
  have hmiddle : single.unit / 2 ≤ single.middle k := by
    have hspacing := Format.unit_le_spacing_mul_unit (F := single) k
    rw [Format.middle_eq]
    linarith [single.magnitude_nonneg k]
  have hbinade : double.binade ≤ j := by
    rw [← double.magnitude_strictMono.le_iff_le, hmag]
    refine le_trans ?_ hmiddle
    decide +kernel
  have hclose := Format.abs_sub_le_of_round hx (double.binade_pos.trans_le hbinade) hlt hround
  have hspacing := Format.binade_mul_spacing_le_magnitude hbinade
  rw [show double.binade = 2 ^ 52 from rfl] at hspacing
  rw [hmag] at hclose hspacing
  push_cast at hspacing
  linarith

end Single

end JavaLiteral
