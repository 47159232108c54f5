import JavaLiteral.Proofs.CloseFractions
import JavaLiteral.Proofs.DoubleRounding
import JavaLiteral.Proofs.FloatReading

/-!
# A literal of type `float` is read by one rounding

The digits of a `float` are chosen so that they read back by way of `double`, which is a rounding
more than Java makes. Where that makes a difference, the decimal is close to a middle that it is not
equal to, and no decimal that short is, but for one (`round_eq_of_readsBack`). So the literal of
every value of type `float` is read as the value, except for a single magnitude
(`literal_convert_denotes`).
-/

namespace JavaLiteral

namespace Single

open Binary Binary.Format Decimal CloseFractions Source

variable {code : ℕ} {d : Decimal}

/-- A correctly rounded decimal that reads back by way of `double` is rounded to the code by one
rounding too, but for one code. -/
theorem round_eq_of_readsBack (h0 : 0 < code) (hc : code < single.infinity) {e : ℤ}
    (hd : d = nearest (single.magnitude code) e) (h : readsBack code d)
    (hcode : code ≠ 0x15AE43FE) : single.round d.value = code := by
  by_contra hne
  obtain ⟨k, hk⟩ := exists_crosses h0 hc d.value_nonneg (readsBack_iff_round.1 h) hne
  obtain ⟨s, n, hs, hn, hplace, hstep, -, hmiddle, -⟩ := exists_place hk.finite
  have hhalf := half_pos (single.step_pos s)
  have hgrid := abs_nearest_sub_le (single.magnitude_nonneg code) e
  have hfar := hk.far
  have hexp : d.exp = e := by
    rw [hd]
    rfl
  rw [← hd] at hgrid
  rw [hstep] at hfar
  obtain ⟨D, hvalue⟩ := exists_value_eq_ratio (s := s) (d := d) (by rw [hexp]; linarith)
  have hclose : |D * ratio s - (2 * n + 1 : ℕ)| ≤ (2 * n + 1 : ℕ) / 2 ^ 53 := by
    refine le_of_mul_le_mul_right ?_ hhalf
    rw [← abs_of_pos hhalf, ← abs_mul, sub_mul, abs_of_pos hhalf, ← hvalue, ← hmiddle,
      div_mul_eq_mul_div, ← hmiddle]
    exact abs_sub_middle_le hk.finite d.value_nonneg hk.middle
  rcases close_cases hs (Nat.succ_pos _) (by omega) hclose with hsame | ⟨rfl, -, hexception⟩
  · exact hk.ne (by rw [hvalue, hsame, hmiddle])
  · have hbeside := hk.beside
    have heven := hk.even
    omega

/-- The digits of a `float` before the choice of two digits are rounded to it, or near it where one
rounding misses it. -/
theorem round_firstRounded (h0 : 0 < code) (hc : code < single.infinity) :
    (code ≠ 0x15AE43FE → single.round (firstRounded code).value = code)
      ∧ |(firstRounded code).value - single.magnitude code|
        ≤ single.spacing code * single.unit := by
  unfold firstRounded
  dsimp only
  cases hfind : ((List.range maxDigits).map fun n => nearest (single.magnitude code)
      (gridExponent (single.magnitude code) n)).find? (readsBack code) with
  | none =>
    obtain ⟨k, rfl⟩ := Nat.exists_eq_add_one.2 h0
    have hround := Format.round_nearest (F := single) (n := 8) (by decide +kernel) hc.le
    refine ⟨fun _ => hround, ?_⟩
    refine (Format.abs_sub_le_of_round (value_nonneg _) h0 hc hround).trans ?_
    have := mul_nonneg (Nat.cast_nonneg (α := ℚ) (single.spacing (k + 1)))
      single.unit_pos.le
    linarith
  | some d =>
    have hback : readsBack code d := List.find?_some hfind
    obtain ⟨n, -, hn⟩ := List.mem_map.1 (List.mem_of_find?_eq_some hfind)
    exact ⟨round_eq_of_readsBack h0 hc hn.symm hback, abs_sub_le_of_readsBack h0 hc hback⟩

/-- The code that the literal of a `float` is read as: the one below in a single case. -/
def codeRead (code : ℕ) : ℕ := if code = 0x15AE43FE then 0x15AE43FD else code

/-- Rounding the digits of a `float` once gives the `float` again, with one exception. -/
theorem round_decimal (h0 : 0 < code) (hc : code < single.infinity) :
    single.round (decimal code).value = codeRead code := by
  unfold codeRead
  split_ifs with hcode
  · rw [hcode]
    decide +kernel
  · obtain ⟨hround, hclose⟩ := round_firstRounded h0 hc
    unfold decimal
    rcases preferTwo_eq_or (F := single) (p := -45) (by decide +kernel) (by decide +kernel)
      (by decide +kernel) h0 hclose with h | h
    · rw [h]
      exact hround hcode
    · exact Format.round_eq_of_abs_sub_lt_unit (value_nonneg _) h0 hc.le h

/-- The value that Java gives the literal of a `float`. -/
def read (x : Single) : Single where
  negative := x.negative
  code := codeRead x.code
  code_lt := by
    unfold codeRead
    split_ifs
    · decide +kernel
    · exact x.code_lt

theorem eq_read_iff {x y : Single} :
    y = read x ↔ y.negative = x.negative ∧ y.code = codeRead x.code := Binary.ext_iff

theorem eq_read_self_iff {x : Single} : x = read x ↔ x.code ≠ 0x15AE43FE := by
  rw [eq_read_iff, and_iff_right rfl]
  unfold codeRead
  split_ifs with h
  · exact iff_of_false (by omega) (not_not.2 h)
  · exact iff_of_true rfl h

theorem codeRead_constant {name : Text} {x : Single} (h : constant? single name = some x) :
    codeRead x.code = x.code := by
  unfold constant? at h
  split_ifs at h <;> obtain rfl := Option.some.inj h <;> decide +kernel

theorem codeRead_pos {code : ℕ} (h : 0 < code) : 0 < codeRead code := by
  unfold codeRead
  split_ifs <;> omega

theorem codeRead_lt {code : ℕ} (h : code < single.infinity) : codeRead code < single.infinity := by
  unfold codeRead
  split_ifs <;> omega

theorem literal_eq_written (x : Single) :
    x.literal = x.written floatSyntax (CodePoint.ofChar 'f') decimal := by
  unfold literal written
  cases x.constantName? <;> rfl

theorem exists_literal_denotes (x : Single) (hx : x.isNaN = false) :
    ∃ e, floatExpression? floatSyntax x.literal = some e ∧ ∀ y, e.Denotes y ↔ y = read x := by
  obtain ⟨e, hread, hdenotes⟩ := written_denotes floatSyntax (c := CodePoint.ofChar 'f')
    (by decide) (r := codeRead)
    (fun code h0 hc => ⟨round_decimal h0 hc, codeRead_pos h0, codeRead_lt hc⟩) rfl
    (fun _ _ => codeRead_constant) hx
  rw [literal_eq_written]
  exact ⟨e, hread, fun y => (hdenotes y).trans eq_read_iff.symm⟩

/-- Java reads the literal of a `double` that is rounded to `float` as the rounded value if and only
if that is not one of the two values of a single magnitude, which it reads as the magnitude below
with the same sign. -/
theorem literal_convert_denotes (x : Double) (hx : x.isNaN = false) :
    ∃ e, floatExpression? floatSyntax (literal (x.convert single)) = some e
      ∧ (∀ y, e.Denotes y ↔ y = read (x.convert single))
      ∧ (e.Denotes (x.convert single) ↔ (x.convert single).code ≠ 0x15AE43FE) := by
  obtain ⟨e, hread, hdenotes⟩ := exists_literal_denotes _ (isNaN_convert hx)
  exact ⟨e, hread, hdenotes, (hdenotes _).trans eq_read_self_iff⟩

/-- The value that is read as another one. -/
def misread : Double := ofBits double 0x3AB5C87FC0000000

theorem literal_convert_denotes_misread :
    misread.isNaN = false
      ∧ ∃ e, floatExpression? floatSyntax (literal (misread.convert single)) = some e
        ∧ (∀ y, e.Denotes y ↔ y = read (misread.convert single))
        ∧ (e.Denotes (misread.convert single)
          ↔ (misread.convert single).code ≠ 0x15AE43FE) :=
  ⟨by decide +kernel, literal_convert_denotes misread (by decide +kernel)⟩

/-- What is written for it is no literal of its `float`. -/
theorem not_denotes_misread :
    misread.isNaN = false
      ∧ ¬∃ e, floatExpression? floatSyntax (literal (misread.convert single)) = some e
        ∧ e.Denotes (misread.convert single) := by
  have hnan : misread.isNaN = false := by decide +kernel
  have hcode : (misread.convert single).code = 0x15AE43FE := by decide +kernel
  refine ⟨hnan, ?_⟩
  rintro ⟨e, hread, hdenotes⟩
  obtain ⟨e', hread', hdenotes'⟩ := exists_literal_denotes _ (isNaN_convert hnan)
  obtain rfl : e = e' := Option.some.inj (hread.symm.trans hread')
  exact eq_read_self_iff.1 ((hdenotes' _).1 hdenotes) hcode

end Single

end JavaLiteral
