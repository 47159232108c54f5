import JavaLiteral.Proofs.SingleReading

/-!
# The two forms of a finite value

Digits without a zero at either end are written in plain notation with no needless zero
(`isPlainForm_plain`), and in scientific notation with one digit before the point
(`isScientificForm_scientific`). The magnitude of a value decides which of the two is taken, while
the point is put where the digits say. They never disagree: both bounds of plain notation are powers
of ten, rounding is monotone, and the digits of what a bound is rounded to are not below the bound
(`le_value_iff`). So the texts of all finite values have the form that their magnitude calls for
(`text_hasForm`).
-/

namespace JavaLiteral

open Source

namespace Digits

/-- The digits of a whole number: a zero in front is the only digit. -/
structure IsWhole (ws : List ℕ) : Prop where
  ne_nil : ws ≠ []
  lt_ten : ∀ d ∈ ws, d < 10
  eq_zero : ws.head? = some 0 → ws = [0]

/-- The digits after a point: a zero at the end is the only digit. -/
structure IsFraction (fs : List ℕ) : Prop where
  ne_nil : fs ≠ []
  lt_ten : ∀ d ∈ fs, d < 10
  eq_zero : fs.getLast? = some 0 → fs = [0]

/-- An integer in plain decimal, with a minus sign if it is negative. -/
def IsInteger (n : ℤ) (t : Text) : Prop :=
  ∃ ws, IsWhole ws ∧ value 10 ws = n.natAbs
    ∧ t = (if n < 0 then Text.ofString "-" else []) ++ text ws

/-- Plain notation: a whole number, a point and a fraction. -/
def IsPlainForm (t : Text) : Prop :=
  ∃ ws fs, IsWhole ws ∧ IsFraction fs ∧ t = text ws ++ CodePoint.ofChar '.' :: text fs

/-- Scientific notation: a digit other than zero, a point, a fraction and an exponent. -/
def IsScientificForm (n : ℤ) (t : Text) : Prop :=
  ∃ w fs e, 1 ≤ w ∧ w ≤ 9 ∧ IsFraction fs ∧ IsInteger n e
    ∧ t = text [w] ++ CodePoint.ofChar '.' :: text fs ++ CodePoint.ofChar 'E' :: e

theorem isWhole_digitsOf (n : ℕ) : IsWhole (digitsOf 10 n) where
  ne_nil := digitsOf_ne_nil 10 n
  lt_ten _ := lt_of_mem_digitsOf (by decide)
  eq_zero h := by
    obtain ⟨ds, hds⟩ := List.head?_eq_some_iff.1 h
    have hlen := digitsOf_head h
    rw [hds, List.length_cons] at hlen
    obtain rfl : ds = [] := List.length_eq_zero_iff.1 (by omega)
    exact hds

theorem isInteger_ofInt (n : ℤ) : IsInteger n (Text.ofInt n) := by
  refine ⟨digitsOf 10 n.natAbs, isWhole_digitsOf _, value_digitsOf 10 _, ?_⟩
  unfold Text.ofInt
  rw [numeral_eq (by decide)]
  split_ifs <;> rfl

theorem ofChar_digitChar_ne : ∀ d < 10, CodePoint.ofChar d.digitChar ≠ 'E' := by decide

theorem not_mem_text {ds : List ℕ} (h : ∀ d ∈ ds, d < 10) : CodePoint.ofChar 'E' ∉ text ds := by
  intro hmem
  obtain ⟨d, hd, heq⟩ := List.mem_map.1 hmem
  exact ofChar_digitChar_ne d (h d hd) heq

/-- No text is in both notations. -/
theorem IsPlainForm.not_isScientificForm {t : Text} {n : ℤ} (h : IsPlainForm t) :
    ¬IsScientificForm n t := by
  obtain ⟨ws, fs, hws, hfs, rfl⟩ := h
  rintro ⟨w, gs, e, -, -, -, -, heq⟩
  have hmem : CodePoint.ofChar 'E' ∈ text ws ++ CodePoint.ofChar '.' :: text fs := by
    rw [heq]
    simp
  rcases List.mem_append.1 hmem with hmem | hmem
  · exact not_mem_text hws.lt_ten hmem
  · rcases List.mem_cons.1 hmem with hmem | hmem
    · exact absurd hmem (by decide)
    · exact not_mem_text hfs.lt_ten hmem

/-- Digits with no zero at either end. -/
structure IsTrimmed (ds : List ℕ) : Prop where
  ne_nil : ds ≠ []
  lt_ten : ∀ d ∈ ds, d < 10
  head?_ne : ds.head? ≠ some 0
  getLast?_ne : ds.getLast? ≠ some 0

end Digits

namespace Decimal

open Digits

section Notations

variable {ds : List ℕ}

theorem isTrimmed_significant {d : Decimal} (hd : 0 < d.value) :
    IsTrimmed (significant d.coeff) where
  ne_nil := significant_ne_nil hd
  lt_ten _ := lt_of_mem_significant
  head?_ne := head?_significant _
  getLast?_ne := getLast?_significant _

theorem isFraction_fractionDigits (hds : IsTrimmed ds) (k : ℕ) :
    IsFraction (fractionDigits (ds.drop k)) := by
  unfold fractionDigits
  split_ifs with h
  · exact ⟨by simp, by decide, fun _ => rfl⟩
  · refine ⟨h, fun d hd => hds.lt_ten d (List.mem_of_mem_drop hd), fun hlast => ?_⟩
    rw [List.getLast?_drop, if_neg (by simpa using h)] at hlast
    exact absurd hlast hds.getLast?_ne

theorem isPlainForm_plain (hds : IsTrimmed ds) (l : ℤ) :
    IsPlainForm ((plain (ds.map Nat.digitChar) l).map CodePoint.ofChar) := by
  rcases Int.lt_or_le l 0 with hl | hl
  · refine ⟨[0], _, ⟨by simp, by decide, fun _ => rfl⟩, ⟨?_, ?_, ?_⟩, map_plain_of_neg ds hl⟩
    · simp [hds.ne_nil]
    · exact List.forall_mem_append.2 ⟨fun d => lt_of_mem_zeros, hds.lt_ten⟩
    · intro hlast
      rw [List.getLast?_append_of_ne_nil _ hds.ne_nil] at hlast
      exact absurd hlast hds.getLast?_ne
  · obtain ⟨m, rfl⟩ := Int.eq_ofNat_of_zero_le hl
    refine ⟨_, _, ⟨?_, ?_, ?_⟩, isFraction_fractionDigits hds _, map_plain_natCast ds m⟩
    · simp [hds.ne_nil]
    · exact List.forall_mem_append.2
        ⟨fun d hd => hds.lt_ten d (List.mem_of_mem_take hd), fun d => lt_of_mem_zeros⟩
    · intro hhead
      rw [List.head?_append_of_ne_nil _ (by simp [hds.ne_nil]), List.head?_take] at hhead
      exact absurd hhead (by simpa using hds.head?_ne)

theorem isScientificForm_scientific (hds : IsTrimmed ds) (l : ℤ) :
    IsScientificForm l (scientific (ds.map Nat.digitChar) l) := by
  obtain ⟨w, fs, rfl⟩ := List.exists_cons_of_ne_nil hds.ne_nil
  have hlt : w < 10 := hds.lt_ten w List.mem_cons_self
  have hne : w ≠ 0 := by
    rintro rfl
    exact hds.head?_ne rfl
  refine ⟨w, _, _, by omega, by omega, isFraction_fractionDigits hds 1, isInteger_ofInt l, ?_⟩
  rw [scientific, map_scientific, List.append_assoc]
  rfl

end Notations

section Leading

variable {d : Decimal} {x : ℚ}

/-- The leading digit is the highest power of ten that a decimal reaches. -/
theorem zpow_le_value_iff (hd : 0 < d.value) (n : ℤ) : (10 : ℚ) ^ n ≤ d.value ↔ n ≤ d.leading := by
  have hp : (0 : ℚ) < (10 : ℚ) ^ d.exp := zpow_pos (by norm_num) _
  have hcoeff : 0 < d.coeff := Nat.cast_pos.1 (pos_of_mul_pos_left hd hp.le)
  have hdigits := digitCount_pos d.coeff
  unfold leading
  constructor
  · intro h
    by_contra hlt
    have hup : (d.coeff : ℚ) < 10 ^ digitCount d.coeff := by
      exact_mod_cast lt_pow_digitCount d.coeff
    refine absurd h (not_le.2 ?_)
    calc d.value < 10 ^ digitCount d.coeff * (10 : ℚ) ^ d.exp := mul_lt_mul_of_pos_right hup hp
      _ = (10 : ℚ) ^ (digitCount d.coeff + d.exp : ℤ) := by
          rw [zpow_add₀ (by norm_num), zpow_natCast]
      _ ≤ (10 : ℚ) ^ n := zpow_le_zpow_right₀ (by norm_num) (by omega)
  · intro h
    have hlow : ((10 ^ (digitCount d.coeff - 1) : ℕ) : ℚ) ≤ d.coeff :=
      Nat.cast_le.2 (pow_digitCount_le hcoeff)
    calc (10 : ℚ) ^ n ≤ (10 : ℚ) ^ ((digitCount d.coeff : ℤ) - 1 + d.exp) :=
          zpow_le_zpow_right₀ (by norm_num) (by omega)
      _ = (10 ^ (digitCount d.coeff - 1) : ℕ) * (10 : ℚ) ^ d.exp := by
          rw [zpow_add₀ (by norm_num), zpow_natCast_digitCount_sub_one]
      _ ≤ d.value := mul_le_mul_of_nonneg_right hlow hp.le

theorem isPlain_iff : isPlain x ↔ 1 / 1000 ≤ x ∧ x < 10 ^ 7 := by
  have hten : (10 : ℚ) ^ 7 = 10000000 := by norm_num
  rw [hten]
  simp [isPlain]

end Leading

/-- The exponents of the powers of ten that bound plain notation. -/
def boundExponents : List ℤ := [-3, 7]

/-- The digits of a decimal put the point where a magnitude calls for it: the leading digit is in
the range of plain notation if and only if the magnitude is. -/
structure AgreesWith (d : Decimal) (x : ℚ) : Prop where
  pos : 0 < d.value
  leading_iff : -3 ≤ d.leading ∧ d.leading ≤ 6 ↔ 1 / 1000 ≤ x ∧ x < 10 ^ 7

/-- It is enough that a decimal and a magnitude lie on the same side of both bounds. -/
theorem agreesWith_of_bounds {d : Decimal} {x : ℚ} (hd : 0 < d.value)
    (hbounds : ∀ n ∈ boundExponents, (10 : ℚ) ^ n ≤ d.value ↔ (10 : ℚ) ^ n ≤ x) :
    d.AgreesWith x := by
  refine ⟨hd, ?_⟩
  have hlow := hbounds (-3) (by decide)
  have hhigh := hbounds 7 (by decide)
  have hthousandth : (10 : ℚ) ^ (-3 : ℤ) = 1 / 1000 := by norm_num
  have hsix : d.leading ≤ 6 ↔ ¬7 ≤ d.leading := by omega
  rw [zpow_le_value_iff hd] at hlow hhigh
  rw [hsix, hlow, hhigh, hthousandth, not_le]
  norm_cast

/-- The text of the magnitude `x` with the digits of `d`: its form, where the point of its digits
stands, and what it denotes. -/
structure IsFormOf (x : ℚ) (d : Decimal) (t : Text) : Prop where
  plain_iff : IsPlainForm t ↔ 1 / 1000 ≤ x ∧ x < 10 ^ 7
  scientific_iff : IsScientificForm d.leading t ↔ ¬(1 / 1000 ≤ x ∧ x < 10 ^ 7)
  leading_iff : -3 ≤ d.leading ∧ d.leading ≤ 6 ↔ IsPlainForm t
  denotes : ∃ ds : List ℕ, (∀ e ∈ ds, e < 10) ∧ d.digits = ds.map Nat.digitChar
    ∧ ∃ d', decimalLiteral? t = some d'
      ∧ d'.value = Digits.value 10 ds * (10 : ℚ) ^ (d.leading + 1 - ds.length)

section Text

variable {d : Decimal} {x : ℚ}

theorem isPlainForm_text (hd : 0 < d.value) (hx : isPlain x) : IsPlainForm (d.text x) := by
  rw [text, if_pos hx, d.digits_eq]
  exact isPlainForm_plain (isTrimmed_significant hd) d.leading

theorem isScientificForm_text (hd : 0 < d.value) (hx : ¬isPlain x) :
    IsScientificForm d.leading (d.text x) := by
  rw [text, if_neg hx, d.digits_eq]
  exact isScientificForm_scientific (isTrimmed_significant hd) d.leading

theorem isFormOf_text (h : d.AgreesWith x) : IsFormOf x d (d.text x) := by
  obtain ⟨hd, hlead⟩ := h
  have hplain : IsPlainForm (d.text x) ↔ 1 / 1000 ≤ x ∧ x < 10 ^ 7 := by
    rw [← isPlain_iff]
    refine ⟨fun h => ?_, isPlainForm_text hd⟩
    by_contra hx
    exact h.not_isScientificForm (isScientificForm_text hd hx)
  have hscientific : IsScientificForm d.leading (d.text x) ↔ ¬(1 / 1000 ≤ x ∧ x < 10 ^ 7) := by
    rw [← hplain]
    refine ⟨fun h hx => hx.not_isScientificForm h, fun h => isScientificForm_text hd ?_⟩
    exact mt (isPlainForm_text hd) h
  obtain ⟨d', hread, hvalue, -⟩ := exists_decimalLiteral?_text x hd
  rw [d.value_eq] at hvalue
  exact ⟨hplain, hscientific, hlead.trans hplain.symm, significant d.coeff,
    fun _ => lt_of_mem_significant, d.digits_eq, d', hread, hvalue⟩

end Text

end Decimal

namespace Binary

open Decimal

namespace Format

variable {F : Format} {decimal : ℕ → Decimal} {code : ℕ} {b : ℚ}

/-- The digits of a value are on the same side of a number as the value, if what the number is
rounded to and its digits are not below it. -/
theorem le_value_iff (hb : 0 ≤ b) (hmagnitude : b ≤ F.magnitude (F.round b))
    (hvalue : b ≤ (decimal (F.round b)).value) (hc : code ≤ F.infinity)
    (hround : F.round (decimal code).value = code) :
    b ≤ (decimal code).value ↔ b ≤ F.magnitude code := by
  constructor
  · intro h
    have hle : F.round b ≤ code := hround ▸ round_mono hb h
    exact hmagnitude.trans (F.magnitude_strictMono.monotone hle)
  · intro h
    have hle : F.round b ≤ code := (round_mono hb h).trans_eq (round_magnitude hc)
    rcases hle.lt_or_eq with hlt | heq
    · by_contra hcon
      have hge : code ≤ F.round b := hround ▸ round_mono (value_nonneg _) (not_le.1 hcon).le
      omega
    · rwa [heq] at hvalue

/-- Both bounds of plain notation are rounded to values that are not below them, and neither are the
digits of those. So digits that read back agree with the magnitude that they stand for. -/
theorem agreesWith_of_round
    (hbounds : ∀ n ∈ boundExponents, (10 : ℚ) ^ n ≤ F.magnitude (F.round (10 ^ n))
      ∧ (10 : ℚ) ^ n ≤ (decimal (F.round (10 ^ n))).value)
    (h0 : 0 < code) (hc : code < F.infinity) (hround : F.round (decimal code).value = code) :
    (decimal code).AgreesWith (F.magnitude code) := by
  refine agreesWith_of_bounds (pos_of_round h0 (value_nonneg _) hround) fun n hn => ?_
  obtain ⟨hmagnitude, hvalue⟩ := hbounds n hn
  exact le_value_iff (zpow_nonneg (by norm_num) n) hmagnitude hvalue hc.le hround

end Format

variable {F : Format}

/-- The text of a value and of the opposite value differ in their signs only, and the rest of it has
the form that the magnitude calls for. -/
def HasForm (text? : Binary F → Option Text) (decimal : ℕ → Decimal) (x : Binary F) : Prop :=
  ∃ t, text? x = some ((if x.negative then Text.ofString "-" else []) ++ t)
    ∧ text? x.neg = some ((if x.negative then [] else Text.ofString "-") ++ t)
    ∧ (x.isZero → t = Text.ofString "0.0")
    ∧ (x.isZero = false → IsFormOf x.magnitude (decimal x.code) t)

theorem hasForm_of_agreesWith {decimal : ℕ → Decimal} {text? : Binary F → Option Text}
    {x : Binary F} (htext : ∀ y : Binary F, y.isFinite → text? y = some (y.finiteText decimal))
    (hagrees : 0 < x.code → (decimal x.code).AgreesWith x.magnitude) (hx : x.isFinite) :
    HasForm text? decimal x := by
  have hneg : x.neg.isFinite := hx
  refine ⟨if x.isZero then Text.ofString "0.0" else (decimal x.code).text x.magnitude,
    htext x hx, ?_, fun h => if_pos h, fun h => ?_⟩
  · rw [htext _ hneg]
    unfold finiteText neg
    cases x.negative <;> rfl
  · rw [if_neg (by simp [h])]
    exact isFormOf_text (hagrees (Nat.pos_of_ne_zero (of_decide_eq_false h)))

end Binary

open Binary

theorem Double.decimal_agreesWith {code : ℕ} (h0 : 0 < code) (hc : code < Format.double.infinity) :
    (Double.decimal code).AgreesWith (Format.double.magnitude code) :=
  Format.agreesWith_of_round (by decide +kernel) h0 hc (Double.round_decimal h0 hc)

theorem Single.decimal_agreesWith {code : ℕ} (h0 : 0 < code) (hc : code < Format.single.infinity) :
    (Single.decimal code).AgreesWith (Format.single.magnitude code) := by
  have hround := Single.round_decimal h0 hc
  unfold Single.codeRead at hround
  split_ifs at hround with hcode
  · -- The digits of this one are not rounded to it, but it is far from both bounds.
    rw [hcode]
    exact Decimal.agreesWith_of_bounds (by decide +kernel) (by decide +kernel)
  · exact Format.agreesWith_of_round (by decide +kernel) h0 hc hround

/-- The texts of all finite values have the form that the magnitude calls for. -/
theorem Binary.text_hasForm :
    (∀ x : Double, x.isFinite → HasForm Double.text? Double.decimal x)
      ∧ ∀ x : Single, x.isFinite → HasForm Single.text? Single.decimal x := by
  constructor
  · intro x hx
    exact hasForm_of_agreesWith (fun y hy => if_pos hy)
      (fun h0 => Double.decimal_agreesWith h0 (of_decide_eq_true hx)) hx
  · intro x hx
    exact hasForm_of_agreesWith (fun y hy => if_pos hy)
      (fun h0 => Single.decimal_agreesWith h0 (of_decide_eq_true hx)) hx

/-- The greatest `double` below a thousandth, with a minus sign. -/
def Double.belowThousandth : Double := ofBits Format.double 0xBF50624DD2F1A9FB

/-- The least `float` that is too great for plain notation. -/
def Single.tenMillion : Single := ofBits Format.single 0x4B189680

theorem Binary.text_hasForm_pastBounds :
    Double.belowThousandth.isFinite ∧ Single.tenMillion.isFinite
      ∧ HasForm Double.text? Double.decimal Double.belowThousandth
      ∧ HasForm Single.text? Single.decimal Single.tenMillion :=
  ⟨by decide +kernel, by decide +kernel, text_hasForm.1 _ (by decide +kernel),
    text_hasForm.2 _ (by decide +kernel)⟩

example : Double.belowThousandth.text? = some (Text.ofString "-9.999999999999998E-4")
    ∧ Single.tenMillion.text? = some (Text.ofString "1.0E7") := by
  decide +kernel

end JavaLiteral
