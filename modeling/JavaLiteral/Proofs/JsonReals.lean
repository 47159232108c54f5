import JavaLiteral.Proofs.DecimalGrid
import JavaLiteral.Proofs.FloatReading
import JavaLiteral.Proofs.JsonValues

/-!
# Reals are read as reals

A finite real is written with a point or an exponent, after a whole part that is not too large to be
counted; so it is read as a real again (`Json.exists_isReadAs_real`). Which one that is depends on
the places that are written, and it need not be the real that was given.
-/

namespace JavaLiteral.Json

open Binary Digits

/-- What follows the whole part of a real: the digits after the point, an exponent, or both. -/
inductive IsTail : Text → Prop
  | places {fs : List ℕ} (hfs : ∀ d ∈ fs, d < 10) : IsTail (CodePoint.ofChar '.' :: Digits.text fs)
  | exponent (e : ℤ) : IsTail (exponentText e)
  | both {fs : List ℕ} (hfs : ∀ d ∈ fs, d < 10) (e : ℤ) :
    IsTail (CodePoint.ofChar '.' :: (Digits.text fs ++ exponentText e))

/-- The text of a real without sign, whose whole part can be counted. -/
def IsUnsignedReal (t : Text) : Prop :=
  ∃ ws tail, ws ≠ [] ∧ (∀ d ∈ ws, d < 10) ∧ value 10 ws ≤ greatestCount true ∧ IsTail tail
    ∧ t = Digits.text ws ++ tail

section Reading

variable {rest : Text} {fs : List ℕ}

theorem EndsNumber.isDigit_head (h : EndsNumber rest) : ∀ c ∈ rest.head?, c.isDigit = false := by
  obtain ⟨c, cs, rfl, hdigit, -⟩ := h
  intro d hd
  rwa [← Option.some.inj hd]

theorem EndsNumber.readExponent_eq (h : EndsNumber rest) : readExponent rest = (none, rest) := by
  obtain ⟨c, cs, rfl, -, -, he, hE⟩ := h
  rw [readExponent, if_neg (not_or.2 ⟨he, hE⟩)]

theorem readFraction_places (hfs : ∀ d ∈ fs, d < 10)
    (hrest : ∀ c ∈ rest.head?, c.isDigit = false) :
    readFraction (CodePoint.ofChar '.' :: (Digits.text fs ++ rest))
      = (some (Digits.text fs), rest) := by
  rw [readFraction, if_pos rfl, digits_text hfs hrest]

theorem paddedNumeral_eq_text (width n : ℕ) :
    ∃ ds, (∀ d ∈ ds, d < 10) ∧ Text.paddedNumeral 10 width n = Digits.text ds := by
  refine ⟨List.replicate (width - (Text.numeral 10 n).length) 0 ++ digitsOf 10 n,
    List.forall_mem_append.2 ⟨fun _ => Decimal.lt_of_mem_zeros, fun _ => lt_of_mem_digitsOf_ten⟩,
    ?_⟩
  rw [Digits.text_append, ← numeral_eq (by decide), ← Decimal.map_zeros, List.map_replicate]
  rfl

theorem exists_readExponent (e : ℤ) : ∃ e', ∀ rest, EndsNumber rest →
    readExponent (exponentText e ++ rest) = (some e', rest) := by
  obtain ⟨ds, hds, hpadded⟩ := paddedNumeral_eq_text 2 e.natAbs
  unfold exponentText
  rw [hpadded]
  split_ifs
  · refine ⟨-Numeral.valueOf (Digits.text ds), fun rest hrest => ?_⟩
    change (some (-(Numeral.valueOf (Numeral.digits (Digits.text ds ++ rest)).1 : ℤ)),
      (Numeral.digits (Digits.text ds ++ rest)).2) = _
    rw [digits_text hds hrest.isDigit_head]
  · refine ⟨Numeral.valueOf (Digits.text ds), fun rest hrest => ?_⟩
    change (some ((Numeral.valueOf (Numeral.digits (Digits.text ds ++ rest)).1 : ℤ)),
      (Numeral.digits (Digits.text ds ++ rest)).2) = _
    rw [digits_text hds hrest.isDigit_head]

theorem exists_exponentText_eq (e : ℤ) : ∃ t, exponentText e = CodePoint.ofChar 'e' :: t := by
  unfold exponentText
  split_ifs <;> exact ⟨_, rfl⟩

theorem isDigit_head_exponentText (e : ℤ) :
    ∀ c ∈ (exponentText e ++ rest).head?, c.isDigit = false := by
  obtain ⟨t, ht⟩ := exists_exponentText_eq e
  rw [ht]
  intro c hc
  rw [← Option.some.inj hc]
  decide

/-- What follows the whole part is read as a fraction or an exponent, one of which is there. -/
theorem IsTail.exists_read {tail : Text} (h : IsTail tail) :
    ∃ fraction exponent, (fraction = none → exponent ≠ none) ∧ ∀ rest, EndsNumber rest →
      (∀ c ∈ (tail ++ rest).head?, c.isDigit = false)
        ∧ ∃ after, readFraction (tail ++ rest) = (fraction, after)
          ∧ readExponent after = (exponent, rest) := by
  cases h with
  | @places fs hfs =>
    refine ⟨some (Digits.text fs), none, fun h => absurd h (Option.some_ne_none _),
      fun rest hrest => ⟨?_, rest, ?_, hrest.readExponent_eq⟩⟩
    · intro c hc
      rw [← Option.some.inj hc]
      decide
    · exact readFraction_places hfs hrest.isDigit_head
  | exponent e =>
    obtain ⟨e', he'⟩ := exists_readExponent e
    obtain ⟨t, ht⟩ := exists_exponentText_eq e
    refine ⟨none, some e', fun _ => Option.some_ne_none _,
      fun rest hrest => ⟨isDigit_head_exponentText e, _, ?_, he' rest hrest⟩⟩
    rw [ht, List.cons_append, readFraction, if_neg (by decide)]
  | @both fs hfs e =>
    obtain ⟨e', he'⟩ := exists_readExponent e
    refine ⟨some (Digits.text fs), some e', fun _ => Option.some_ne_none _,
      fun rest hrest => ⟨?_, _, ?_, he' rest hrest⟩⟩
    · intro c hc
      rw [← Option.some.inj hc]
      decide
    · rw [List.cons_append, List.append_assoc]
      exact readFraction_places hfs (isDigit_head_exponentText e)

theorem IsUnsignedReal.exists_readNumber {t : Text} (h : IsUnsignedReal t) (negative : Bool) :
    ∃ y, ∀ rest, EndsNumber rest → readNumber negative (t ++ rest) = some (.real y, rest) := by
  obtain ⟨ws, tail, -, hws, hvalue, htail, rfl⟩ := h
  obtain ⟨fraction, exponent, hreal, hread⟩ := htail.exists_read
  have hwhole : whole? negative (Digits.text ws) = some (value 10 ws) := by
    rw [whole?_eq_some, valueOf_text hws]
    rw [valueOf_text hws]
    refine hvalue.trans ?_
    cases negative <;> decide
  refine ⟨realOf negative (value 10 ws) (fraction.getD []) (exponent.getD 0), fun rest hrest => ?_⟩
  obtain ⟨hhead, after, hfraction, hexponent⟩ := hread rest hrest
  unfold readNumber
  dsimp only
  rw [List.append_assoc, digits_text hws hhead, hwhole]
  simp only [Option.bind_eq_bind, Option.bind_some, hfraction, hexponent]
  rw [if_neg fun h => hreal h.1 h.2]

theorem IsUnsignedReal.exists_isReadAs {t : Text} (h : IsUnsignedReal t) :
    ∃ y, IsReadAs t (.real y) := by
  obtain ⟨y, hy⟩ := h.exists_readNumber false
  refine ⟨y, ?_⟩
  obtain ⟨ws, tail, hne, hws, -, -, rfl⟩ := h
  obtain ⟨w, ws, rfl⟩ := List.exists_cons_of_ne_nil hne
  exact isReadAs_digit (isDigit_of_mem_text hws List.mem_cons_self) hy

end Reading

section Writing

variable {x : ℚ}

theorem isUnsignedReal_of_isPointed {t : Text} (h : IsPointed t x)
    (hx : x ≤ greatestCount true) : IsUnsignedReal t := by
  obtain ⟨ws, fs, hne, hws, hfs, rfl, rfl⟩ := h
  refine ⟨ws, _, hne, hws, ?_, .places hfs, rfl⟩
  have hp : (0 : ℚ) < 10 ^ fs.length := by positivity
  rw [value_append, zpow_neg, zpow_natCast, ← div_eq_mul_inv, div_le_iff₀ hp] at hx
  have hle : (value 10 ws : ℚ) * 10 ^ fs.length ≤ greatestCount true * 10 ^ fs.length := by
    refine le_trans ?_ hx
    push_cast
    linarith [(Nat.cast_nonneg (value 10 fs) : (0 : ℚ) ≤ _)]
  exact_mod_cast le_of_mul_le_mul_right hle hp

/-- All places of a magnitude together denote less than two more than the magnitude. -/
theorem value_rounded_le (hx : 0 ≤ x) : (rounded x).value ≤ x + 2 := by
  set whole := x.floor.toNat with hwhole
  set scaled := (ofMagnitude false ((x - whole) * scale) : Double).magnitude with hscaled
  have hle : (whole : ℚ) ≤ x := floor_toNat_le hx
  have hscale : (scale : ℚ) = 10 ^ 10 := by norm_num [scale]
  have hbound : scaled ≤ 10 ^ 10 := by
    -- Ten to the tenth is a value of the format, so rounding does not pass it.
    have hten : Format.double.magnitude (Format.double.round (10 ^ 10)) = 10 ^ 10 := by
      decide +kernel
    have hlt := lt_floor_toNat_add_one hx
    rw [hscaled, ← hten]
    refine (Format.magnitude_strictMono Format.double).monotone (Format.round_mono ?_ ?_)
    · rw [hscale]
      exact mul_nonneg (by linarith) (by norm_num)
    · rw [hscale]
      linarith
  have hn : (scaled.floor.toNat : ℚ) ≤ 10 ^ 10 :=
    (floor_toNat_le (Format.magnitude_nonneg _ _)).trans hbound
  have hcoeff : ((rounded x).coeff : ℚ) ≤ whole * 10 ^ 10 + 10 ^ 10 + 1 := by
    unfold rounded
    dsimp only
    rw [← hwhole, ← hscaled, Nat.cast_add, Nat.cast_mul, hscale]
    split_ifs
    · push_cast
      linarith
    · linarith
  have hvalue : (rounded x).value = (rounded x).coeff * (10 : ℚ) ^ (-10 : ℤ) := rfl
  rw [hvalue, zpow_neg, ← div_eq_mul_inv, div_le_iff₀ (by positivity)]
  have : (10 : ℚ) ^ (10 : ℤ) = 10 ^ 10 := by norm_num
  rw [this]
  linarith

theorem isUnsignedReal_placesText (hx : 0 ≤ x) (h : x ≤ (powerOfTen 16).magnitude) :
    IsUnsignedReal (placesText x) := by
  have hten : (powerOfTen 16).magnitude = 10 ^ 16 := by decide +kernel
  have hlt : ∀ d ∈ significant (rounded x).coeff, d < 10 := fun d => lt_of_mem_significant
  have hvalue := value_rounded_le hx
  unfold placesText
  dsimp only
  split_ifs with hzero
  · have hzeros : ∀ d ∈ [0], d < 10 := by decide
    exact ⟨[0], _, by decide, hzeros, by decide, .places hzeros, rfl⟩
  · have hpointed := Decimal.isPointed_plain hlt (rounded x).leading
    rw [← Decimal.value_eq, ← Decimal.digits_eq] at hpointed
    refine isUnsignedReal_of_isPointed hpointed ?_
    have : (greatestCount true : ℚ) = 2 ^ 63 := by norm_num [greatestCount]
    rw [this]
    linarith

theorem value_nearest_pos (hx : 0 < x) :
    0 < (Decimal.nearest x (Decimal.gridExponent x 9)).value := by
  have habs := abs_le.1 (Decimal.abs_nearest_sub_le hx.le (Decimal.gridExponent x 9))
  have hle : (10 : ℚ) ^ Decimal.gridExponent x 9 ≤ (10 : ℚ) ^ leadingExponent x :=
    zpow_le_zpow_right₀ (by norm_num) (by unfold Decimal.gridExponent; omega)
  have := zpow_leadingExponent_le hx
  linarith [habs.1]

theorem isUnsignedReal_exponentialText (hx : 0 < x) : IsUnsignedReal (exponentialText x) := by
  unfold exponentialText
  dsimp only
  set d := Decimal.nearest x (Decimal.gridExponent x 9) with hd
  have hlt : ∀ e ∈ significant d.coeff, e < 10 := fun e => lt_of_mem_significant
  have hne : significant d.coeff ≠ [] := Decimal.significant_ne_nil (value_nearest_pos hx)
  rw [d.digits_eq, Decimal.map_digits]
  obtain ⟨w, fs, hws⟩ := List.exists_cons_of_ne_nil hne
  rw [hws] at hlt ⊢
  obtain ⟨hw, hfs⟩ := List.forall_mem_cons.1 hlt
  have hcount : value 10 [w] ≤ greatestCount true := by
    have hvalue : value 10 [w] = w := Nat.ofDigits_singleton
    have hgreatest : 9 ≤ greatestCount true := by decide
    omega
  -- A single digit stands without a point.
  refine ⟨[w], if fs = [] then exponentText d.leading
    else CodePoint.ofChar '.' :: (Digits.text fs ++ exponentText d.leading), List.cons_ne_nil _ _,
    by simpa using hw, hcount, ?_, ?_⟩
  · split_ifs
    · exact .exponent _
    · exact .both hfs _
  · cases fs with
    | nil => rfl
    | cons f fs => rfl

theorem le_of_hasPlaces (h : hasPlaces x) : x ≤ (powerOfTen 16).magnitude := by
  unfold hasPlaces at h
  simp only [Bool.or_eq_true, Bool.and_eq_true, decide_eq_true_eq] at h
  rcases h with h | ⟨-, h⟩
  · rw [h]
    exact Format.magnitude_nonneg _ _
  · exact h

/-- The text of a real is read as some real. -/
theorem exists_isReadAs_real (x : Double) : ∃ y, IsReadAs (realText x) (.real y) := by
  have h : IsUnsignedReal (if hasPlaces x.magnitude then placesText x.magnitude
      else exponentialText x.magnitude) := by
    have hnonneg : 0 ≤ x.magnitude := Format.magnitude_nonneg _ _
    split_ifs with hplaces
    · exact isUnsignedReal_placesText hnonneg (le_of_hasPlaces hplaces)
    · refine isUnsignedReal_exponentialText (hnonneg.lt_of_ne fun hzero => hplaces ?_)
      rw [← hzero]
      rfl
  unfold realText
  generalize (if hasPlaces x.magnitude then placesText x.magnitude
    else exponentialText x.magnitude) = t at h ⊢
  split_ifs
  · obtain ⟨y, hy⟩ := h.exists_readNumber true
    exact ⟨y, isReadAs_minus hy⟩
  · exact h.exists_isReadAs

end Writing

end JavaLiteral.Json
