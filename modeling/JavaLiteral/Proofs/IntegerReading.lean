import JavaLiteral.Proofs.IntegerExpression

/-!
# An integer literal is read as its value

What this library writes for an integer is an integer expression (`integerExpression?_literal`). It
initialises a variable with every value that the type of the variable holds; any other value is
either refused or read modulo the size of the type; and a cast decides the static type
(`literal_initialises`).
-/

namespace JavaLiteral

namespace IntType

open Source

variable (t : IntType) (f : IntegerFormat) (v : ℤ)

/-- The magnitude that the hexadecimal digits of a value denote. -/
def hexMagnitude : ℕ := (v % if v < 0 then 2 * t.half else 2 * long.half).toNat

/-- The expression that a numeral is, with the suffix of a `long` or without. -/
def numeralExpression (isLong : Bool) : IntegerExpression :=
  match f with
  | .hexadecimal => .literal ⟨t.hexMagnitude v, false, isLong⟩
  | _ =>
    if v < 0 then .negation (.literal ⟨v.natAbs, true, isLong⟩)
    else .literal ⟨v.natAbs, true, isLong⟩

/-- The expression that a cast numeral is. -/
def castedExpression : IntegerExpression :=
  if t = .long then t.numeralExpression f v true else .cast t (t.numeralExpression f v false)

/-- The expression that a literal is. -/
def literalExpression (cast : Bool) : IntegerExpression :=
  if f = .auto ∧ t ≠ .byte ∧ (v = t.maxValue ∨ v = t.minValue) then .constant t v
  else if cast || t.needsCast f v then t.castedExpression f v
  else t.numeralExpression f v false

variable {t v}

theorem value_hexDigits :
    ∃ ds : List ℕ, ds ≠ [] ∧ (∀ d ∈ ds, d < 16) ∧ Digits.value 16 ds = t.hexMagnitude v
      ∧ t.numeral .hexadecimal v = Text.ofString "0x" ++ Digits.text ds := by
  set N := (v % (2 * long.half)).toNat with hN
  have hdigits : hexDigits v = Digits.text (Digits.digitsOf 16 N) :=
    Digits.numeral_eq (by decide) N
  have hvalue := Digits.value_digitsOf 16 N
  have hne := Digits.digitsOf_ne_nil 16 N
  have hlt : ∀ d ∈ Digits.digitsOf 16 N, d < 16 := fun d => Digits.lt_of_mem_digitsOf (by decide)
  generalize Digits.digitsOf 16 N = ds at *
  unfold numeral hexMagnitude
  rw [hdigits]
  split_ifs with hv
  · have hlen : (Digits.text ds).length = ds.length := by simp [Digits.text]
    refine ⟨ds.drop (ds.length - 2 * t.bytes), ?_, fun d hd => hlt d (List.mem_of_mem_drop hd), ?_,
      ?_⟩
    · have hpos := List.length_pos_iff.2 hne
      have hbytes : 0 < t.bytes := by cases t <;> decide
      rw [Ne, List.drop_eq_nil_iff]
      omega
    · rw [Digits.value_drop (by decide) hlt, hvalue, hN]
      cases t <;> simp only [half, bytes] <;> omega
    · simp only [hlen]
      simp [Digits.text, List.map_drop]
  · exact ⟨ds, hne, hlt, by rw [hvalue, hN], rfl⟩

theorem integerExpression?_numeral (t : IntType) (f : IntegerFormat) (v : ℤ) (isLong : Bool) :
    integerExpression? (t.numeral f v ++ suffix isLong)
      = some (t.numeralExpression f v isLong) := by
  have hdecimal : integerExpression? (Text.ofInt v ++ suffix isLong)
      = some (if v < 0 then .negation (.literal ⟨v.natAbs, true, isLong⟩)
        else .literal ⟨v.natAbs, true, isLong⟩) := by
    have h := isNumeral_decimal v.natAbs
    unfold Text.ofInt
    split_ifs with hv
    · obtain ⟨d, hd, hhead⟩ := h.head
      have hminus : (Text.numeral 10 v.natAbs ++ suffix isLong).head?
          ≠ some (CodePoint.ofChar '-') := by
        rw [List.head?_append_of_ne_nil _ h.ne_nil, hhead]
        simpa using (digitChar_facts d hd).2.2.2.1
      rw [List.cons_append, integerExpression?_minus hminus, integerExpression?_suffix h]
      rfl
    · exact integerExpression?_suffix h isLong
  cases f with
  | auto => exact hdecimal
  | decimal => exact hdecimal
  | hexadecimal =>
    obtain ⟨ds, hne, hlt, hvalue, htext⟩ := value_hexDigits (t := t) (v := v)
    rw [htext, integerExpression?_suffix (isNumeral_hexadecimal hne hlt), hvalue]
    rfl

theorem integerExpression?_casted (t : IntType) (f : IntegerFormat) (v : ℤ) :
    integerExpression? (t.casted (t.numeral f v)) = some (t.castedExpression f v) := by
  unfold casted castedExpression
  split_ifs
  · exact integerExpression?_numeral t f v true
  · have h := integerExpression?_numeral t f v false
    rw [show t.numeral f v ++ suffix false = t.numeral f v from List.append_nil _] at h
    rw [integerExpression?_castToken, h]
    rfl

theorem integerExpression?_number (t : IntType) (f : IntegerFormat) (cast : Bool) (v : ℤ) :
    integerExpression? (t.number f cast v)
      = some (if cast || t.needsCast f v then t.castedExpression f v
        else t.numeralExpression f v false) := by
  unfold number
  split_ifs
  · exact integerExpression?_casted t f v
  · have h := integerExpression?_numeral t f v false
    rwa [show t.numeral f v ++ suffix false = t.numeral f v from List.append_nil _] at h

theorem boundaryName?_eq (t : IntType) (v : ℤ) :
    t.boundaryName? v =
      if t ≠ .byte ∧ v = t.maxValue then some (className t ++ Text.ofString ".MAX_VALUE")
      else if t ≠ .byte ∧ v = t.minValue then some (className t ++ Text.ofString ".MIN_VALUE")
      else none := by
  cases t <;> simp [boundaryName?, boundaryClass?, className]

theorem integerExpression?_boundaryName {name : Text} (h : t.boundaryName? v = some name) :
    (t ≠ .byte ∧ (v = t.maxValue ∨ v = t.minValue))
      ∧ integerExpression? name = some (.constant t v) := by
  rw [boundaryName?_eq] at h
  split_ifs at h with h1 h2 <;> obtain rfl := Option.some.inj h
  · refine ⟨⟨h1.1, .inl h1.2⟩, ?_⟩
    rw [h1.2, integerExpression?, tokens?_word (by cases t <;> decide) (by cases t <;> decide)]
    cases t <;> rfl
  · refine ⟨⟨h2.1, .inr h2.2⟩, ?_⟩
    rw [h2.2, integerExpression?, tokens?_word (by cases t <;> decide) (by cases t <;> decide)]
    cases t <;> rfl

/-- What is written for a value is an integer expression. -/
theorem integerExpression?_literal (t : IntType) (f : IntegerFormat) (cast : Bool) (v : ℤ) :
    integerExpression? (t.literal f cast v) = some (t.literalExpression f v cast) := by
  unfold literal literalExpression
  cases f with
  | auto =>
    cases hname : t.boundaryName? v with
    | some name =>
      obtain ⟨hb, he⟩ := integerExpression?_boundaryName hname
      rw [if_pos ⟨rfl, hb⟩]
      exact he
    | none =>
      have hb : ¬(t ≠ .byte ∧ (v = t.maxValue ∨ v = t.minValue)) := by
        rw [boundaryName?_eq] at hname
        split_ifs at hname with h1 h2
        tauto
      rw [if_neg fun h => hb h.2]
      exact integerExpression?_number t .auto cast v
  | decimal =>
    rw [if_neg (by simp)]
    exact integerExpression?_number t .decimal cast v
  | hexadecimal =>
    rw [if_neg (by simp)]
    exact integerExpression?_number t .hexadecimal cast v

/-- The type of an integer literal with the suffix of a `long` or without. -/
def literalType (isLong : Bool) : IntType := if isLong then .long else .int

theorem two_mul_half_dvd {t u : IntType} (h : t.bytes ≤ u.bytes) : 2 * t.half ∣ 2 * u.half := by
  rw [two_mul_half, two_mul_half]
  exact pow_dvd_pow 2 (by omega)

theorem holds_mono {t u : IntType} (h : t.bytes ≤ u.bytes) (hv : t.holds v) : u.holds v := by
  have hd := Int.le_of_dvd (by have := u.half_pos; omega) (two_mul_half_dvd h)
  rw [holds_iff] at hv ⊢
  omega

theorem hexMagnitude_modEq (t : IntType) (v : ℤ) :
    (t.hexMagnitude v : ℤ) ≡ v [ZMOD 2 * t.half] := by
  have hpos := t.half_pos
  unfold hexMagnitude
  split_ifs
  · rw [Int.toNat_of_nonneg (Int.emod_nonneg _ (by omega))]
    exact Int.mod_modEq _ _
  · rw [Int.toNat_of_nonneg (Int.emod_nonneg _ (by decide))]
    exact (Int.mod_modEq _ _).of_dvd (two_mul_half_dvd (by cases t <;> decide))

theorem hexMagnitude_of_nonneg (h0 : 0 ≤ v) (h : long.holds v) : (t.hexMagnitude v : ℤ) = v := by
  have hv := holds_iff.1 h
  unfold hexMagnitude
  rw [if_neg (by omega), Int.emod_eq_of_lt h0 (by omega), Int.toNat_of_nonneg h0]

theorem evaluate?_hexadecimal (isLong : Bool) :
    (t.numeralExpression .hexadecimal v isLong).evaluate?
      = if (t.hexMagnitude v : ℤ) < 2 * (literalType isLong).half then
          some ⟨literalType isLong, (literalType isLong).wrap (t.hexMagnitude v)⟩
        else none := by
  have htype : IntegerLiteral.type ⟨t.hexMagnitude v, false, isLong⟩ = literalType isLong := rfl
  simp only [numeralExpression, IntegerExpression.evaluate?, IntegerLiteral.evaluate?, htype]
  exact if_neg Bool.false_ne_true

/-- Decimal numerals denote the value, with the minus sign in front if it is negative. -/
theorem evaluate?_decimal (hf : f ≠ .hexadecimal) (isLong : Bool) :
    (t.numeralExpression f v isLong).evaluate?
      = if (literalType isLong).holds v then some ⟨literalType isLong, v⟩ else none := by
  have htype : ∀ n : ℕ, IntegerLiteral.type ⟨n, true, isLong⟩ = literalType isLong := fun n => rfl
  have hneg : ∀ w : ℤ, Typed.neg ⟨literalType isLong, w⟩
      = ⟨literalType isLong, (literalType isLong).wrap (-w)⟩ := by
    cases isLong <;> exact fun w => rfl
  have hnumeral : t.numeralExpression f v isLong
      = if v < 0 then .negation (.literal ⟨v.natAbs, true, isLong⟩)
        else .literal ⟨v.natAbs, true, isLong⟩ := by
    cases f <;> first | rfl | exact absurd rfl hf
  have hholds := holds_iff (t := literalType isLong) (v := v)
  rw [hnumeral]
  split_ifs with hv hh hh
  · rw [hholds] at hh
    simp only [IntegerExpression.evaluate?, IntegerLiteral.evaluate?, htype, maxValue, minValue]
    split_ifs with h1 h2
    · exact congrArg some (by rw [Typed.mk.injEq]; exact ⟨rfl, by omega⟩)
    · rw [Option.map_some, hneg, wrap_of_holds (holds_iff.2 (by omega))]
      exact congrArg some (by rw [Typed.mk.injEq]; exact ⟨rfl, by omega⟩)
    · simp only [true_and] at h1
      omega
  · rw [hholds] at hh
    simp only [IntegerExpression.evaluate?, IntegerLiteral.evaluate?, htype, maxValue, minValue]
    rw [if_neg (by simp only [true_and]; omega), if_pos trivial, if_neg (by omega)]
    rfl
  · rw [hholds] at hh
    simp only [IntegerExpression.evaluate?, IntegerLiteral.evaluate?, htype, maxValue]
    rw [if_pos trivial, if_pos (by omega)]
    exact congrArg some (by rw [Typed.mk.injEq]; exact ⟨rfl, by omega⟩)
  · rw [hholds] at hh
    simp only [IntegerExpression.evaluate?, IntegerLiteral.evaluate?, htype, maxValue]
    rw [if_pos trivial, if_neg (by omega)]

/-- If a numeral has a value, it is the value written modulo the size of the type, unless the type
is wider than the literal. -/
theorem numeral_modEq (isLong : Bool) (ht : t.bytes ≤ (literalType isLong).bytes) {x : Typed}
    (h : (t.numeralExpression f v isLong).evaluate? = some x) :
    x.type = literalType isLong ∧ x.value ≡ v [ZMOD 2 * t.half] := by
  by_cases hf : f = .hexadecimal
  · rw [hf, evaluate?_hexadecimal] at h
    split_ifs at h
    obtain rfl := Option.some.inj h
    exact ⟨rfl, ((wrap_modEq _ _).of_dvd (two_mul_half_dvd ht)).trans (hexMagnitude_modEq t v)⟩
  · rw [evaluate?_decimal f hf] at h
    split_ifs at h
    obtain rfl := Option.some.inj h
    exact ⟨rfl, Int.ModEq.refl v⟩

theorem numeral_of_holds (isLong : Bool) (h : (literalType isLong).holds v)
    (hf : f = .hexadecimal → 0 ≤ v) :
    (t.numeralExpression f v isLong).evaluate? = some ⟨literalType isLong, v⟩ := by
  by_cases hx : f = .hexadecimal
  · have hlong := holds_mono (u := .long) (by cases isLong <;> decide) h
    have hv := holds_iff.1 h
    rw [hx, evaluate?_hexadecimal, hexMagnitude_of_nonneg (hf hx) hlong, if_pos (by omega),
      wrap_of_holds h]
  · rw [evaluate?_decimal f hx, if_pos h]

theorem numeral_isSome (isLong : Bool) (ht : t.bytes ≤ (literalType isLong).bytes)
    (h : t.holds v) : ∃ x, (t.numeralExpression f v isLong).evaluate? = some x := by
  by_cases hf : f = .hexadecimal ∧ v < 0
  · have hd := Int.le_of_dvd (by have := (literalType isLong).half_pos; omega)
      (two_mul_half_dvd ht)
    have hpos := t.half_pos
    have hlt : (t.hexMagnitude v : ℤ) < 2 * t.half := by
      unfold hexMagnitude
      rw [if_pos hf.2, Int.toNat_of_nonneg (Int.emod_nonneg _ (by omega))]
      exact Int.emod_lt_of_pos _ (by omega)
    rw [hf.1, evaluate?_hexadecimal, if_pos (by omega)]
    exact ⟨_, rfl⟩
  · have hsign : f = .hexadecimal → 0 ≤ v := fun hx => by
      by_contra h0
      exact hf ⟨hx, by omega⟩
    exact ⟨_, numeral_of_holds f isLong (holds_mono ht h) hsign⟩

theorem casted_modEq {x : Typed} (h : (t.castedExpression f v).evaluate? = some x) :
    x.type = t ∧ x.value ≡ v [ZMOD 2 * t.half] := by
  unfold castedExpression at h
  split_ifs at h with ht
  · subst ht
    exact numeral_modEq f true le_rfl h
  · obtain ⟨y, hy, rfl⟩ := Option.map_eq_some_iff.1 h
    have hb : t.bytes ≤ (literalType false).bytes := by
      cases t <;> first | decide | exact absurd rfl ht
    exact ⟨rfl, (wrap_modEq t y.value).trans (numeral_modEq f false hb hy).2⟩

theorem casted_of_holds (h : t.holds v) :
    (t.castedExpression f v).evaluate? = some ⟨t, v⟩ := by
  have hsome : ∃ x, (t.castedExpression f v).evaluate? = some x ∧ t.holds x.value := by
    unfold castedExpression
    split_ifs with ht
    · subst ht
      obtain ⟨x, hx⟩ := numeral_isSome f true le_rfl h
      refine ⟨x, hx, ?_⟩
      by_cases hf : f = .hexadecimal
      · rw [hf, evaluate?_hexadecimal] at hx
        split_ifs at hx
        obtain rfl := Option.some.inj hx
        exact holds_wrap _ _
      · rw [evaluate?_decimal f hf] at hx
        split_ifs at hx with hl
        obtain rfl := Option.some.inj hx
        exact hl
    · have hb : t.bytes ≤ (literalType false).bytes := by
        cases t <;> first | decide | exact absurd rfl ht
      obtain ⟨y, hy⟩ := numeral_isSome f false hb h
      exact ⟨_, by rw [IntegerExpression.evaluate?, hy]; rfl, holds_wrap _ _⟩
  obtain ⟨x, hx, hholds⟩ := hsome
  obtain ⟨htype, hmod⟩ := casted_modEq f hx
  rw [hx, ← htype, ← eq_of_modEq hholds h hmod]

theorem plain_of_holds (h : t.holds v) (hc : t.needsCast f v = false) :
    (t.numeralExpression f v false).evaluate? = some ⟨.int, v⟩ := by
  simp only [needsCast, Bool.or_eq_false_iff, Bool.and_eq_false_iff, decide_eq_false_iff_not,
    Bool.not_eq_false'] at hc
  refine numeral_of_holds f false ?_ fun hf => ?_
  · rcases hc.2 with ht | hint
    · exact holds_mono (by cases t <;> first | decide | exact absurd rfl ht) h
    · exact hint
  · rcases hc.1 with hne | hv
    · exact absurd hf hne
    · omega

theorem plain_modEq (hv : long.holds v) (hc : t.needsCast f v = false) {x : Typed}
    (h : (t.numeralExpression f v false).evaluate? = some x) :
    x.value ≡ v [ZMOD 2 * t.half] := by
  by_cases ht : t = .long
  · subst ht
    rw [plain_of_holds f hv hc] at h
    obtain rfl := Option.some.inj h
    exact Int.ModEq.refl v
  · exact (numeral_modEq f false
      (by cases t <;> first | decide | exact absurd rfl ht) h).2

theorem initial?_of_le {x : Typed} (h : t.holds x.value) (ht : x.type ≠ .long ∨ t = .long) :
    x.initial? t = some x.value := by
  unfold Typed.initial?
  refine if_pos ?_
  rcases ht with ht | rfl
  · exact .inr ⟨ht, h⟩
  · exact .inl (by cases x.type <;> decide)

/-- What a literal is read as has the value modulo the size of the type, and the type itself if a
cast was asked for. -/
theorem literalExpression_modEq (hv : long.holds v) {cast : Bool} {x : Typed}
    (h : (t.literalExpression f v cast).evaluate? = some x) :
    x.value ≡ v [ZMOD 2 * t.half] ∧ (cast → x.type = t) := by
  unfold literalExpression at h
  split_ifs at h with h1 h2
  · obtain rfl := Option.some.inj h
    exact ⟨Int.ModEq.refl v, fun _ => rfl⟩
  · obtain ⟨htype, hmod⟩ := casted_modEq f h
    exact ⟨hmod, fun _ => htype⟩
  · simp only [Bool.or_eq_true, not_or, Bool.not_eq_true] at h2
    exact ⟨plain_modEq f hv h2.2 h, fun hcast => by simp [h2.1] at hcast⟩

theorem initial?_literalExpression (h : t.holds v) (cast : Bool) :
    (t.literalExpression f v cast).initial? t = some v := by
  unfold literalExpression IntegerExpression.initial?
  split_ifs with h1 h2
  · exact initial?_of_le (x := ⟨t, v⟩) h (by cases t <;> simp)
  · rw [casted_of_holds f h]
    exact initial?_of_le (x := ⟨t, v⟩) h (by cases t <;> simp)
  · simp only [Bool.or_eq_true, not_or, Bool.not_eq_true] at h2
    rw [plain_of_holds f h h2.2]
    exact initial?_of_le (x := ⟨.int, v⟩) h (.inl (by simp))

theorem literal_width (hv : long.holds v) (cast : Bool) :
    t.width.literal f cast v = .ok (t.literal f cast v) := by
  unfold Width.literal checkedLong
  rw [type_width, if_pos hv]
  rfl

/-- For every value of 64 bits, width, format and choice of a cast there is a literal, and Java
reads it as an integer expression. It initialises a variable of the width with the value, if the
width holds that; and a value that it gives such a variable, or has at all, is the value modulo the
size of the width. If a cast was asked for, the expression has the type of the width. -/
theorem literal_initialises (t : IntType) (f : IntegerFormat) (cast : Bool) (v : ℤ)
    (hv : long.holds v) :
    ∃ text e, t.width.literal f cast v = .ok text ∧ integerExpression? text = some e
      ∧ (t.holds v → e.initial? t = some v)
      ∧ (∀ y, e.initial? t = some y → y ≡ v [ZMOD 2 ^ (8 * t.bytes)])
      ∧ ∀ x, e.evaluate? = some x →
          x.value ≡ v [ZMOD 2 ^ (8 * t.bytes)] ∧ (cast → x.type = t) := by
  rw [← two_mul_half]
  refine ⟨_, _, literal_width f hv cast, integerExpression?_literal t f cast v,
    fun h => initial?_literalExpression f h cast, fun y hy => ?_,
    fun x hx => literalExpression_modEq f hv hx⟩
  obtain ⟨x, hx, hxy⟩ := Option.bind_eq_some_iff.1 hy
  unfold Typed.initial? at hxy
  split_ifs at hxy
  obtain rfl := Option.some.inj hxy
  exact (literalExpression_modEq f hv hx).1

/-- The least value of all needs its minus sign and its suffix at once. -/
theorem literal_initialises_least :
    long.holds (-0x8000000000000000)
      ∧ ∃ text e, long.width.literal .decimal false (-0x8000000000000000) = .ok text
        ∧ integerExpression? text = some e
        ∧ (long.holds (-0x8000000000000000) → e.initial? long = some (-0x8000000000000000))
        ∧ (∀ y, e.initial? long = some y → y ≡ -0x8000000000000000 [ZMOD 2 ^ (8 * long.bytes)])
        ∧ ∀ x, e.evaluate? = some x →
            x.value ≡ -0x8000000000000000 [ZMOD 2 ^ (8 * long.bytes)]
              ∧ (false → x.type = long) :=
  ⟨by decide, literal_initialises .long .decimal false _ (by decide)⟩

end IntType

end JavaLiteral
