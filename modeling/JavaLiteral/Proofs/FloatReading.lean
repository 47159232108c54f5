import JavaLiteral.Proofs.FloatExpression
import JavaLiteral.Proofs.ReadBack

/-!
# A floating-point literal is read as its value

Plain and scientific notation both denote the decimal that they are written for
(`exists_decimalLiteral?_text`), so the literal of a value denotes the value that its digits are
rounded to (`finiteText_denotes`). For a `double` that is the value itself (`literal_denotes`).
-/

namespace JavaLiteral

open Source

namespace Digits

theorem text_append (ds es : List ℕ) : text (ds ++ es) = text ds ++ text es := List.map_append

/-- A text of digits with a point among them that denotes a number. -/
def IsPointed (t : Text) (x : ℚ) : Prop :=
  ∃ ws fs : List ℕ, ws ≠ [] ∧ (∀ d ∈ ws, d < 10) ∧ (∀ d ∈ fs, d < 10)
    ∧ t = text ws ++ CodePoint.ofChar '.' :: text fs
    ∧ x = value 10 (ws ++ fs) * (10 : ℚ) ^ (-fs.length : ℤ)

namespace IsPointed

variable {t : Text} {x : ℚ}

theorem head (h : IsPointed t x) :
    ∃ e < 10, t.head? = some (CodePoint.ofChar (Nat.digitChar e)) := by
  obtain ⟨ws, fs, hne, hws, -, rfl, -⟩ := h
  obtain ⟨d, ds, rfl⟩ := List.exists_cons_of_ne_nil hne
  exact ⟨d, hws d List.mem_cons_self, rfl⟩

theorem exists_decimalLiteral? (h : IsPointed t x) :
    ∃ d, decimalLiteral? t = some d ∧ d.value = x := by
  obtain ⟨ws, fs, hne, hws, hfs, rfl, rfl⟩ := h
  have hread := decimalLiteral?_mantissa hne hws hfs [] (by simp)
  rw [List.append_nil] at hread
  refine ⟨⟨value 10 (ws ++ fs), 0 - fs.length⟩, hread, ?_⟩
  rw [Decimal.value, zero_sub]

theorem exists_decimalLiteral?_exponent (h : IsPointed t x) (e : ℤ) :
    ∃ d, decimalLiteral? (t ++ Text.ofString "E" ++ Text.ofInt e) = some d
      ∧ d.value = x * (10 : ℚ) ^ e := by
  obtain ⟨ws, fs, hne, hws, hfs, rfl, rfl⟩ := h
  have hread := decimalLiteral?_mantissa hne hws hfs (CodePoint.ofChar 'E' :: Text.ofInt e)
    fun c hc => by
      obtain rfl := Option.some.inj hc
      decide
  rw [exponentPart?_ofInt, Option.map_some] at hread
  refine ⟨⟨value 10 (ws ++ fs), e - fs.length⟩, ?_, ?_⟩
  · rw [← hread, List.append_assoc, List.append_assoc]
    rfl
  · rw [Decimal.value, sub_eq_add_neg, zpow_add₀ (by norm_num)]
    ring

end IsPointed

end Digits

namespace Decimal

open Digits

/-- Digits after the point; there is at least one. -/
def fractionDigits (ds : List ℕ) : List ℕ := if ds = [] then [0] else ds

theorem fraction_map (ds : List ℕ) :
    fraction (ds.map Nat.digitChar) = (fractionDigits ds).map Nat.digitChar := by
  cases ds <;> rfl

variable {ds : List ℕ}

theorem lt_of_mem_fractionDigits (h : ∀ d ∈ ds, d < 10) : ∀ d ∈ fractionDigits ds, d < 10 := by
  unfold fractionDigits
  split_ifs
  · decide
  · exact h

theorem value_fractionDigits (ws fs : List ℕ) :
    (Digits.value 10 (ws ++ fractionDigits fs) : ℚ)
        * (10 : ℚ) ^ (-(fractionDigits fs).length : ℤ)
      = Digits.value 10 (ws ++ fs) * (10 : ℚ) ^ (-fs.length : ℤ) := by
  unfold fractionDigits
  split_ifs with h
  · rw [h, List.append_nil, value_append]
    simp [Digits.value]
  · rfl

theorem map_digits (ds : List ℕ) : (ds.map Nat.digitChar).map CodePoint.ofChar = Digits.text ds :=
  List.map_map

theorem map_zeros (k : ℕ) :
    (List.replicate k '0').map CodePoint.ofChar = Digits.text (List.replicate k 0) := by
  rw [Digits.text, List.map_replicate, List.map_replicate]
  rfl

theorem lt_of_mem_zeros {k d : ℕ} (h : d ∈ List.replicate k 0) : d < 10 := by
  rw [List.eq_of_mem_replicate h]
  decide

theorem map_plain_natCast (ds : List ℕ) (m : ℕ) :
    (plain (ds.map Nat.digitChar) m).map CodePoint.ofChar
      = Digits.text (ds.take (m + 1) ++ List.replicate (m + 1 - ds.length) 0)
        ++ CodePoint.ofChar '.' :: Digits.text (fractionDigits (ds.drop (m + 1))) := by
  unfold plain
  rw [if_pos (Int.natCast_nonneg m)]
  dsimp only
  rw [Int.toNat_natCast, List.length_map, ← List.map_take, ← List.map_drop, fraction_map,
    List.map_append, List.map_append, List.map_cons, map_digits, map_digits, map_zeros,
    Digits.text_append]

theorem map_plain_of_neg (ds : List ℕ) {l : ℤ} (hl : l < 0) :
    (plain (ds.map Nat.digitChar) l).map CodePoint.ofChar
      = Digits.text [0]
        ++ CodePoint.ofChar '.' :: Digits.text (List.replicate ((-l).toNat - 1) 0 ++ ds) := by
  unfold plain
  rw [if_neg (not_le.2 hl), List.map_append, List.map_append, map_digits, map_zeros,
    Digits.text_append]
  rfl

theorem map_scientific (ds : List ℕ) :
    ((ds.map Nat.digitChar).take 1
        ++ '.' :: fraction ((ds.map Nat.digitChar).drop 1)).map CodePoint.ofChar
      = Digits.text (ds.take 1)
        ++ CodePoint.ofChar '.' :: Digits.text (fractionDigits (ds.drop 1)) := by
  rw [← List.map_take, ← List.map_drop, fraction_map, List.map_append, List.map_cons, map_digits,
    map_digits]

theorem isPointed_plain_natCast (hds : ∀ d ∈ ds, d < 10) (m : ℕ) :
    IsPointed ((plain (ds.map Nat.digitChar) m).map CodePoint.ofChar)
      (Digits.value 10 ds * (10 : ℚ) ^ ((m : ℤ) + 1 - ds.length)) := by
  refine ⟨_, _, ?_, ?_, ?_, map_plain_natCast ds m, ?_⟩
  · intro h
    have := congrArg List.length h
    rw [List.length_append, List.length_take, List.length_replicate, List.length_nil] at this
    omega
  · exact List.forall_mem_append.2
      ⟨fun d hd => hds d (List.mem_of_mem_take hd), fun d => lt_of_mem_zeros⟩
  · exact lt_of_mem_fractionDigits fun d hd => hds d (List.mem_of_mem_drop hd)
  · rw [value_fractionDigits]
    rcases Nat.le_total ds.length (m + 1) with h | h
    · rw [List.take_of_length_le h, List.drop_of_length_le h, List.append_nil, value_append,
        value_zeros, List.length_replicate, show (m : ℤ) + 1 - ds.length
          = ((m + 1 - ds.length : ℕ) : ℤ) by omega, zpow_natCast]
      simp
    · rw [Nat.sub_eq_zero_of_le h, List.replicate_zero, List.append_nil, List.take_append_drop,
        List.length_drop]
      congr 2
      omega

theorem isPointed_plain_of_neg (hds : ∀ d ∈ ds, d < 10) {l : ℤ} (hl : l < 0) :
    IsPointed ((plain (ds.map Nat.digitChar) l).map CodePoint.ofChar)
      (Digits.value 10 ds * (10 : ℚ) ^ (l + 1 - ds.length)) := by
  refine ⟨_, _, by simp, by decide, List.forall_mem_append.2 ⟨fun d => lt_of_mem_zeros, hds⟩,
    map_plain_of_neg ds hl, ?_⟩
  rw [← List.append_assoc, ← List.replicate_one, List.replicate_append_replicate, value_append,
    value_zeros, Nat.zero_mul, Nat.zero_add, List.length_append, List.length_replicate]
  congr 2
  omega

theorem isPointed_plain (hds : ∀ d ∈ ds, d < 10) (l : ℤ) :
    IsPointed ((plain (ds.map Nat.digitChar) l).map CodePoint.ofChar)
      (Digits.value 10 ds * (10 : ℚ) ^ (l + 1 - ds.length)) := by
  rcases Int.lt_or_le l 0 with h | h
  · exact isPointed_plain_of_neg hds h
  · obtain ⟨m, rfl⟩ := Int.eq_ofNat_of_zero_le h
    exact isPointed_plain_natCast hds m

theorem isPointed_scientific (hds : ∀ d ∈ ds, d < 10) (hne : ds ≠ []) :
    IsPointed (((ds.map Nat.digitChar).take 1
        ++ '.' :: fraction ((ds.map Nat.digitChar).drop 1)).map CodePoint.ofChar)
      (Digits.value 10 ds * (10 : ℚ) ^ (1 - ds.length : ℤ)) := by
  refine ⟨_, _, ?_, fun d hd => hds d (List.mem_of_mem_take hd),
    lt_of_mem_fractionDigits fun d hd => hds d (List.mem_of_mem_drop hd), map_scientific ds, ?_⟩
  · obtain ⟨d, es, rfl⟩ := List.exists_cons_of_ne_nil hne
    simp
  · rw [value_fractionDigits, List.take_append_drop, List.length_drop]
    have := List.length_pos_iff.2 hne
    congr 2
    omega

/-- The text of a decimal is a literal of the same value, whatever notation is chosen. -/
theorem exists_decimalLiteral?_text (x : ℚ) {d : Decimal} (hd : 0 < d.value) :
    ∃ d', decimalLiteral? (d.text x) = some d' ∧ d'.value = d.value
      ∧ ∃ e < 10, (d.text x).head? = some (CodePoint.ofChar (Nat.digitChar e)) := by
  have hlt : ∀ e ∈ significant d.coeff, e < 10 := fun e => lt_of_mem_significant
  have hne := significant_ne_nil hd
  have hvalue := d.value_eq
  unfold text
  rw [digits_eq]
  split_ifs
  · have h := isPointed_plain hlt d.leading
    rw [← hvalue] at h
    obtain ⟨d', h1, h2⟩ := h.exists_decimalLiteral?
    exact ⟨d', h1, h2, h.head⟩
  · have h := isPointed_scientific hlt hne
    obtain ⟨d', h1, h2⟩ := h.exists_decimalLiteral?_exponent d.leading
    refine ⟨d', h1, ?_, ?_⟩
    · rw [h2, hvalue, mul_assoc, ← zpow_add₀ (by norm_num)]
      congr 2
      omega
    · obtain ⟨e, he, hhead⟩ := h.head
      refine ⟨e, he, ?_⟩
      rw [scientific, List.append_assoc, List.head?_append, hhead]
      rfl

end Decimal

namespace Binary

variable {F : Format} (s : FloatSyntax F) {x : Binary F}

theorem constant?_constantName {name : Text} (h : x.constantName? = some name) :
    (x.isNaN ∧ name = "NaN") ∨ (x.isNaN = false ∧ constant? F name = some x) := by
  obtain ⟨negative, code, hcode⟩ := x
  unfold constantName? at h
  split_ifs at h with hnan hinf hneg hneg hmin hmax hnormal <;> obtain rfl := Option.some.inj h
  · exact .inl ⟨hnan, rfl⟩
  all_goals refine .inr ⟨by simpa using hnan, ?_⟩
  · obtain rfl : code = F.infinity := of_decide_eq_true hinf
    obtain rfl : negative = true := hneg
    rfl
  · obtain rfl : code = F.infinity := of_decide_eq_true hinf
    obtain rfl : negative = false := by simpa using hneg
    rfl
  all_goals obtain rfl : negative = false := by simpa using hneg
  · obtain rfl : code = 1 := hmin
    rfl
  · obtain rfl : code = F.infinity - 1 := by
      have : code + 1 = F.infinity := hmax
      omega
    rfl
  · obtain rfl : code = F.binade := hnormal
    rfl

/-- The text of a finite value with a suffix is the literal of its digits under its sign. -/
theorem exists_finiteText_literal (decimal : ℕ → Decimal) {c : CodePoint} (hc : c ∈ s.suffixes)
    (hpos : x.code ≠ 0 → 0 < (decimal x.code).value) :
    ∃ d, floatExpression? s (x.finiteText decimal ++ [c])
        = some (if x.negative then .negation (.literal d) else .literal d)
      ∧ d.value = if x.code = 0 then 0 else (decimal x.code).value := by
  unfold finiteText
  by_cases hx : x.code = 0
  · have hread : decimalLiteral? (Text.ofString "0.0") = some ⟨0, -1⟩ := by decide
    rw [if_pos (show x.isZero from decide_eq_true hx), if_pos hx]
    refine ⟨_, floatExpression?_signed s x.negative hread ⟨0, by decide, rfl⟩ hc, ?_⟩
    rw [Decimal.value, Nat.cast_zero, zero_mul]
  · obtain ⟨d, hread, hvalue, hhead⟩ := Decimal.exists_decimalLiteral?_text x.magnitude (hpos hx)
    rw [if_neg (show ¬x.isZero from mt of_decide_eq_true hx), if_neg hx]
    exact ⟨d, floatExpression?_signed s x.negative hread hhead hc, hvalue⟩

/-- The text of a finite value denotes what its digits are rounded to, zero aside. -/
theorem finiteText_denotes (decimal : ℕ → Decimal) {c : CodePoint} (hc : c ∈ s.suffixes)
    (hround : x.code ≠ 0 →
      0 < F.round (decimal x.code).value ∧ F.round (decimal x.code).value < F.infinity) :
    ∃ e, floatExpression? s (x.finiteText decimal ++ [c]) = some e
      ∧ ∀ y, e.Denotes y ↔ y.negative = x.negative
        ∧ y.code = if x.code = 0 then 0 else F.round (decimal x.code).value := by
  obtain ⟨d, hread, hvalue⟩ := exists_finiteText_literal s decimal hc fun hx =>
    Format.pos_of_round (hround hx).1 (decimal x.code).value_nonneg rfl
  refine ⟨_, hread, fun y => ?_⟩
  by_cases hx : x.code = 0
  · rw [if_pos hx] at hvalue ⊢
    have hzero : F.round d.value = 0 := by rw [hvalue, Format.round_zero]
    rw [denotes_signed_iff x.negative (by rw [hzero]; exact F.infinity_pos) fun _ => hvalue, hzero]
  · rw [if_neg hx] at hvalue ⊢
    obtain ⟨hpos, hfinite⟩ := hround hx
    rw [denotes_signed_iff x.negative (by rwa [hvalue]) fun h => by rw [hvalue] at h; omega, hvalue]

theorem isFinite_of_constantName (h : x.constantName? = none) : x.isFinite := by
  have hnan : x.isNaN = false := by
    by_contra hcon
    rw [constantName?, if_pos (by simpa using hcon)] at h
    cases h
  have hinf : x.isInfinite = false := by
    by_contra hcon
    rw [constantName?, if_neg (by simpa using hnan), if_pos (by simpa using hcon)] at h
    cases h
  have hle : x.code ≤ F.infinity := not_lt.1 (of_decide_eq_false hnan)
  have hne : x.code ≠ F.infinity := of_decide_eq_false hinf
  exact decide_eq_true (hle.lt_of_ne hne)

/-- The literal of a value: a constant, or the text of a finite value with the suffix of its
type. -/
def written (c : CodePoint) (decimal : ℕ → Decimal) (x : Binary F) : Text :=
  match x.constantName? with
  | some name => s.classPrefix ++ name
  | none => x.finiteText decimal ++ [c]

/-- The literal of a value denotes the value with the code that its digits are rounded to. -/
theorem written_denotes {c : CodePoint} (hc : c ∈ s.suffixes) {decimal : ℕ → Decimal} {r : ℕ → ℕ}
    (hround : ∀ code, 0 < code → code < F.infinity →
      F.round (decimal code).value = r code ∧ 0 < r code ∧ r code < F.infinity)
    (hzero : r 0 = 0) (hconstant : ∀ name y, constant? F name = some y → r y.code = y.code)
    (hx : x.isNaN = false) :
    ∃ e, floatExpression? s (x.written s c decimal) = some e
      ∧ ∀ y, e.Denotes y ↔ y.negative = x.negative ∧ y.code = r x.code := by
  unfold written
  cases hname : x.constantName? with
  | some name =>
    rcases constant?_constantName hname with ⟨hnan, -⟩ | ⟨-, hread⟩
    · exact absurd hnan (by simp [hx])
    · refine ⟨_, floatExpression?_constant s hread, fun y => ?_⟩
      rw [hconstant name x hread]
      exact Binary.ext_iff
  | none =>
    have hlt : x.code < F.infinity := of_decide_eq_true (isFinite_of_constantName hname)
    have hread : x.code ≠ 0 → F.round (decimal x.code).value = r x.code ∧ 0 < r x.code
        ∧ r x.code < F.infinity := fun h => hround x.code (Nat.pos_of_ne_zero h) hlt
    obtain ⟨e, hparsed, hdenotes⟩ := finiteText_denotes s decimal hc fun h => by
      rw [(hread h).1]
      exact (hread h).2
    refine ⟨e, hparsed, fun y => (hdenotes y).trans ?_⟩
    split_ifs with h
    · rw [h, hzero]
    · rw [(hread h).1]

end Binary

namespace Double

open Binary

theorem literal_eq_written (x : Double) :
    x.literal = x.written doubleSyntax (CodePoint.ofChar 'd') decimal := by
  unfold literal written
  cases x.constantName? <;> rfl

/-- Java reads the literal of a `double` as the value itself, with its sign, and as NaN if the value
is no number. -/
theorem literal_denotes (x : Double) :
    (x.isNaN → x.literal = Text.ofString "Double.NaN")
      ∧ (x.isNaN = false →
        ∃ e, floatExpression? doubleSyntax x.literal = some e ∧ ∀ y, e.Denotes y ↔ y = x) := by
  refine ⟨fun hnan => ?_, fun hx => ?_⟩
  · rw [literal, constantName?, if_pos hnan]
    rfl
  · obtain ⟨e, hread, hdenotes⟩ := written_denotes doubleSyntax (c := CodePoint.ofChar 'd')
      (by decide) (r := id)
      (fun code h0 hc => ⟨round_decimal h0 hc, h0, hc⟩) rfl (fun _ _ _ => rfl) hx
    rw [literal_eq_written]
    exact ⟨e, hread, fun y => (hdenotes y).trans Binary.ext_iff.symm⟩

end Double

end JavaLiteral
