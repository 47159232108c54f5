import JavaLiteral.Proofs.JsonReading
import JavaLiteral.Proofs.Translation

/-!
# Values are read back

The JSON of a text, a boolean or a counted integer is read as that value, where something follows
that ends a number (`Json.IsReadAs`).
-/

namespace JavaLiteral.Json

open Source

section Strings

variable {c : CodePoint} (rest : Text)

theorem hexDigit?_ofChar_digitChar :
    ∀ d < 16, hexDigit? (CodePoint.ofChar (Nat.digitChar d)) = some d := by
  decide

theorem readUnit_paddedNumeral {u : ℕ} (hu : u < 0x10000) :
    readUnit (Text.paddedNumeral 16 4 u ++ rest) = some (u, rest) := by
  have h := fun n : ℕ => hexDigit?_ofChar_digitChar (n % 16) (Nat.mod_lt _ (by decide))
  rw [paddedNumeral_eq hu]
  simp only [unitDigits, List.map_cons, List.map_nil, List.cons_append, List.nil_append, readUnit,
    List.mapM_cons, List.mapM_nil, h, Option.pure_def, Option.bind_eq_bind, Option.bind_some,
    List.foldl_cons, List.foldl_nil]
  congr 2
  omega

theorem paired?_eq_none {high low : ℕ} (h : ¬(0xD800 ≤ high ∧ high ≤ 0xDFFF)) :
    paired? high low = none := if_neg (by omega)

/-- A unit that is no surrogate is a code point of its own, whatever follows it. -/
theorem readUnits_of_not_surrogate {t : Text} (hc : ¬(0xD800 ≤ c.val ∧ c.val ≤ 0xDFFF))
    (h : readUnit t = some (c.val, rest)) : readUnits t = some (c, rest) := by
  have hof : CodePoint.ofNat? c.val = some c := CodePoint.ofNat?_eq_some.2 rfl
  unfold readUnits
  rw [h]
  simp only [Option.bind_eq_bind, Option.bind_some]
  cases expect (Text.ofString "\\u") rest with
  | none => simp only [Option.bind_none, hof, Option.bind_some]
  | some r =>
    cases hlow : readUnit r.2 with
    | none => simp only [Option.bind_some, hlow, Option.bind_none, hof]
    | some s => simp only [Option.bind_some, hlow, paired?_eq_none hc, Option.bind_none, hof]

/-- A pair of surrogates is the code point that it stands for. -/
theorem readUnits_pair {t after : Text} {high low : ℕ} (h : readUnit t = some (high, after))
    (hafter : ∃ u, expect (Text.ofString "\\u") after = some ((), u)
      ∧ readUnit u = some (low, rest))
    (hpair : paired? high low = some c) : readUnits t = some (c, rest) := by
  obtain ⟨u, hu, hlow⟩ := hafter
  unfold readUnits
  rw [h]
  simp only [Option.bind_eq_bind, Option.bind_some, hu, hlow, hpair]

/-- The escapes of a code point are read as the code point. -/
theorem readCodePoint_unicodeEscape (hc : c.isSurrogate = false) :
    readCodePoint (c.unicodeEscape ++ rest) = some (c, rest) := by
  have hs : ¬(0xD800 ≤ c.val ∧ c.val ≤ 0xDFFF) := by
    simpa [CodePoint.isSurrogate] using hc
  have hlt := c.val_lt
  have hescape : ∀ u t, readCodePoint (CodePoint.unitEscape u ++ t)
      = readUnits (Text.paddedNumeral 16 4 u ++ t) := fun _ _ => rfl
  have hnext : ∀ u t, expect (Text.ofString "\\u") (CodePoint.unitEscape u ++ t)
      = some ((), Text.paddedNumeral 16 4 u ++ t) := fun _ _ => rfl
  rw [c.unicodeEscape_eq_flatMap]
  unfold CodePoint.units
  split_ifs with h
  · rw [List.flatMap_singleton, hescape]
    exact readUnits_of_not_surrogate rest hs (readUnit_paddedNumeral rest h)
  · rw [List.flatMap_cons, List.flatMap_singleton, List.append_assoc, hescape]
    refine readUnits_pair rest (readUnit_paddedNumeral _ (by omega))
      ⟨_, hnext _ _, readUnit_paddedNumeral rest (by omega)⟩ ?_
    rw [paired?, if_pos ⟨by omega, by omega, by omega, by omega⟩]
    exact CodePoint.ofNat?_eq_some.2 (by omega)

theorem readCodePoint_raw (hquote : c ≠ '"') (hbackslash : c ≠ '\\') (hc : c.val ≠ 0) :
    readCodePoint (c :: rest) = some (c, rest) := by
  unfold readCodePoint
  dsimp only
  rw [if_neg hbackslash, if_neg (not_or.2 ⟨hquote, hc⟩)]

/-- What stands for a code point in a string is read as the code point. -/
theorem readCodePoint_escaped (hc : c.isSurrogate = false) :
    readCodePoint (escaped c ++ rest) = some (c, rest) := by
  unfold escaped
  split_ifs with h1 h2 h3 h4 h5 h6 h7 h8
  · rw [h1]; rfl
  · rw [h2]; rfl
  · rw [h3]; rfl
  · rw [h4]; rfl
  · rw [h5]; rfl
  · rw [h6]; rfl
  · rw [h7]; rfl
  · exact readCodePoint_unicodeEscape rest hc
  · exact readCodePoint_raw rest h1 h2 (by omega)

/-- The quote that ends a string does not start what stands for a code point in it. -/
theorem exists_escaped_eq_cons (c : CodePoint) : ∃ d ds, escaped c = d :: ds ∧ d ≠ '"' := by
  have hunit : ∀ u, CodePoint.unitEscape u
      = CodePoint.ofChar '\\' :: (CodePoint.ofChar 'u' :: Text.paddedNumeral 16 4 u) :=
    fun _ => rfl
  have hunicode : ∃ ds, c.unicodeEscape = CodePoint.ofChar '\\' :: ds := by
    rw [c.unicodeEscape_eq_flatMap]
    unfold CodePoint.units
    split_ifs
    · exact ⟨_, by rw [List.flatMap_cons, hunit, List.cons_append]⟩
    · exact ⟨_, by rw [List.flatMap_cons, hunit, List.cons_append]⟩
  have hletter : ∀ d, ∃ e es, [CodePoint.ofChar '\\', d] = e :: es ∧ e ≠ '"' := fun d =>
    ⟨_, _, rfl, by decide⟩
  unfold escaped
  split_ifs with h1 h2 h3 h4 h5 h6 h7 h8
  · exact hletter '"'
  · exact hletter '\\'
  · exact hletter 'b'
  · exact hletter 'f'
  · exact hletter 'n'
  · exact hletter 'r'
  · exact hletter 't'
  · obtain ⟨ds, hds⟩ := hunicode
    exact ⟨_, ds, hds, by decide⟩
  · exact ⟨c, [], rfl, h1⟩

theorem readString_flatMap {t : Text} (ht : t.IsEncodable) {fuel : ℕ} (hfuel : t.length < fuel) :
    readString fuel (t.flatMap escaped ++ CodePoint.ofChar '"' :: rest) = some (t, rest) := by
  induction t generalizing fuel with
  | nil =>
    obtain ⟨k, rfl⟩ := Nat.exists_eq_add_one.2 hfuel
    rfl
  | cons c cs ih =>
    obtain ⟨k, rfl⟩ := Nat.exists_eq_add_one.2 (Nat.zero_lt_of_lt hfuel)
    obtain ⟨d, ds, hd, hne⟩ := exists_escaped_eq_cons c
    have hread := readCodePoint_escaped (cs.flatMap escaped ++ CodePoint.ofChar '"' :: rest)
      (ht c List.mem_cons_self)
    have ih := ih (fun e he => ht e (List.mem_cons_of_mem _ he)) (Nat.lt_of_succ_lt_succ hfuel)
    rw [List.flatMap_cons, List.append_assoc]
    rw [hd, List.cons_append] at hread ⊢
    rw [readString, if_neg hne, hread]
    simp only [Option.bind_eq_bind, Option.bind_some, ih]

theorem length_le_flatMap_escaped (t : Text) : t.length ≤ (t.flatMap escaped).length := by
  induction t with
  | nil => exact le_rfl
  | cons c cs ih =>
    obtain ⟨d, ds, hd, -⟩ := exists_escaped_eq_cons c
    rw [List.flatMap_cons, List.length_append, hd, List.length_cons, List.length_cons]
    omega

theorem readText_flatMap {t : Text} (ht : t.IsEncodable) :
    readText (t.flatMap escaped ++ CodePoint.ofChar '"' :: rest) = some (t, rest) := by
  refine readString_flatMap rest ht ?_
  have := length_le_flatMap_escaped t
  rw [List.length_append]
  omega

end Strings

section Numbers

variable {rest : Text} {ds : List ℕ} {n : ℕ}

theorem isDigit_of_mem_text (hds : ∀ d ∈ ds, d < 10) {c : CodePoint} (h : c ∈ Digits.text ds) :
    c.isDigit := by
  have hdigit : ∀ d < 10, (CodePoint.ofChar (Nat.digitChar d)).isDigit := by decide
  obtain ⟨d, hd, rfl⟩ := List.mem_map.1 h
  exact hdigit d (hds d hd)

theorem digits_text (hds : ∀ d ∈ ds, d < 10) (hrest : ∀ c ∈ rest.head?, c.isDigit = false) :
    Numeral.digits (Digits.text ds ++ rest) = (Digits.text ds, rest) := by
  have hall : ∀ c ∈ Digits.text ds, c.isDigit = true := fun c => isDigit_of_mem_text hds
  unfold Numeral.digits
  rw [List.takeWhile_append_of_pos hall, List.dropWhile_append_of_pos hall]
  cases rest with
  | nil => simp
  | cons c cs =>
    have hc := hrest c rfl
    simp [hc]

theorem valueOf_text (hds : ∀ d ∈ ds, d < 10) :
    Numeral.valueOf (Digits.text ds) = Digits.value 10 ds := by
  have hdigit : ∀ d < 10, (CodePoint.ofChar (Nat.digitChar d)).val - 0x30 = d := by decide
  have hrun : ∀ m, (Digits.text ds).foldl (fun n c => 10 * n + (c.val - 0x30)) m
      = ds.foldl (fun n d => d + 10 * n) m := by
    induction ds with
    | nil => exact fun _ => rfl
    | cons d ds ih =>
      intro m
      change List.foldl _ _ (Digits.text ds) = _
      rw [List.foldl_cons]
      dsimp only
      rw [hdigit d (hds d List.mem_cons_self), Nat.add_comm,
        ih fun e he => hds e (List.mem_cons_of_mem _ he)]
  unfold Numeral.valueOf
  rw [hrun, Digits.value, Nat.ofDigits_eq_foldr, List.foldr_reverse]
  rfl

theorem lt_of_mem_digitsOf_ten {d : ℕ} : d ∈ Digits.digitsOf 10 n → d < 10 :=
  Digits.lt_of_mem_digitsOf (by decide)

theorem digits_numeral (hrest : ∀ c ∈ rest.head?, c.isDigit = false) :
    Numeral.digits (Text.numeral 10 n ++ rest) = (Text.numeral 10 n, rest) := by
  rw [Digits.numeral_eq (by decide), digits_text (fun _ => lt_of_mem_digitsOf_ten) hrest]

theorem valueOf_numeral (n : ℕ) : Numeral.valueOf (Text.numeral 10 n) = n := by
  rw [Digits.numeral_eq (by decide), valueOf_text fun _ => lt_of_mem_digitsOf_ten,
    Digits.value_digitsOf]

/-- What follows an integer in a row: no digit, no point and no exponent. -/
def EndsNumber (rest : Text) : Prop :=
  ∃ c cs, rest = c :: cs ∧ c.isDigit = false ∧ c ≠ '.' ∧ c ≠ 'e' ∧ c ≠ 'E'

theorem readNumber_numeral {negative : Bool} (hn : n ≤ greatestCount negative)
    (hrest : EndsNumber rest) :
    readNumber negative (Text.numeral 10 n ++ rest)
      = some (.int (if negative then -n else n), rest) := by
  obtain ⟨c, cs, rfl, hdigit, hpoint, he, hE⟩ := hrest
  have hdigits : Numeral.digits (Text.numeral 10 n ++ c :: cs) = (Text.numeral 10 n, c :: cs) :=
    digits_numeral fun d hd => by rwa [← Option.some.inj hd]
  have hwhole : whole? negative (Text.numeral 10 n) = some n := by
    rw [whole?_eq_some, valueOf_numeral]
    rwa [valueOf_numeral]
  unfold readNumber
  dsimp only
  rw [hdigits, hwhole]
  simp [readFraction, readExponent, hpoint, he, hE]

end Numbers

/-- A text that is read as a value where a number may end. -/
def IsReadAs (t : Text) (v : Json) : Prop :=
  ∀ fuel levels rest, EndsNumber rest → readValue (fuel + 1) levels (t ++ rest) = some (v, rest)

section Values

variable {c : CodePoint}

theorem skipBlanks_cons (hc : isBlank c = false) (cs : Text) : skipBlanks (c :: cs) = c :: cs := by
  rw [skipBlanks, List.dropWhile_cons, hc]
  rfl

theorem readValue_cons (hblank : isBlank c = false) (hlist : c ≠ '[') (hobject : c ≠ '\x7B')
    (fuel levels : ℕ) (cs : Text) : readValue (fuel + 1) levels (c :: cs) = readScalar c cs := by
  rw [readValue, skipBlanks_cons hblank]
  dsimp only
  rw [if_neg hlist, if_neg hobject]

theorem isReadAs_text {t u : Text} (h : quoted t = .ok u) : IsReadAs u (.text t) := by
  obtain ⟨ht, rfl⟩ := eq_of_quoted_eq_ok h
  intro fuel levels rest _
  rw [List.cons_append, List.cons_append, readValue_cons (by decide) (by decide) (by decide),
    readScalar, if_pos rfl, List.append_assoc, List.singleton_append, readText_flatMap rest ht]
  rfl

theorem isReadAs_bool (b : Bool) : IsReadAs (Row.truthText b) (.bool b) := by
  intro fuel levels rest _
  cases b
  · exact readValue_cons (c := 'f') (by decide) (by decide) (by decide) _ _ _
  · exact readValue_cons (c := 't') (by decide) (by decide) (by decide) _ _ _

/-- A digit is none of the characters that start another value. -/
theorem readScalar_digit (hc : c.isDigit) (cs : Text) :
    isBlank c = false ∧ c ≠ '[' ∧ c ≠ '\x7B' ∧ readScalar c cs = readNumber false (c :: cs) := by
  have hne : ∀ d : Char, (CodePoint.ofChar d).isDigit = false → c ≠ d := by
    rintro d hd rfl
    rw [hd] at hc
    cases hc
  refine ⟨?_, hne _ (by decide), hne _ (by decide), ?_⟩
  · unfold isBlank
    simp [hne ' ' (by decide), hne '\t' (by decide), hne '\n' (by decide), hne '\r' (by decide)]
  · unfold readScalar
    rw [if_neg (hne _ (by decide)), if_neg (hne _ (by decide)), if_neg (hne _ (by decide)),
      if_neg (hne _ (by decide)), if_neg (hne _ (by decide)), if_pos hc]

/-- Whatever is read after a minus sign as a number is a value with it. -/
theorem isReadAs_minus {t : Text} {v : Json}
    (h : ∀ rest, EndsNumber rest → readNumber true (t ++ rest) = some (v, rest)) :
    IsReadAs (CodePoint.ofChar '-' :: t) v := by
  intro fuel levels rest hrest
  rw [List.cons_append, readValue_cons (by decide) (by decide) (by decide), readScalar,
    if_neg (by decide), if_pos rfl, h rest hrest]

/-- Whatever is read as a number from its first digit on is a value. -/
theorem isReadAs_digit {c : CodePoint} (hc : c.isDigit) {t : Text} {v : Json}
    (h : ∀ rest, EndsNumber rest → readNumber false (c :: t ++ rest) = some (v, rest)) :
    IsReadAs (c :: t) v := by
  intro fuel levels rest hrest
  obtain ⟨hblank, hlist, hobject, hscalar⟩ := readScalar_digit hc (t ++ rest)
  rw [List.cons_append, readValue_cons hblank hlist hobject, hscalar]
  exact h rest hrest

theorem isReadAs_int {n : ℤ} (hn : IsCounted n) : IsReadAs (Text.ofInt n) (.int n) := by
  unfold IsCounted at hn
  unfold Text.ofInt
  split_ifs with hneg
  · refine isReadAs_minus fun rest hrest => ?_
    rw [readNumber_numeral (by unfold greatestCount; rw [if_pos rfl]; omega) hrest, if_pos rfl]
    congr 3
    omega
  · obtain ⟨c, cs, hcs⟩ : ∃ c cs, Text.numeral 10 n.natAbs = c :: cs :=
      List.exists_cons_of_ne_nil (by
        rw [Digits.numeral_eq (by decide), Digits.text]
        simpa using Digits.digitsOf_ne_nil 10 n.natAbs)
    have hc : c.isDigit := by
      refine isDigit_of_mem_text (fun _ => lt_of_mem_digitsOf_ten (n := n.natAbs)) ?_
      rw [← Digits.numeral_eq (by decide), hcs]
      exact List.mem_cons_self
    rw [hcs]
    refine isReadAs_digit hc fun rest hrest => ?_
    rw [← hcs, readNumber_numeral (by
      unfold greatestCount
      rw [if_neg (by decide)]
      omega) hrest, if_neg (by decide)]
    congr 3
    omega

end Values

end JavaLiteral.Json
