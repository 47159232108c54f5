import JavaLiteral.Integer
import JavaLiteral.Proofs.Digits
import JavaLiteral.Proofs.Translation
import Mathlib.Data.Int.ModEq
import Mathlib.Data.List.TakeWhile

/-!
# Integer expressions

Java reads an integer expression as an integer literal, a boundary constant, a negation or a cast
(`integerExpression?`), and gives it a static type and a value unless a literal is out of its range
(`IntegerExpression.evaluate?`). A constant initialises a variable if the type of the variable is
wide enough or, short of `long`, if the variable holds the value (`Typed.initial?`).
-/

namespace JavaLiteral

namespace IntType

/-- The value of the type that is congruent to an integer: what a cast keeps of it. -/
def wrap (t : IntType) (v : ℤ) : ℤ := (v + t.half) % (2 * t.half) - t.half

theorem half_pos (t : IntType) : 0 < t.half := by
  cases t <;> decide

theorem two_mul_half (t : IntType) : 2 * t.half = 2 ^ (8 * t.bytes) := by
  cases t <;> rfl

theorem holds_iff {t : IntType} {v : ℤ} : t.holds v ↔ -t.half ≤ v ∧ v < t.half := by
  unfold holds
  rw [Bool.and_eq_true, decide_eq_true_iff, decide_eq_true_iff]
  unfold minValue maxValue
  omega

theorem wrap_of_holds {t : IntType} {v : ℤ} (h : t.holds v) : t.wrap v = v := by
  have hv := holds_iff.1 h
  unfold wrap
  rw [Int.emod_eq_of_lt (by omega) (by omega)]
  omega

theorem wrap_modEq (t : IntType) (v : ℤ) : t.wrap v ≡ v [ZMOD 2 * t.half] := by
  have h : (v + t.half) % (2 * t.half) ≡ v + t.half [ZMOD 2 * t.half] := Int.mod_modEq _ _
  simpa [wrap] using h.sub_right t.half

theorem holds_wrap (t : IntType) (v : ℤ) : t.holds (t.wrap v) := by
  have hp := t.half_pos
  have h0 := Int.emod_nonneg (v + t.half) (by omega : 2 * t.half ≠ 0)
  have h1 := Int.emod_lt_of_pos (v + t.half) (by omega : 0 < 2 * t.half)
  refine holds_iff.2 ?_
  unfold wrap
  omega

theorem eq_of_modEq {t : IntType} {v w : ℤ} (hv : t.holds v) (hw : t.holds w)
    (h : v ≡ w [ZMOD 2 * t.half]) : v = w := by
  have hp : v + t.half ≡ w + t.half [ZMOD 2 * t.half] := h.add_right _
  rw [← wrap_of_holds hv, ← wrap_of_holds hw]
  unfold wrap
  rw [hp]

end IntType

namespace Source

/-- A token of an integer expression. -/
inductive Token where
  | opening
  | closing
  | minus
  | word (w : Text)
deriving DecidableEq

/-- What keywords, numerals and names are made of: letters, digits, points and underscores. -/
def isWordPart (c : CodePoint) : Bool :=
  (0x30 ≤ c.val && c.val ≤ 0x39) || (0x41 ≤ c.val && c.val ≤ 0x5A)
    || (0x61 ≤ c.val && c.val ≤ 0x7A) || c.val = 0x2E || c.val = 0x5F

/-- The tokens of a text. Two minus signs in a row are no negation, but a token that is not
considered here. -/
def tokens? : Text → Option (List Token)
  | [] => some []
  | c :: cs =>
    if c = ' ' then tokens? cs
    else if c = '(' then (tokens? cs).map (.opening :: ·)
    else if c = ')' then (tokens? cs).map (.closing :: ·)
    else if c = '-' then
      if cs.head? = some (CodePoint.ofChar '-') then none else (tokens? cs).map (.minus :: ·)
    else if isWordPart c then
      (tokens? (cs.dropWhile isWordPart)).map (.word (c :: cs.takeWhile isWordPart) :: ·)
    else none
termination_by t => t.length
decreasing_by
  · simp
  · simp
  · simp
  · simp
  · have := (List.dropWhile_sublist (l := cs) isWordPart).length_le
    simp only [List.length_cons]
    omega

/-- An integer literal: the number its digits denote, whether they are decimal, and whether the
suffix of a `long` follows. -/
structure IntegerLiteral where
  magnitude : ℕ
  isDecimal : Bool
  isLong : Bool
deriving DecidableEq

/-- An integer expression, of those that need no operator but the minus sign and casts. -/
inductive IntegerExpression where
  | literal (l : IntegerLiteral)
  | constant (t : IntType) (value : ℤ)
  | negation (e : IntegerExpression)
  | cast (t : IntType) (e : IntegerExpression)
deriving DecidableEq

/-- A digit in a base up to sixteen, in either case. -/
def digit? (b : ℕ) (c : CodePoint) : Option ℕ := (hexDigit? c.val).filter (· < b)

/-- The digits of a text that consists of nothing else. -/
def digits? (b : ℕ) : Text → Option (List ℕ)
  | [] => some []
  | c :: cs => do
    let d ← digit? b c
    (digits? b cs).map (d :: ·)

/-- The magnitude of a numeral, and whether it is decimal. A decimal numeral has no zero in front;
octal and binary numerals and underscores are not considered. -/
def magnitude? (w : Text) : Option (ℕ × Bool) := do
  if w.take 2 = "0x" ∨ w.take 2 = "0X" then
    let ds ← digits? 16 (w.drop 2)
    if ds = [] then none else some (Digits.value 16 ds, false)
  else
    let ds ← digits? 10 w
    if ds = [] ∨ (ds.head? = some 0 ∧ ds.length ≠ 1) then none
    else some (Digits.value 10 ds, true)

/-- Whether a code point is the suffix of a `long`. -/
def isLongSuffix (c : CodePoint) : Bool := c = 'L' || c = 'l'

/-- The integer literal of a word. -/
def integerLiteral? (w : Text) : Option IntegerLiteral :=
  if w.getLast?.any isLongSuffix then
    (magnitude? w.dropLast).map fun (n, isDecimal) => ⟨n, isDecimal, true⟩
  else (magnitude? w).map fun (n, isDecimal) => ⟨n, isDecimal, false⟩

/-- The integer types in the order of their widths. -/
def integerTypes : List IntType := [.byte, .short, .int, .long]

/-- The class of the constants of a type. -/
def className : IntType → Text
  | .byte => "Byte"
  | .short => "Short"
  | .int => "Integer"
  | .long => "Long"

/-- The expression of a word: the greatest or least value of a type by its name, or a literal. -/
def word? (w : Text) : Option IntegerExpression :=
  match integerTypes.find? fun t => w = className t ++ Text.ofString ".MAX_VALUE" with
  | some t => some (.constant t t.maxValue)
  | none =>
    match integerTypes.find? fun t => w = className t ++ Text.ofString ".MIN_VALUE" with
    | some t => some (.constant t t.minValue)
    | none => (integerLiteral? w).map .literal

/-- The expression of tokens. -/
def expression? : List Token → Option IntegerExpression
  | .minus :: ts => (expression? ts).map .negation
  | .opening :: .word w :: .closing :: ts => do
    let t ← integerTypes.find? fun t => w = t.keyword
    (expression? ts).map (.cast t)
  | [.word w] => word? w
  | _ => none

/-- The integer expression of a text. -/
def integerExpression? (t : Text) : Option IntegerExpression := (tokens? t).bind expression?

/-- A value with its static type. -/
structure Typed where
  type : IntType
  value : ℤ
deriving DecidableEq

namespace Typed

/-- The negation of a value, which is an `int` or a `long`. -/
def neg (x : Typed) : Typed :=
  let t := if x.type = .long then .long else .int
  ⟨t, t.wrap (-x.value)⟩

/-- The value that a variable of a type gets from a constant, if Java accepts that. A type that is
not wider is widened; a constant short of `long` is narrowed to a type that holds it. -/
def initial? (x : Typed) (t : IntType) : Option ℤ :=
  if x.type.bytes ≤ t.bytes ∨ (x.type ≠ .long ∧ t.holds x.value) then some x.value else none

end Typed

/-- The type of a literal. -/
def IntegerLiteral.type (l : IntegerLiteral) : IntType := if l.isLong then .long else .int

/-- The value of a literal. Decimal digits denote a value of the type, hexadecimal ones the bits of
one. -/
def IntegerLiteral.evaluate? (l : IntegerLiteral) : Option Typed :=
  if l.isDecimal then
    if (l.magnitude : ℤ) ≤ l.type.maxValue then some ⟨l.type, l.magnitude⟩ else none
  else if (l.magnitude : ℤ) < 2 * l.type.half then some ⟨l.type, l.type.wrap l.magnitude⟩
  else none

namespace IntegerExpression

/-- The value of an expression, unless one of its literals is out of range. The magnitude of the
least value of a type is a decimal literal only directly after a minus sign. -/
def evaluate? : IntegerExpression → Option Typed
  | literal l => l.evaluate?
  | constant t v => some ⟨t, v⟩
  | negation (literal l) =>
    if l.isDecimal ∧ (l.magnitude : ℤ) = l.type.half then some ⟨l.type, l.type.minValue⟩
    else l.evaluate?.map Typed.neg
  | negation e => e.evaluate?.map Typed.neg
  | cast t e => e.evaluate?.map fun x => ⟨t, t.wrap x.value⟩

/-- The value that a variable of a type is initialised with, if Java accepts the expression for
that. -/
def initial? (e : IntegerExpression) (t : IntType) : Option ℤ := e.evaluate?.bind (·.initial? t)

end IntegerExpression

section Reading

theorem tokens?_word_append {w : Text} (rest : Text) (hne : w ≠ []) (h : ∀ c ∈ w, isWordPart c)
    (hrest : ∀ c ∈ rest.head?, isWordPart c = false) :
    tokens? (w ++ rest) = (tokens? rest).map (.word w :: ·) := by
  obtain ⟨c, cs, rfl⟩ := List.exists_cons_of_ne_nil hne
  have hc : isWordPart c := h c List.mem_cons_self
  have hcs : ∀ d ∈ cs, isWordPart d := fun d hd => h d (List.mem_cons_of_mem c hd)
  have hchar : ∀ d : Char, isWordPart (CodePoint.ofChar d) = false → c ≠ CodePoint.ofChar d := by
    rintro d hd rfl
    simp [hd] at hc
  have hdrop : rest.dropWhile isWordPart = rest := by
    cases rest with
    | nil => rfl
    | cons d ds => exact List.dropWhile_cons_of_neg (by simp [hrest d rfl])
  have htake : rest.takeWhile isWordPart = [] := by
    cases rest with
    | nil => rfl
    | cons d ds => exact List.takeWhile_cons_of_neg (by simp [hrest d rfl])
  rw [List.cons_append, tokens?, if_neg (hchar ' ' (by decide)), if_neg (hchar '(' (by decide)),
    if_neg (hchar ')' (by decide)), if_neg (hchar '-' (by decide)), if_pos hc,
    List.dropWhile_append_of_pos hcs, List.takeWhile_append_of_pos hcs, hdrop, htake,
    List.append_nil]

theorem tokens?_word {w : Text} (hne : w ≠ []) (h : ∀ c ∈ w, isWordPart c) :
    tokens? w = some [.word w] := by
  have := tokens?_word_append [] hne h (by simp)
  rwa [List.append_nil, tokens?] at this

theorem tokens?_minus {w : Text} (h : w.head? ≠ some (CodePoint.ofChar '-')) :
    tokens? (CodePoint.ofChar '-' :: w) = (tokens? w).map (.minus :: ·) := by
  rw [tokens?, if_neg (by decide), if_neg (by decide), if_neg (by decide), if_pos rfl, if_neg h]

theorem tokens?_parenthesized {k : Text} (hne : k ≠ []) (hk : ∀ c ∈ k, isWordPart c) (w : Text) :
    tokens? (Text.ofString "(" ++ k ++ Text.ofString ") " ++ w)
      = (tokens? w).map fun ts => .opening :: .word k :: .closing :: ts := by
  have hopen : Text.ofString "(" ++ k ++ Text.ofString ") " ++ w = CodePoint.ofChar '('
      :: (k ++ CodePoint.ofChar ')' :: CodePoint.ofChar ' ' :: w) := by
    simp [Text.ofString]
  have hword : tokens? (k ++ CodePoint.ofChar ')' :: CodePoint.ofChar ' ' :: w)
      = (tokens? (CodePoint.ofChar ')' :: CodePoint.ofChar ' ' :: w)).map (.word k :: ·) :=
    tokens?_word_append _ hne hk (by simp; decide)
  rw [hopen, tokens?, if_neg (by decide), if_pos rfl, hword, tokens?, if_neg (by decide),
    if_neg (by decide), if_pos rfl, tokens?, if_pos rfl]
  cases tokens? w <;> rfl

theorem tokens?_castToken (t : IntType) (w : Text) :
    tokens? (t.castToken ++ w)
      = (tokens? w).map fun ts => .opening :: .word t.keyword :: .closing :: ts :=
  tokens?_parenthesized (by cases t <;> decide) (by cases t <;> decide) w

theorem digit?_digitChar {b d : ℕ} (hb : b ≤ 16) (hd : d < b) :
    digit? b (CodePoint.ofChar d.digitChar) = some d := by
  simp [digit?, hexDigit?_digitChar d (by omega), hd]

theorem digits?_text {b : ℕ} (hb : b ≤ 16) {ds : List ℕ} (h : ∀ d ∈ ds, d < b) :
    digits? b (Digits.text ds) = some ds := by
  induction ds with
  | nil => rfl
  | cons d ds ih =>
    have hdigit := digit?_digitChar hb (h d List.mem_cons_self)
    have ih := ih fun e he => h e (List.mem_cons_of_mem d he)
    simp only [Digits.text] at ih
    simp [Digits.text, digits?, hdigit, ih]

theorem digitChar_facts : ∀ d < 16, isWordPart (CodePoint.ofChar d.digitChar)
    ∧ CodePoint.ofChar d.digitChar ≠ 'x' ∧ CodePoint.ofChar d.digitChar ≠ 'X'
    ∧ CodePoint.ofChar d.digitChar ≠ '-' ∧ isLongSuffix (CodePoint.ofChar d.digitChar) = false := by
  decide

/-- A word that is the numeral of a magnitude. -/
structure IsNumeral (w : Text) (n : ℕ) (isDecimal : Bool) : Prop where
  head : ∃ d < 16, w.head? = some (CodePoint.ofChar d.digitChar)
  parts : ∀ c ∈ w, isWordPart c ∧ isLongSuffix c = false
  magnitude : magnitude? w = some (n, isDecimal)

theorem isNumeral_decimal (n : ℕ) : IsNumeral (Text.numeral 10 n) n true := by
  have hlt : ∀ d ∈ Digits.digitsOf 10 n, d < 10 := fun d =>
    Digits.lt_of_mem_digitsOf (by decide)
  have hdigits := digits?_text (by decide) hlt
  have hvalue := Digits.value_digitsOf 10 n
  have hhead := Digits.digitsOf_head (b := 10) (n := n)
  have hne := Digits.digitsOf_ne_nil 10 n
  rw [Digits.numeral_eq (by decide)]
  generalize Digits.digitsOf 10 n = ds at *
  have hfacts : ∀ c ∈ Digits.text ds,
      isWordPart c ∧ c ≠ 'x' ∧ c ≠ 'X' ∧ isLongSuffix c = false := by
    intro c hc
    obtain ⟨d, hd, rfl⟩ := List.mem_map.1 hc
    obtain ⟨h1, h2, h3, -, h5⟩ := digitChar_facts d (by have := hlt d hd; omega)
    exact ⟨h1, h2, h3, h5⟩
  refine ⟨?_, fun c hc => ⟨(hfacts c hc).1, (hfacts c hc).2.2.2⟩, ?_⟩
  · obtain ⟨d, es, rfl⟩ := List.exists_cons_of_ne_nil hne
    exact ⟨d, by have := hlt d List.mem_cons_self; omega, rfl⟩
  · have hx : ¬((Digits.text ds).take 2 = "0x" ∨ (Digits.text ds).take 2 = "0X") := by
      rintro (h | h)
      · have hmem : CodePoint.ofChar 'x' ∈ (Digits.text ds).take 2 := by rw [h]; decide
        exact (hfacts _ (List.mem_of_mem_take hmem)).2.1 rfl
      · have hmem : CodePoint.ofChar 'X' ∈ (Digits.text ds).take 2 := by rw [h]; decide
        exact (hfacts _ (List.mem_of_mem_take hmem)).2.2.1 rfl
    have hzero : ¬(ds = [] ∨ (ds.head? = some 0 ∧ ds.length ≠ 1)) := by
      rintro (h | ⟨h, h1⟩)
      · exact hne h
      · exact h1 (hhead h)
    rw [magnitude?, if_neg hx, hdigits, Option.bind_eq_bind, Option.bind_some, if_neg hzero, hvalue]

theorem isNumeral_hexadecimal {ds : List ℕ} (hne : ds ≠ []) (hlt : ∀ d ∈ ds, d < 16) :
    IsNumeral (Text.ofString "0x" ++ Digits.text ds) (Digits.value 16 ds) false := by
  refine ⟨⟨0, by decide, rfl⟩, fun c hc => ?_, ?_⟩
  · rcases List.mem_append.1 hc with hc | hc
    · have hx : ∀ c ∈ Text.ofString "0x", isWordPart c ∧ isLongSuffix c = false := by decide
      exact hx c hc
    · obtain ⟨d, hd, rfl⟩ := List.mem_map.1 hc
      obtain ⟨h1, -, -, -, h5⟩ := digitChar_facts d (hlt d hd)
      exact ⟨h1, h5⟩
  · have htake : (Text.ofString "0x" ++ Digits.text ds).take 2 = "0x" := rfl
    have hdrop : (Text.ofString "0x" ++ Digits.text ds).drop 2 = Digits.text ds := rfl
    rw [magnitude?, if_pos (.inl htake), hdrop, digits?_text (by decide) hlt,
      Option.bind_eq_bind, Option.bind_some, if_neg hne]

/-- The suffix of a `long`, or nothing. -/
def suffix (isLong : Bool) : Text := if isLong then Text.ofString "L" else []

variable {w : Text} {n : ℕ} {isDecimal : Bool}

theorem IsNumeral.ne_nil (h : IsNumeral w n isDecimal) : w ≠ [] := by
  obtain ⟨d, -, hd⟩ := h.head
  rintro rfl
  simp at hd

theorem integerLiteral?_suffix (h : IsNumeral w n isDecimal) (isLong : Bool) :
    integerLiteral? (w ++ suffix isLong) = some ⟨n, isDecimal, isLong⟩ := by
  unfold integerLiteral?
  cases isLong
  · have hlast : ¬w.getLast?.any isLongSuffix := by
      rw [List.getLast?_eq_some_getLast h.ne_nil]
      simp [(h.parts _ (List.getLast_mem h.ne_nil)).2]
    rw [show w ++ suffix false = w from List.append_nil w, if_neg hlast, h.magnitude]
    rfl
  · have hlast : (w ++ suffix true).getLast?.any isLongSuffix := by
      simp [suffix, Text.ofString, isLongSuffix]
    have hdrop : (w ++ suffix true).dropLast = w := by
      simp [suffix, Text.ofString]
    rw [if_pos hlast, hdrop, h.magnitude]
    rfl

theorem word?_suffix (h : IsNumeral w n isDecimal) (isLong : Bool) :
    word? (w ++ suffix isLong) = some (.literal ⟨n, isDecimal, isLong⟩) := by
  have hname : ∀ t u, w ++ suffix isLong ≠ className t ++ u := by
    intro t u heq
    obtain ⟨d, hd, hhead⟩ := h.head
    have hall : ∀ d < 16, some (CodePoint.ofChar d.digitChar) ≠ (className t).head? := by
      cases t <;> decide
    have hcls : className t ≠ [] := by
      cases t <;> decide
    apply hall d hd
    rw [← hhead, ← List.head?_append_of_ne_nil _ h.ne_nil, heq, List.head?_append_of_ne_nil _ hcls]
  unfold word?
  rw [List.find?_eq_none.2 fun t _ => by simpa using hname t _,
    List.find?_eq_none.2 fun t _ => by simpa using hname t _, integerLiteral?_suffix h]
  rfl

theorem integerExpression?_suffix (h : IsNumeral w n isDecimal) (isLong : Bool) :
    integerExpression? (w ++ suffix isLong) = some (.literal ⟨n, isDecimal, isLong⟩) := by
  have hparts : ∀ c ∈ w ++ suffix isLong, isWordPart c := by
    intro c hc
    rcases List.mem_append.1 hc with hc | hc
    · exact (h.parts c hc).1
    · have hs : ∀ c ∈ suffix isLong, isWordPart c := by cases isLong <;> decide
      exact hs c hc
  rw [integerExpression?, tokens?_word (List.append_ne_nil_of_left_ne_nil h.ne_nil _) hparts]
  exact word?_suffix h isLong

theorem integerExpression?_minus (h : w.head? ≠ some (CodePoint.ofChar '-')) :
    integerExpression? (CodePoint.ofChar '-' :: w) = (integerExpression? w).map .negation := by
  rw [integerExpression?, integerExpression?, tokens?_minus h]
  cases tokens? w <;> rfl

theorem integerExpression?_castToken (t : IntType) (w : Text) :
    integerExpression? (t.castToken ++ w) = (integerExpression? w).map (.cast t) := by
  rw [integerExpression?, integerExpression?, tokens?_castToken]
  cases tokens? w with
  | none => rfl
  | some ts => cases t <;> rfl

end Reading

end Source

end JavaLiteral
