import JavaLiteral.Floating
import JavaLiteral.Proofs.DecimalDigits
import JavaLiteral.Proofs.DecimalGrid
import JavaLiteral.Proofs.IntegerExpression

/-!
# Floating-point expressions

Java reads a floating-point expression as a decimal literal with the suffix of its type, a constant
of the class of the type, or the negation of one (`floatExpression?`). The value of a literal is the
nearest one of the type, and neither infinite nor, unless the literal is zero itself, zero
(`FloatExpression.Denotes`).

What this library writes for a value that is not finite, or is an end of the range, is a constant
(`floatExpression?_constantName`); for every other value it is a literal of the digits chosen for
it (`floatExpression?_finiteText`).
-/

namespace JavaLiteral

namespace Binary

variable {F : Format}

/-- The value with the other sign. -/
def neg (x : Binary F) : Binary F := ⟨!x.negative, x.code, x.code_lt⟩

theorem neg_eq_iff {x y : Binary F} : y = x.neg ↔ y.negative = !x.negative ∧ y.code = x.code :=
  Binary.ext_iff

end Binary

namespace Source

open Binary

/-- A floating-point expression, of those that need no operator but the minus sign. -/
inductive FloatExpression (F : Format) where
  | literal (d : Decimal)
  | constant (x : Binary F)
  | negation (e : FloatExpression F)

/-- Whether an expression is legal and has a value. A literal has the nearest one, but must not be
rounded to infinity, nor to zero if it has a digit that is not zero. -/
def FloatExpression.Denotes {F : Format} : FloatExpression F → Binary F → Prop
  | literal d, y =>
    y.negative = false ∧ F.IsNearest d.value y.code ∧ y.isFinite ∧ (y.isZero → d.value = 0)
  | constant x, y => y = x
  | negation e, y => ∃ x, e.Denotes x ∧ y = x.neg

/-- What tells the source of a floating-point type: the name of its class, with the point after it,
and its suffix in both cases. -/
structure FloatSyntax (F : Format) where
  classPrefix : Text
  suffixes : List CodePoint
  head : ∃ c ∈ classPrefix.head?, c ≠ '-' ∧ digit? 10 c = none

/-- The source of the type `double`. -/
def doubleSyntax : FloatSyntax Format.double :=
  ⟨Text.ofString "Double.", [CodePoint.ofChar 'd', CodePoint.ofChar 'D'], 'D', by decide⟩

/-- The source of the type `float`. -/
def floatSyntax : FloatSyntax Format.single :=
  ⟨Text.ofString "Float.", [CodePoint.ofChar 'f', CodePoint.ofChar 'F'], 'F', by decide⟩

/-- The constant of a name. -/
def constant? (F : Format) (name : Text) : Option (Binary F) :=
  if name = "NaN" then some (nan false)
  else if name = "NEGATIVE_INFINITY" then some (infinite true)
  else if name = "POSITIVE_INFINITY" then some (infinite false)
  else if name = "MIN_VALUE" then some ⟨false, 1, Nat.lt_of_le_of_lt F.infinity_pos F.infinity_lt⟩
  else if name = "MAX_VALUE" then
    some ⟨false, F.infinity - 1, (Nat.sub_le _ _).trans_lt F.infinity_lt⟩
  else if name = "MIN_NORMAL" then
    some ⟨false, F.binade, F.infinity_add_binade ▸ Nat.lt_add_of_pos_left F.infinity_pos⟩
  else none

/-- The decimal digits at the start of a text, and what follows them. -/
def digitRun : Text → List ℕ × Text
  | [] => ([], [])
  | c :: cs =>
    match digit? 10 c with
    | some d => (d :: (digitRun cs).1, (digitRun cs).2)
    | none => ([], c :: cs)

/-- The exponent that follows the digits of a literal, if it follows them at all. -/
def exponentPart? : Text → Option ℤ
  | [] => some 0
  | c :: cs =>
    if c = 'e' ∨ c = 'E' then
      let negative := cs.head? = some (CodePoint.ofChar '-')
      let signed := negative ∨ cs.head? = some (CodePoint.ofChar '+')
      let (ds, rest) := digitRun (if signed then cs.drop 1 else cs)
      if ds = [] ∨ rest ≠ [] then none
      else some (if negative then -Digits.value 10 ds else Digits.value 10 ds)
    else none

/-- The decimal of a literal before its suffix. There is a digit before the point or after it. -/
def decimalLiteral? (t : Text) : Option Decimal :=
  let (whole, rest) := digitRun t
  let (fraction, rest) :=
    if rest.head? = some (CodePoint.ofChar '.') then digitRun (rest.drop 1) else ([], rest)
  if whole = [] ∧ fraction = [] then none
  else (exponentPart? rest).map fun e => ⟨Digits.value 10 (whole ++ fraction), e - fraction.length⟩

variable {F : Format}

/-- The expression of a text without a minus sign. A literal without a suffix is not considered. -/
def floatOperand? (s : FloatSyntax F) (t : Text) : Option (FloatExpression F) :=
  if s.classPrefix.isPrefixOf t then
    (constant? F (t.drop s.classPrefix.length)).map .constant
  else if t.getLast?.any (· ∈ s.suffixes) then (decimalLiteral? t.dropLast).map .literal
  else none

/-- The floating-point expression of a text. -/
def floatExpression? (s : FloatSyntax F) (t : Text) : Option (FloatExpression F) :=
  if t.head? = some (CodePoint.ofChar '-') then (floatOperand? s (t.drop 1)).map .negation
  else floatOperand? s t

section Denotes

variable {d : Decimal} {x y : Binary F}

theorem denotes_literal_iff (hfinite : F.round d.value < F.infinity)
    (hzero : F.round d.value = 0 → d.value = 0) :
    (FloatExpression.literal d).Denotes y ↔ y.negative = false ∧ y.code = F.round d.value := by
  unfold FloatExpression.Denotes
  rw [Format.isNearest_iff d.value_nonneg]
  refine ⟨fun h => ⟨h.1, h.2.1.symm⟩, fun ⟨h1, h2⟩ => ⟨h1, h2.symm, ?_, fun h => ?_⟩⟩
  · rw [isFinite, h2]
    exact decide_eq_true hfinite
  · refine hzero ?_
    rw [← h2]
    exact of_decide_eq_true h

theorem denotes_signed_iff (negative : Bool) (hfinite : F.round d.value < F.infinity)
    (hzero : F.round d.value = 0 → d.value = 0) :
    (if negative then FloatExpression.negation (.literal d) else .literal d).Denotes y
      ↔ y.negative = negative ∧ y.code = F.round d.value := by
  cases negative
  · exact denotes_literal_iff hfinite hzero
  · simp only [if_true, FloatExpression.Denotes.eq_3]
    constructor
    · rintro ⟨x, hx, rfl⟩
      obtain ⟨h1, h2⟩ := (denotes_literal_iff hfinite hzero).1 hx
      exact ⟨by rw [neg, h1]; rfl, h2⟩
    · rintro ⟨h1, h2⟩
      refine ⟨y.neg, (denotes_literal_iff hfinite hzero).2 ⟨by rw [neg, h1]; rfl, h2⟩, ?_⟩
      rw [neg_eq_iff, neg, Bool.not_not]
      exact ⟨rfl, rfl⟩

end Denotes

section Reading

open Digits

theorem digitRun_text {ds : List ℕ} (h : ∀ d ∈ ds, d < 10) (rest : Text)
    (hrest : ∀ c ∈ rest.head?, digit? 10 c = none) : digitRun (text ds ++ rest) = (ds, rest) := by
  induction ds with
  | nil =>
    cases rest with
    | nil => rfl
    | cons c cs =>
      change digitRun (c :: cs) = _
      rw [digitRun, hrest c rfl]
  | cons d ds ih =>
    change digitRun (CodePoint.ofChar d.digitChar :: (text ds ++ rest)) = _
    rw [digitRun, digit?_digitChar (by decide) (h d List.mem_cons_self),
      ih fun e he => h e (List.mem_cons_of_mem d he)]

theorem exponentPart?_ofInt (n : ℤ) :
    exponentPart? (CodePoint.ofChar 'E' :: Text.ofInt n) = some n := by
  have hlt : ∀ d ∈ digitsOf 10 n.natAbs, d < 10 := fun d => lt_of_mem_digitsOf (by decide)
  have hrun := digitRun_text hlt [] (by simp)
  rw [List.append_nil] at hrun
  have hne := digitsOf_ne_nil 10 n.natAbs
  have hvalue := value_digitsOf 10 n.natAbs
  unfold Text.ofInt
  rw [numeral_eq (by decide)]
  split_ifs with hn
  · rw [exponentPart?, if_pos (.inr rfl)]
    simp [hrun, hne, hvalue, abs_of_neg hn]
  · obtain ⟨d, ds, hds⟩ := List.exists_cons_of_ne_nil hne
    have hd : d < 10 := hlt d (by rw [hds]; exact List.mem_cons_self)
    have hsign : ∀ e < 10, CodePoint.ofChar (Nat.digitChar e) ≠ CodePoint.ofChar '-'
        ∧ CodePoint.ofChar (Nat.digitChar e) ≠ CodePoint.ofChar '+' := by decide
    have hhead : (text (digitsOf 10 n.natAbs)).head? = some (CodePoint.ofChar d.digitChar) := by
      rw [hds]
      rfl
    rw [exponentPart?, if_pos (.inr rfl)]
    simp [hrun, hne, hvalue, hhead, hsign d hd, abs_of_nonneg (not_lt.1 hn)]

/-- Digits, a point and digits are a literal, with an exponent or without. -/
theorem decimalLiteral?_mantissa {ws fs : List ℕ} (hne : ws ≠ []) (hws : ∀ d ∈ ws, d < 10)
    (hfs : ∀ d ∈ fs, d < 10) (rest : Text) (hrest : ∀ c ∈ rest.head?, digit? 10 c = none) :
    decimalLiteral? (text ws ++ CodePoint.ofChar '.' :: (text fs ++ rest))
      = (exponentPart? rest).map fun e => ⟨value 10 (ws ++ fs), e - fs.length⟩ := by
  have hpoint : ∀ c ∈ (CodePoint.ofChar '.' :: (text fs ++ rest)).head?, digit? 10 c = none := by
    intro c hc
    obtain rfl := Option.some.inj hc
    decide
  simp [decimalLiteral?, digitRun_text hws _ hpoint, digitRun_text hfs _ hrest, hne]

variable (s : FloatSyntax F)

theorem floatExpression?_constant {name : Text} {x : Binary F} (h : constant? F name = some x) :
    floatExpression? s (s.classPrefix ++ name) = some (.constant x) := by
  obtain ⟨c, hc, hminus, -⟩ := s.head
  have hhead : (s.classPrefix ++ name).head? = some c := by
    rw [List.head?_append, hc]
    rfl
  have hsign : ¬(s.classPrefix ++ name).head? = some (CodePoint.ofChar '-') := by
    rw [hhead]
    exact fun heq => hminus (Option.some.inj heq)
  rw [floatExpression?, if_neg hsign, floatOperand?,
    if_pos (List.isPrefixOf_iff_prefix.2 (List.prefix_append _ _)), List.drop_left, h]
  rfl

variable {t : Text} {d : Decimal} {c : CodePoint}

theorem floatOperand?_literal (hd : decimalLiteral? t = some d)
    (ht : ∃ e < 10, t.head? = some (CodePoint.ofChar (Nat.digitChar e))) (hc : c ∈ s.suffixes) :
    floatOperand? s (t ++ [c]) = some (.literal d) := by
  obtain ⟨e, he, hhead⟩ := ht
  obtain ⟨l, hl, -, hletter⟩ := s.head
  have hprefix : ¬s.classPrefix.isPrefixOf (t ++ [c]) := by
    rw [List.isPrefixOf_iff_prefix]
    rintro ⟨u, hu⟩
    have heq := congrArg List.head? hu
    rw [List.head?_append, List.head?_append, hl, hhead] at heq
    obtain rfl : l = CodePoint.ofChar (Nat.digitChar e) := Option.some.inj heq
    rw [digit?_digitChar (by decide) he] at hletter
    cases hletter
  have hsuffix : (t ++ [c]).getLast?.any (· ∈ s.suffixes) := by
    rw [List.getLast?_append, List.getLast?_singleton]
    simpa using hc
  rw [floatOperand?, if_neg hprefix, if_pos hsuffix, List.dropLast_concat, hd]
  rfl

/-- A literal with its suffix is an expression, and so is its negation. -/
theorem floatExpression?_signed (negative : Bool) (hd : decimalLiteral? t = some d)
    (ht : ∃ e < 10, t.head? = some (CodePoint.ofChar (Nat.digitChar e))) (hc : c ∈ s.suffixes) :
    floatExpression? s ((if negative then Text.ofString "-" else []) ++ t ++ [c])
      = some (if negative then .negation (.literal d) else .literal d) := by
  have hoperand := floatOperand?_literal s hd ht hc
  cases negative
  · have hsign : ¬(t ++ [c]).head? = some (CodePoint.ofChar '-') := by
      obtain ⟨e, he, hhead⟩ := ht
      have hminus : ∀ e < 10, CodePoint.ofChar (Nat.digitChar e) ≠ CodePoint.ofChar '-' := by
        decide
      rw [List.head?_append, hhead]
      exact fun heq => hminus e he (Option.some.inj heq)
    change floatExpression? s (t ++ [c]) = _
    rw [floatExpression?, if_neg hsign, hoperand]
    rfl
  · change floatExpression? s (CodePoint.ofChar '-' :: (t ++ [c])) = _
    rw [floatExpression?, if_pos rfl, List.drop_one, List.tail_cons, hoperand]
    rfl

example : floatExpression? doubleSyntax (Text.ofString "-1.25E-7d")
    = some (.negation (.literal ⟨125, -9⟩)) := rfl

end Reading

end Source

end JavaLiteral
