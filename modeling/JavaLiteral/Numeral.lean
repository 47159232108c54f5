import JavaLiteral.Decimal
import JavaLiteral.Text.Blank
import JavaLiteral.Text.Search

/-!
# Reading numerals

Numerals as they are given on a command line and in JSON: digits are read into the number they
denote (`valueOf`), a decimal numeral into a decimal, and a decimal into the nearest `double`. An
exponent far outside the range of the format decides the result by itself, so that no power of
ten of that size is ever computed (`Decimal.toDouble`).
-/

namespace JavaLiteral

namespace CodePoint

/-- Whether a code point is a decimal digit. -/
def isDigit (c : CodePoint) : Bool := 0x30 ≤ c.val && c.val ≤ 0x39

/-- White space that may stand around a numeral: all but the separators among the controls. -/
def isNumeralBlank (c : CodePoint) : Bool := c.isBlank && !(0x1C ≤ c.val && c.val ≤ 0x1F)

end CodePoint

namespace Decimal

/-- Past this many digits on either side of the point a decimal is infinite or zero. -/
def farExponent : Int := 400

/-- The magnitude of a decimal among the values of type `double`. -/
def toDouble (negative : Bool) (d : Decimal) : Double :=
  if d.coeff = 0 ∨ d.leading < -farExponent then Binary.ofMagnitude negative 0
  else if farExponent < d.leading then Binary.infinite negative
  else Binary.ofMagnitude negative d.value

end Decimal

namespace Numeral

/-- The number that digits denote. -/
def valueOf (digits : Text) : Nat := digits.foldl (fun n c => 10 * n + (c.val - 0x30)) 0

/-- The digits at the start of a text, and the rest. -/
def digits (t : Text) : Text × Text :=
  (t.takeWhile CodePoint.isDigit, t.dropWhile CodePoint.isDigit)

/-- Whether a text starts with a minus sign, and the text after the sign, which may be a plus. -/
def sign : Text → Bool × Text
  | [] => (false, [])
  | c :: cs =>
    if c = '-' then (true, cs) else if c = '+' then (false, cs) else (false, c :: cs)

/-- The text without its underscores, none of which may stand at an end or beside another one. -/
def ungrouped? (t : Text) : Option Text :=
  if t.head? = some (CodePoint.ofChar '_') ∨ t.getLast? = some (CodePoint.ofChar '_')
      ∨ Text.contains "__" t then none
  else some (t.filter fun c => c ≠ '_')

/-- The exponent after the digits of a numeral. There is none if the text ends before it, and only
the whole rest of the text is an exponent. -/
def exponent? : Text → Option Int
  | [] => some 0
  | c :: cs =>
    if c = 'e' ∨ c = 'E' then
      let (negative, rest) := sign cs
      let (ds, rest) := digits rest
      if ds ≠ [] ∧ rest = [] then some (if negative then -valueOf ds else valueOf ds) else none
    else none

/-- The decimal of a numeral without sign, with a digit before or after the point. -/
def decimal? (t : Text) : Option Decimal :=
  let (whole, rest) := digits t
  let (fraction, rest) :=
    match rest with
    | c :: cs => if c = '.' then digits cs else ([], rest)
    | [] => ([], [])
  if whole = [] ∧ fraction = [] then none
  else (exponent? rest).map fun e => ⟨valueOf (whole ++ fraction), e - fraction.length⟩

/-- The most characters that an integer may take, its minus sign among them. Zeros in front and
underscores do not count. -/
def longestInteger : Nat := 4300

/-- Whether digits have a zero in front of others. -/
def hasZeroInFront (ds : Text) : Bool := ds.head? = some (CodePoint.ofChar '0') && ds.length ≠ 1

/-- A whole number that starts and ends with a digit, as a minus sign and what is left of its digits
without zeros in front, among which underscores may stand in any number. The minus sign comes after
such zeros, and then no more of them follow. -/
def significant? (t : Text) : Option (Bool × Text) := do
  if t.head?.any CodePoint.isDigit && t.getLast?.any CodePoint.isDigit then
    let u ← ungrouped? (t.dropWhile fun c => c = '0' || c = '_')
    let negative := u.head? = some (CodePoint.ofChar '-')
    let ds := if negative then u.drop 1 else u
    if ds.all CodePoint.isDigit ∧ ¬(negative ∧ hasZeroInFront ds) then some (negative, ds) else none
  else none

/-- Whether a fraction is none: no point at all, or zeros after it. -/
def isZeroFraction : Text → Bool
  | [] => true
  | _ :: zeros => zeros ≠ [] && zeros.all fun c => c = '0'

/-- The integer of a text: a whole number with a sign or none, maybe with a fraction of zeros, and
white space around it. There is at most one minus sign. -/
def integer? (t : Text) : Option Int := do
  let (before, u) := sign (t.trimOf CodePoint.isNumeralBlank)
  let isWhole := fun c : CodePoint => c ≠ '.'
  let (after, ds) ← significant? (u.takeWhile isWhole)
  let negative := before || after
  if ¬(before ∧ after) ∧ isZeroFraction (u.dropWhile isWhole)
      ∧ ds.length + (if negative then 1 else 0) ≤ longestInteger then
    some (if negative then -valueOf ds else valueOf ds)
  else none

/-- The `double` of a text: a decimal numeral, or the name of an infinity or of NaN. -/
def plainDouble? (t : Text) : Option Double :=
  let (negative, rest) := sign t
  let name := Text.lowercase rest
  if name = "nan" then some (Binary.nan negative)
  else if name = "inf" ∨ name = "infinity" then some (Binary.infinite negative)
  else (decimal? rest).map (Decimal.toDouble negative)

/-- The `double` of a text with white space around it, or else with underscores in it. -/
def double? (t : Text) : Option Double :=
  match plainDouble? (t.trimOf CodePoint.isNumeralBlank) with
  | some x => some x
  | none => (ungrouped? t).bind plainDouble?

end Numeral

end JavaLiteral
