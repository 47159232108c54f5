import JavaLiteral.Decimal.Shortest

/-!
# Floating-point literals

A finite value is written in plain notation from a thousandth up to ten million, and past those
bounds with a power of ten; either way at least one digit follows the point. The literals add
the suffix of the type, and name the constants of its class for what no literal can say and for
the ends of the range.
-/

namespace JavaLiteral

namespace Decimal

/-- Digits after the point; there is at least one. -/
def fraction (digits : List Char) : List Char := if digits = [] then ['0'] else digits

/-- Digits in plain notation, the first of them standing at `10 ^ leading`. -/
def plain (digits : List Char) (leading : Int) : List Char :=
  if 0 ≤ leading then
    let n := leading.toNat + 1
    digits.take n ++ List.replicate (n - digits.length) '0' ++ '.' :: fraction (digits.drop n)
  else ['0', '.'] ++ List.replicate ((-leading).toNat - 1) '0' ++ digits

/-- Digits in scientific notation. -/
def scientific (digits : List Char) (leading : Int) : Text :=
  (digits.take 1 ++ '.' :: fraction (digits.drop 1)).map CodePoint.ofChar
    ++ Text.ofString "E" ++ Text.ofInt leading

/-- Whether a magnitude is written in plain notation. -/
def isPlain (x : Rat) : Bool := 1 / 1000 ≤ x && x < 10000000

/-- The text of a decimal that stands for the magnitude `x`. -/
def text (x : Rat) (d : Decimal) : Text :=
  if isPlain x then (plain d.digits d.leading).map CodePoint.ofChar
  else scientific d.digits d.leading

end Decimal

namespace Binary

variable {F : Format}

/-- The text of a finite value, when `decimal` gives the digits of a positive one. -/
def finiteText (decimal : Nat → Decimal) (x : Binary F) : Text :=
  (if x.negative then Text.ofString "-" else []) ++
    if x.isZero then Text.ofString "0.0" else (decimal x.code).text x.magnitude

/-- The constant for a value: NaN, an infinity, or one of three positive bounds of the range. -/
def constantName? (x : Binary F) : Option Text :=
  if x.isNaN then some "NaN"
  else if x.isInfinite then some (if x.negative then "NEGATIVE_INFINITY" else "POSITIVE_INFINITY")
  else if x.negative then none
  else if x.code = 1 then some "MIN_VALUE"
  else if x.code + 1 = F.infinity then some "MAX_VALUE"
  else if x.code = F.binade then some "MIN_NORMAL"
  else none

end Binary

namespace Double

/-- The text of a finite `double`. -/
def text? (x : Double) : Option Text :=
  if x.isFinite then some (x.finiteText decimal) else none

/-- The literal of a `double`. -/
def literal (x : Double) : Text :=
  match x.constantName? with
  | some name => Text.ofString "Double." ++ name
  | none => x.finiteText decimal ++ Text.ofString "d"

end Double

namespace Single

/-- The text of a finite `float`. -/
def text? (x : Single) : Option Text :=
  if x.isFinite then some (x.finiteText decimal) else none

/-- The literal of a `float`. -/
def literal (x : Single) : Text :=
  match x.constantName? with
  | some name => Text.ofString "Float." ++ name
  | none => x.finiteText decimal ++ Text.ofString "f"

end Single

namespace Double

/-- The nearest value of type `float`, as a `double`. -/
def narrowed (x : Double) : Double := (x.convert .single).convert .double

/-- The text of the nearest value of type `float`, if that is finite. -/
def narrowedText? (x : Double) : Option Text := Single.text? (x.convert .single)

/-- The literal of type `float` for a `double`. -/
def narrowedLiteral (x : Double) : Text := Single.literal (x.convert .single)

end Double

end JavaLiteral
