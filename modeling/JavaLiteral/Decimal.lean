import JavaLiteral.Binary
import JavaLiteral.Text

/-!
# Decimals

A decimal is a coefficient times a power of ten. The decimals of one exponent form a grid, and
each positive rational has a nearest point on it and a neighbour on either side
(`Decimal.nearest`, `Decimal.below`, `Decimal.above`).
-/

namespace JavaLiteral

/-- The decimal `coeff * 10 ^ exp`. -/
structure Decimal where
  coeff : Nat
  exp : Int
deriving DecidableEq

/-- How many decimal digits a number has. -/
def digitCount (n : Nat) : Nat := (Nat.toDigits 10 n).length

/-- The exponent of the leading decimal digit of a positive rational. -/
def leadingExponent (x : Rat) : Int :=
  if 1 ≤ x then digitCount x.floor.toNat - 1 else -digitCount (x⁻¹.ceil.toNat - 1)

namespace Decimal

/-- The number that a decimal denotes. -/
def value (d : Decimal) : Rat := d.coeff * (10 : Rat) ^ d.exp

/-- The digits without trailing zeros. -/
def digits (d : Decimal) : List Char :=
  ((Nat.toDigits 10 d.coeff).reverse.dropWhile (· = '0')).reverse

/-- The exponent of the leading digit. -/
def leading (d : Decimal) : Int := d.exp + digitCount d.coeff - 1

/-- How far a decimal is from a number. -/
def distance (d : Decimal) (x : Rat) : Rat := if d.value < x then x - d.value else d.value - x

/-- The decimal of an exponent nearest to a number; a tie goes to the even coefficient. -/
def nearest (x : Rat) (e : Int) : Decimal := ⟨roundEven (x / (10 : Rat) ^ e), e⟩

/-- The greatest decimal of an exponent that does not exceed a number. -/
def below (x : Rat) (e : Int) : Decimal := ⟨(x / (10 : Rat) ^ e).floor.toNat, e⟩

/-- The decimal after the one below a number. -/
def above (x : Rat) (e : Int) : Decimal := ⟨(x / (10 : Rat) ^ e).floor.toNat + 1, e⟩

end Decimal

end JavaLiteral
