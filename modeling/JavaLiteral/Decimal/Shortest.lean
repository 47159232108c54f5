import JavaLiteral.Decimal

/-!
# The digits of a float

A decimal reads back as a float if rounding it gives the float again. The digits of a `double`
are those of the shortest decimal that reads back, the closest one where several are as short.
The digits of a `float` are the first correctly rounded ones that read back by way of `double`;
at a power of two that is not always the shortest choice. A single digit gives way to two digits
that are strictly closer.
-/

namespace JavaLiteral

namespace Binary.Format

/-- Whether a decimal rounds to a code. -/
def readsBack (F : Format) (code : Nat) (d : Decimal) : Bool := F.round d.value = code

end Binary.Format

namespace Decimal

/-- The exponent of a grid on which a number has `n + 1` digits. -/
def gridExponent (x : Rat) (n : Nat) : Int := leadingExponent x - n

/-- A decimal of `n + 1` digits that passes a test: the nearest one, or else a neighbour. -/
def neighbour? (x : Rat) (test : Decimal → Bool) (n : Nat) : Option Decimal :=
  let e := gridExponent x n
  [nearest x e, below x e, above x e].find? test

/-- Two digits in place of a single one, where they are strictly closer. -/
def preferTwo (x : Rat) (d : Decimal) : Decimal :=
  let two := nearest x (gridExponent x 1)
  if d.digits.length = 1 ∧ two.distance x < d.distance x then two else d

end Decimal

namespace Double

open Binary Decimal

/-- The most digits that a `double` needs. -/
def maxDigits : Nat := 17

/-- The shortest decimal that reads back as the `double` of a code, and of those the closest. -/
def shortest (code : Nat) : Decimal :=
  let x := Format.double.magnitude code
  ((List.range maxDigits).findSome? (neighbour? x (Format.double.readsBack code))).getD
    (nearest x (gridExponent x (maxDigits - 1)))

/-- The decimal that stands for the `double` of a code. -/
def decimal (code : Nat) : Decimal := preferTwo (Format.double.magnitude code) (shortest code)

end Double

namespace Single

open Binary Decimal

/-- The most digits that a `float` needs. -/
def maxDigits : Nat := 9

/-- Whether a decimal, taken as a `double` first, rounds to the `float` of a code. -/
def readsBack (code : Nat) (d : Decimal) : Bool :=
  ((ofMagnitude false d.value : Double).convert Format.single).code = code

/-- The first correctly rounded decimal, by its number of digits, that reads back as the `float`
of a code. -/
def firstRounded (code : Nat) : Decimal :=
  let x := Format.single.magnitude code
  let rounded := fun n => nearest x (gridExponent x n)
  (((List.range maxDigits).map rounded).find? (readsBack code)).getD (rounded (maxDigits - 1))

/-- The decimal that stands for the `float` of a code. -/
def decimal (code : Nat) : Decimal :=
  preferTwo (Format.single.magnitude code) (firstRounded code)

end Single

end JavaLiteral
