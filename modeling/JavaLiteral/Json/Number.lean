import JavaLiteral.Floating
import JavaLiteral.Numeral

/-!
# Numbers in JSON

A whole part is counted in 64 bits, which is exact as long as it fits (`whole?_eq_some`). A real
is put together in the arithmetic of `double`, from its whole part, the digits after the point and
a power of ten, and each step rounds (`realOf`); so it need not be the value nearest to the number
that is written. A real is written with ten places after the point, or with ten digits and an
exponent where it is very large or very small (`realText`).
-/

namespace JavaLiteral.Json

open Binary

/-- A whole part with one more digit, counted modulo 2 to the 64th. The count of a number without
sign must not get smaller by it, and that of a negative number must not pass 2 to the 63rd. -/
def appendDigit? (negative : Bool) (n : Nat) (c : CodePoint) : Option Nat :=
  let m := (10 * n + Numeral.valueOf [c]) % 0x10000000000000000
  if negative then if m ≤ 0x8000000000000000 then some m else none
  else if n ≤ m then some m
  else none

/-- The count of the digits of a whole part. -/
def whole? (negative : Bool) (digits : Text) : Option Nat := digits.foldlM (appendDigit? negative) 0

theorem le_foldl_digits :
    ∀ (ds : Text) (n : Nat), n ≤ ds.foldl (fun n c => 10 * n + (c.val - 0x30)) n
  | [], n => Nat.le_refl n
  | c :: ds, n => by
    have := le_foldl_digits ds (10 * n + (c.val - 0x30))
    simp only [List.foldl_cons]
    omega

/-- The greatest count. -/
def greatestCount (negative : Bool) : Nat :=
  if negative then 0x8000000000000000 else 0xFFFFFFFFFFFFFFFF

theorem foldlM_appendDigit? (negative : Bool) :
    ∀ (ds : Text) (n : Nat),
      ds.foldl (fun n c => 10 * n + (c.val - 0x30)) n ≤ greatestCount negative →
      ds.foldlM (appendDigit? negative) n
        = some (ds.foldl (fun n c => 10 * n + (c.val - 0x30)) n)
  | [], n, _ => rfl
  | c :: ds, n, h => by
    simp only [List.foldl_cons] at h
    have hle := le_foldl_digits ds (10 * n + (c.val - 0x30))
    have hc : appendDigit? negative n c = some (10 * n + (c.val - 0x30)) := by
      have hcount := Nat.le_trans hle h
      simp only [appendDigit?, Numeral.valueOf, List.foldl_cons, List.foldl_nil, Nat.mul_zero,
        Nat.zero_add]
      unfold greatestCount at hcount
      split at hcount
      · next hneg =>
        rw [Nat.mod_eq_of_lt (by omega), if_pos hneg, if_pos hcount]
      · next hneg =>
        rw [Nat.mod_eq_of_lt (by omega), if_neg hneg, if_pos (by omega)]
    simp only [List.foldlM_cons, hc, List.foldl_cons]
    exact foldlM_appendDigit? negative ds _ h

theorem whole?_eq_some (negative : Bool) {digits : Text}
    (h : Numeral.valueOf digits ≤ greatestCount negative) :
    whole? negative digits = some (Numeral.valueOf digits) :=
  foldlM_appendDigit? negative digits 0 h

/-- The exponents of the powers of ten that lie next to the middle between two values and go to
the upper one. The others go to the nearest value. -/
def raisedExponents : List Int := [23, 210]

/-- The power of ten of an exponent. -/
def powerOfTen (e : Int) : Double :=
  if 308 < e then infinite false
  else if e < -323 then ofMagnitude false 0
  else
    let x : Double := ofMagnitude false ((10 : Rat) ^ e)
    if e ∈ raisedExponents then ofMagnitude false (Format.double.magnitude (x.code + 1)) else x

/-- How many digits after the point count. -/
def countedPlaces : Nat := 15

/-- The real of a whole part, the digits after the point and an exponent. -/
def realOf (negative : Bool) (whole : Nat) (places : Text) (exponent : Int) : Double :=
  let ds := places.take countedPlaces
  let integral : Double := ofMagnitude false whole
  let fraction : Double := (ofMagnitude false (Numeral.valueOf ds)).mul (powerOfTen (-ds.length))
  let mantissa : Double := ofMagnitude negative (integral.magnitude + fraction.magnitude)
  mantissa.mul (powerOfTen exponent)

/-- One in the last of the places that are written. -/
def scale : Nat := 10000000000

/-- The decimal of a magnitude with all the places that are written. The part after the point is
scaled in the arithmetic of `double`, and a half goes to the even neighbour, but up from zero. -/
def rounded (x : Rat) : Decimal :=
  let whole := x.floor.toNat
  let scaled := (ofMagnitude false ((x - whole) * scale) : Double).magnitude
  let n := scaled.floor.toNat
  let rest := scaled - n
  let up := 1 / 2 < rest ∨ (rest = 1 / 2 ∧ (n = 0 ∨ n % 2 = 1))
  ⟨whole * scale + (if up then n + 1 else n), -10⟩

/-- A magnitude with all its places, of which zeros at the end are left out but for the first. -/
def placesText (x : Rat) : Text :=
  let d := rounded x
  if d.coeff = 0 then "0.0" else (Decimal.plain d.digits d.leading).map CodePoint.ofChar

/-- An exponent with its sign and two digits at least. -/
def exponentText (e : Int) : Text :=
  Text.ofString (if e < 0 then "e-" else "e+") ++ Text.paddedNumeral 10 2 e.natAbs

/-- A magnitude by its first ten digits and an exponent, without zeros at the end. -/
def exponentialText (x : Rat) : Text :=
  let d := Decimal.nearest x (Decimal.gridExponent x 9)
  let digits := d.digits.map CodePoint.ofChar
  (if digits.length = 1 then digits
    else digits.take 1 ++ Text.ofString "." ++ digits.drop 1) ++ exponentText d.leading

/-- Whether a magnitude is written without an exponent. -/
def hasPlaces (x : Rat) : Bool :=
  x = 0 || ((powerOfTen (-15)).magnitude ≤ x && x ≤ (powerOfTen 16).magnitude)

/-- The text of a finite real. A zero has no sign. -/
def realText (x : Double) : Text :=
  (if x.negative && !x.isZero then Text.ofString "-" else []) ++
    if hasPlaces x.magnitude then placesText x.magnitude else exponentialText x.magnitude

end JavaLiteral.Json
