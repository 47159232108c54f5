/-!
# Binary floating point

A datum of a binary format is a sign and a code, and the codes run in the order of their
magnitudes: subnormal numbers, normal numbers binade by binade, infinity, and after it the
NaNs. Rounding finds the code of the nearest magnitude, a tie going to the even code
(`Format.round`), and so converts between formats (`Binary.convert`).
-/

namespace JavaLiteral

/-- The nearest integer to a rational that is not negative; a half goes to the even neighbour. -/
def roundEven (x : Rat) : Nat :=
  let q := x.floor.toNat
  if x - q < 1 / 2 ∨ (x - q = 1 / 2 ∧ q % 2 = 0) then q else q + 1

namespace Binary

/-- A format, by the bits of its fraction and of its exponent. -/
structure Format where
  fractionBits : Nat
  exponentBits : Nat
  fractionBits_pos : 0 < fractionBits
  one_lt_exponentBits : 1 < exponentBits

namespace Format

/-- The format of the type `float`. -/
def single : Format := ⟨23, 8, by decide, by decide⟩

/-- The format of the type `double`. -/
def double : Format := ⟨52, 11, by decide, by decide⟩

variable (F : Format)

/-- How many codes there are in a binade. It is also the code of the least normal number. -/
def binade : Nat := 1 <<< F.fractionBits

/-- How many codes there are of each sign. -/
def codes : Nat := 1 <<< (F.exponentBits + F.fractionBits)

/-- The code of infinity. Only a last binade of NaNs comes after it. -/
def infinity : Nat := F.codes - F.binade

/-- The code of a NaN that carries no message. -/
def quiet : Nat := F.infinity + F.binade / 2

/-- The least positive magnitude. All magnitudes are multiples of it. -/
def unit : Rat := (1 / 2) ^ (1 <<< (F.exponentBits - 1) - 2 + F.fractionBits)

/-- The magnitude of a code in units. -/
def multiple (code : Nat) : Nat :=
  if code < F.binade then code
  else (F.binade + code % F.binade) <<< (code / F.binade - 1)

/-- The magnitude of a code. -/
def magnitude (code : Nat) : Rat := F.multiple code * F.unit

/-- The code nearest to a magnitude, which is infinity past the finite numbers. -/
def round (x : Rat) : Nat :=
  let u := x / F.unit
  let shift := Nat.log2 u.floor.toNat - F.fractionBits
  min (shift * F.binade + roundEven (u / 2 ^ shift)) F.infinity

theorem binade_pos : 0 < F.binade := by
  simp only [binade, Nat.one_shiftLeft]
  exact Nat.two_pow_pos _

theorem codes_pos : 0 < F.codes := by
  simp only [codes, Nat.one_shiftLeft]
  exact Nat.two_pow_pos _

theorem infinity_add_binade : F.infinity + F.binade = F.codes := by
  have h : F.binade ≤ F.codes := by
    simp only [binade, codes, Nat.one_shiftLeft]
    exact Nat.pow_le_pow_right Nat.zero_lt_two (Nat.le_add_left _ _)
  unfold infinity
  omega

theorem infinity_lt : F.infinity < F.codes := by
  have := F.infinity_add_binade
  have := F.binade_pos
  omega

theorem quiet_lt : F.quiet < F.codes := by
  have := F.infinity_add_binade
  have := F.binade_pos
  unfold quiet
  omega

theorem round_le (x : Rat) : F.round x ≤ F.infinity := Nat.min_le_right _ _

end Format

end Binary

/-- A datum of a binary format. -/
@[ext]
structure Binary (F : Binary.Format) where
  negative : Bool
  code : Nat
  code_lt : code < F.codes
deriving DecidableEq

/-- The values of the type `float`. -/
abbrev Single := Binary Binary.Format.single

/-- The values of the type `double`. -/
abbrev Double := Binary Binary.Format.double

namespace Binary

variable {F : Format}

/-- A datum that is no number. -/
def isNaN (x : Binary F) : Bool := F.infinity < x.code

/-- An infinity of either sign. -/
def isInfinite (x : Binary F) : Bool := x.code = F.infinity

/-- A number: neither an infinity nor a NaN. -/
def isFinite (x : Binary F) : Bool := x.code < F.infinity

/-- A zero of either sign. -/
def isZero (x : Binary F) : Bool := x.code = 0

/-- How far a number is from zero. -/
def magnitude (x : Binary F) : Rat := F.magnitude x.code

/-- The value of a number. -/
def value (x : Binary F) : Rat := if x.negative then -x.magnitude else x.magnitude

/-- A NaN of a sign. -/
def nan (negative : Bool) : Binary F := ⟨negative, F.quiet, F.quiet_lt⟩

/-- The infinity of a sign. -/
def infinite (negative : Bool) : Binary F := ⟨negative, F.infinity, F.infinity_lt⟩

/-- The datum nearest to a magnitude with a sign. -/
def ofMagnitude (negative : Bool) (x : Rat) : Binary F :=
  ⟨negative, F.round x, Nat.lt_of_le_of_lt (F.round_le x) F.infinity_lt⟩

/-- The nearest datum of another format. A NaN stays one, and an infinity keeps its sign. -/
def convert (G : Format) (x : Binary F) : Binary G :=
  if x.isNaN then nan x.negative
  else if x.isInfinite then infinite x.negative
  else ofMagnitude x.negative x.magnitude

/-- The nearest datum to a product. Zero times infinity is a NaN. -/
def mul (x y : Binary F) : Binary F :=
  let negative := x.negative != y.negative
  if x.isNaN || y.isNaN || (x.isZero && y.isInfinite) || (x.isInfinite && y.isZero) then
    nan negative
  else if x.isInfinite || y.isInfinite then infinite negative
  else ofMagnitude negative (x.magnitude * y.magnitude)

/-- The datum of a bit pattern, taken from its low bits. -/
def ofBits (F : Format) (n : Nat) : Binary F :=
  ⟨n / F.codes % 2 = 1, n % F.codes, Nat.mod_lt _ F.codes_pos⟩

/-- The bit pattern: the sign in front of the code. -/
def toBits (x : Binary F) : Nat :=
  (if x.negative then F.codes else 0) + x.code

theorem ofBits_toBits (x : Binary F) : ofBits F x.toBits = x := by
  obtain ⟨s, c, h⟩ := x
  have hp := F.codes_pos
  cases s
  · simp [ofBits, toBits, Nat.mod_eq_of_lt h, Nat.div_eq_of_lt h]
  · simp [ofBits, toBits, Nat.mod_eq_of_lt h, Nat.add_div_left _ hp, Nat.div_eq_of_lt h]

/-- The nearest datum to an integer, unless that is infinite. -/
def ofInt? (n : Int) : Option (Binary F) :=
  let x : Binary F := ofMagnitude (n < 0) n.natAbs
  if x.isFinite then some x else none

end Binary

end JavaLiteral
