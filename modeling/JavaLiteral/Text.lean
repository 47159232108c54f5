/-!
# Text as code points

A text is a list of code points, and a surrogate may stand in it alone, so a text need not be
one that UTF-8 can write. Java sees a text as its UTF-16 units (`Text.units`): a code point past
U+FFFF is two of them, every other one is a unit of its own (`CodePoint.units_of_lt`).
-/

namespace JavaLiteral

/-- A Unicode code point, the surrogates among them. -/
@[ext, grind ext]
structure CodePoint where
  val : Nat
  val_lt : val < 0x110000
deriving DecidableEq

/-- A sequence of code points. -/
abbrev Text := List CodePoint

namespace CodePoint

theorem toNat_lt (c : Char) : c.toNat < 0x110000 := by
  have h := c.valid
  simp only [UInt32.isValidChar, Nat.isValidChar] at h
  simp only [Char.toNat]
  grind

/-- The code point of a character. -/
def ofChar (c : Char) : CodePoint := ⟨c.toNat, toNat_lt c⟩

instance : Coe Char CodePoint := ⟨ofChar⟩

/-- The code point of a number, if it is one. -/
def ofNat? (n : Nat) : Option CodePoint :=
  if h : n < 0x110000 then some ⟨n, h⟩ else none

/-- A surrogate is a code point of no character. -/
def isSurrogate (c : CodePoint) : Bool := 0xD800 ≤ c.val && c.val ≤ 0xDFFF

/-- The character of a code point, if it is no surrogate. -/
def toChar? (c : CodePoint) : Option Char :=
  if c.isSurrogate then none else some (Char.ofNat c.val)

@[simp] theorem val_ofChar (c : Char) : (ofChar c).val = c.toNat := rfl

theorem ofNat?_eq_some {n : Nat} {c : CodePoint} : ofNat? n = some c ↔ c.val = n := by
  unfold ofNat?
  split <;> grind

/-- The lowercase of the letters A to Z; other code points are kept. The words that texts are
compared with hold no letters but these. -/
def lowercase (c : CodePoint) : CodePoint :=
  if h : 0x41 ≤ c.val ∧ c.val ≤ 0x5A then ⟨c.val + 0x20, by omega⟩ else c

/-- The UTF-16 units of a code point: a pair of surrogates past U+FFFF. -/
def units (c : CodePoint) : List Nat :=
  if c.val < 0x10000 then [c.val]
  else [0xD800 + (c.val - 0x10000) / 0x400, 0xDC00 + (c.val - 0x10000) % 0x400]

theorem units_of_lt {c : CodePoint} (h : c.val < 0x10000) : c.units = [c.val] := by
  simp [units, h]

theorem unit_lt {c : CodePoint} {u : Nat} (h : u ∈ c.units) : u < 0x10000 := by
  have := c.val_lt
  unfold units at h
  split at h <;> simp at h <;> omega

end CodePoint

namespace Text

/-- The code points of a string. -/
def ofString (s : String) : Text := s.toList.map CodePoint.ofChar

instance : Coe String Text := ⟨ofString⟩

/-- A text without surrogates, which are the code points that UTF-8 has no octets for. -/
def IsEncodable (t : Text) : Prop := ∀ c ∈ t, c.isSurrogate = false

instance : DecidablePred IsEncodable := fun t =>
  inferInstanceAs (Decidable (∀ c ∈ t, c.isSurrogate = false))

/-- The string of a text that holds no surrogate. -/
def toString? (t : Text) : Option String := (t.mapM CodePoint.toChar?).map String.ofList

/-- The text with the letters A to Z in lowercase. -/
def lowercase (t : Text) : Text := t.map CodePoint.lowercase

/-- The UTF-16 units of a text. -/
def units (t : Text) : List Nat := t.flatMap CodePoint.units

@[simp] theorem units_nil : units [] = [] := rfl

@[simp] theorem units_cons (c : CodePoint) (t : Text) : units (c :: t) = c.units ++ t.units := by
  simp [units]

@[simp] theorem units_append (s t : Text) : units (s ++ t) = s.units ++ t.units := by
  simp [units]

/-- The numeral of `n` in base `b`, lowercase and without leading zeros. -/
def numeral (b n : Nat) : Text := (Nat.toDigits b n).map CodePoint.ofChar

/-- The numeral of `n` in base `b`, filled with zeros on the left to `width` digits. -/
def paddedNumeral (b width n : Nat) : Text :=
  List.replicate (width - (numeral b n).length) (CodePoint.ofChar '0') ++ numeral b n

/-- The decimal numeral of an integer, with a minus sign if it is negative. -/
def ofInt (n : Int) : Text :=
  if n < 0 then '-' :: numeral 10 n.natAbs else numeral 10 n.natAbs

/-- The most digits that an integer may have in a message. -/
def mostDigits : Nat := 4300

/-- The decimal numeral of an integer in a message, if it has no more digits than that. -/
def ofInt? (n : Int) : Option Text :=
  if (numeral 10 n.natAbs).length ≤ mostDigits then some (ofInt n) else none

/-- What takes the place of a message with an integer in it that has too many digits. -/
def tooManyDigits : Text :=
  ofString "Exceeds the limit (" ++ numeral 10 mostDigits
    ++ ofString " digits) for integer string conversion; use sys.set_int_max_str_digits()"
    ++ ofString " to increase the limit"

/-- A message with an integer in it. -/
def withInt (before : Text) (n : Int) (after : Text) : Text :=
  (ofInt? n).elim tooManyDigits fun t => before ++ t ++ after

/-- The texts joined, with `sep` between neighbours. -/
def join (sep : Text) (ts : List Text) : Text := (ts.intersperse sep).flatten

end Text

namespace CodePoint

/-- The Unicode escape of a number in four hexadecimal digits. -/
def unitEscape (u : Nat) : Text := Text.ofString "\\u" ++ Text.paddedNumeral 16 4 u

/-- The Unicode escape of a code point. One past U+FFFF takes two, for the upper ten bits of its
distance from there and for the lower ten. -/
def unicodeEscape (c : CodePoint) : Text :=
  if c.val < 0x10000 then unitEscape c.val
  else
    let offset := c.val - 0x10000
    unitEscape (0xD800 + (offset >>> 10)) ++ unitEscape (0xDC00 + (offset &&& 0x3FF))

/-- The escapes of a code point are those of its UTF-16 units. -/
theorem unicodeEscape_eq_flatMap (c : CodePoint) :
    c.unicodeEscape = c.units.flatMap unitEscape := by
  unfold unicodeEscape units
  split
  · simp
  · simp [Nat.shiftRight_eq_div_pow, Nat.and_two_pow_sub_one_eq_mod _ 10]

end CodePoint

end JavaLiteral
