import JavaLiteral.Text

/-!
# Integer literals

A literal for a value of one of the four integer types, given by its width in bytes: a boundary
constant where those are wanted, else a decimal or hexadecimal numeral with a cast in front or
the suffix L. A negative value in hexadecimal is the two's complement of its type and always
cast, since Java reads those digits as a value of the next wider type; a `long` past 32 bits
always has the suffix, without which Java refuses the numeral.
-/

namespace JavaLiteral

/-- The signed integer types of Java. -/
inductive IntType where
  | byte
  | short
  | int
  | long
deriving DecidableEq

/-- How the digits of an integer are chosen. -/
inductive IntegerFormat where
  | auto
  | decimal
  | hexadecimal
deriving DecidableEq

namespace IntegerFormat

/-- The name of the format in settings. -/
def name : IntegerFormat → Text
  | auto => "auto"
  | decimal => "decimal"
  | hexadecimal => "hexadecimal"

/-- The formats in the order that messages list them. -/
def all : List IntegerFormat := [auto, decimal, hexadecimal]

/-- The format of a name. -/
def ofName? (t : Text) : Option IntegerFormat := all.find? fun f => f.name = t

theorem ofName?_name (f : IntegerFormat) : ofName? f.name = some f := by
  cases f <;> decide

end IntegerFormat

/-- A width as a caller may give it, right or wrong. -/
inductive Width where
  | number (n : Int)
  | truth (b : Bool)
  | text (t : Text)
  | missing
deriving DecidableEq

/-- Why there is no integer literal. -/
inductive IntegerError where
  | width (given : Width)
  | range (value : Int)
deriving DecidableEq

namespace Width

/-- The width as it is shown in an error. A number may have too many digits for that. -/
def shown? : Width → Option Text
  | number n => Text.ofInt? n
  | truth true => some "True"
  | truth false => some "False"
  | text t => some t
  | missing => some "None"

/-- The type of a width, which has to be one of the numbers 1, 2, 4 and 8. -/
def type : Width → Except IntegerError IntType
  | number 1 => .ok .byte
  | number 2 => .ok .short
  | number 4 => .ok .int
  | number 8 => .ok .long
  | w => .error (.width w)

end Width

namespace IntegerError

/-- The text of the error. -/
def message : IntegerError → Text
  | width w =>
    match w.shown? with
    | some t => Text.ofString "Unexpected number type length: " ++ t
    | none => Text.tooManyDigits
  | range v => Text.withInt "Value " v " is out of signed 64-bit range for Java long"

end IntegerError

namespace IntType

/-- The size in bytes. -/
def bytes : IntType → Nat
  | byte => 1
  | short => 2
  | int => 4
  | long => 8

/-- The keyword of the type. -/
def keyword : IntType → Text
  | byte => "byte"
  | short => "short"
  | int => "int"
  | long => "long"

/-- The class whose constants bound the type. No constant is used for a byte. -/
def boundaryClass? : IntType → Option Text
  | byte => none
  | short => some "Short"
  | int => some "Integer"
  | long => some "Long"

/-- How many values the type has below zero, and as many others. -/
def half : IntType → Int
  | byte => 0x80
  | short => 0x8000
  | int => 0x80000000
  | long => 0x8000000000000000

/-- The least value of the type. -/
def minValue (t : IntType) : Int := -t.half

/-- The greatest value of the type. -/
def maxValue (t : IntType) : Int := t.half - 1

/-- Whether the type holds a value. -/
def holds (t : IntType) (v : Int) : Bool := t.minValue ≤ v && v ≤ t.maxValue

/-- The width of a type. -/
def width (t : IntType) : Width := .number t.bytes

theorem type_width (t : IntType) : t.width.type = .ok t := by
  cases t <;> rfl

/-- The cast that forces an expression to the type. -/
def castToken (t : IntType) : Text := Text.ofString "(" ++ t.keyword ++ Text.ofString ") "

/-- The constant for a least or greatest value. -/
def boundaryName? (t : IntType) (v : Int) : Option Text :=
  match t.boundaryClass? with
  | none => none
  | some cls =>
    if v = t.maxValue then some (cls ++ Text.ofString ".MAX_VALUE")
    else if v = t.minValue then some (cls ++ Text.ofString ".MIN_VALUE")
    else none

end IntType

/-- The hexadecimal digits of a value as 64 bits in two's complement. -/
def hexDigits (v : Int) : Text := Text.numeral 16 (v % (2 * IntType.long.half)).toNat

/-- The value, if 64 bits hold it. -/
def checkedLong (v : Int) : Except IntegerError Int :=
  if IntType.long.holds v then .ok v else .error (.range v)

namespace IntType

/-- The numeral of a value: in hexadecimal a negative one keeps the digits of its type. -/
def numeral (t : IntType) (f : IntegerFormat) (v : Int) : Text :=
  match f with
  | .hexadecimal =>
    let digits := hexDigits v
    Text.ofString "0x" ++ if v < 0 then digits.drop (digits.length - 2 * t.bytes) else digits
  | _ => Text.ofInt v

/-- Whether the numeral of a value is cast although no one asks for it. -/
def needsCast (t : IntType) (f : IntegerFormat) (v : Int) : Bool :=
  (f = .hexadecimal && v < 0) || (t = .long && !IntType.int.holds v)

/-- A numeral as an expression of the type. -/
def casted (t : IntType) (digits : Text) : Text :=
  if t = .long then digits ++ Text.ofString "L" else t.castToken ++ digits

/-- The numeral of a value, cast where that is asked for or needed. -/
def number (t : IntType) (f : IntegerFormat) (cast : Bool) (v : Int) : Text :=
  if cast || t.needsCast f v then t.casted (t.numeral f v) else t.numeral f v

/-- The literal of a value within 64 bits. -/
def literal (t : IntType) (f : IntegerFormat) (cast : Bool) (v : Int) : Text :=
  match f with
  | .auto => (t.boundaryName? v).getD (t.number f cast v)
  | _ => t.number f cast v

end IntType

namespace Width

/-- The literal of a value for a width; the width is checked before the value. -/
def literal (w : Width) (f : IntegerFormat) (cast : Bool) (v : Int) : Except IntegerError Text := do
  let t ← w.type
  let v ← checkedLong v
  .ok (t.literal f cast v)

end Width

end JavaLiteral
