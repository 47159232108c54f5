import JavaLiteral.Json
import JavaLiteral.Json.Number

/-!
# Reading JSON

A text is one JSON value with blanks around it, or it is malformed. Each reader takes the start
of a text and returns what it read and the rest. Every value takes a character, so the length of
the text bounds how far the reader has to go, and values nest in a limited number of levels.

The reader is lenient in two ways. A string may hold every character but U+0000 raw, control
characters too; and a number may have zeros in front and may lack digits at any place, but one
without a sign starts with a digit. Two escapes in a row that pair up as surrogates are one code
point, and an escaped surrogate without its partner stands alone.
-/

namespace JavaLiteral.Json

/-- A reader of the start of a text. -/
abbrev Reader (α : Type) := Text → Option (α × Text)

/-- The blanks of JSON. -/
def isBlank (c : CodePoint) : Bool := c = ' ' || c = '\t' || c = '\n' || c = '\r'

/-- The text from the first character that is not blank. -/
def skipBlanks (t : Text) : Text := t.dropWhile isBlank

/-- A fixed text. -/
def expect (word : Text) : Reader Unit := fun t =>
  if word.isPrefixOf t then some ((), t.drop word.length) else none

/-- The value of a hexadecimal digit. -/
def hexDigit? (c : CodePoint) : Option Nat :=
  if 0x30 ≤ c.val ∧ c.val ≤ 0x39 then some (c.val - 0x30)
  else if 0x41 ≤ c.val ∧ c.val ≤ 0x46 then some (c.val - 0x41 + 10)
  else if 0x61 ≤ c.val ∧ c.val ≤ 0x66 then some (c.val - 0x61 + 10)
  else none

/-- Four hexadecimal digits. -/
def readUnit : Reader Nat
  | a :: b :: c :: d :: rest => do
    let digits ← [a, b, c, d].mapM hexDigit?
    some (digits.foldl (fun n k => 16 * n + k) 0, rest)
  | _ => none

/-- The code point of a pair of surrogates. -/
def paired? (high low : Nat) : Option CodePoint :=
  if 0xD800 ≤ high ∧ high ≤ 0xDBFF ∧ 0xDC00 ≤ low ∧ low ≤ 0xDFFF then
    CodePoint.ofNat? (0x10000 + (high - 0xD800) * 0x400 + (low - 0xDC00))
  else none

/-- The code point of an escape by UTF-16 units. A surrogate without its partner stands alone. -/
def readUnits : Reader CodePoint := fun t => do
  let (high, rest) ← readUnit t
  let pair := do
    let ((), after) ← expect "\\u" rest
    let (low, after) ← readUnit after
    some (← paired? high low, after)
  match pair with
  | some r => some r
  | none => some (← CodePoint.ofNat? high, rest)

/-- The code point of the letter of an escape. -/
def letter? (c : CodePoint) : Option CodePoint :=
  if c = '"' ∨ c = '\\' ∨ c = '/' then some c
  else if c = 'b' then some '\x08'
  else if c = 'f' then some '\x0C'
  else if c = 'n' then some '\n'
  else if c = 'r' then some '\r'
  else if c = 't' then some '\t'
  else none

/-- One code point of a string, written raw or by an escape. -/
def readCodePoint : Reader CodePoint
  | [] => none
  | c :: rest =>
    if c = '\\' then
      match rest with
      | [] => none
      | d :: rest => if d = 'u' then readUnits rest else (letter? d).map (·, rest)
    else if c = '"' ∨ c.val = 0 then none
    else some (c, rest)

/-- A string from after its opening quote on, of at most `fuel` code points. -/
def readString : Nat → Reader Text
  | 0, _ => none
  | fuel + 1, t =>
    match t with
    | [] => none
    | c :: rest =>
      if c = '"' then some ([], rest)
      else do
        let (d, rest) ← readCodePoint (c :: rest)
        let (ds, rest) ← readString fuel rest
        some (d :: ds, rest)

/-- A string from after its opening quote on. -/
def readText : Reader Text := fun t => readString (t.length + 1) t

/-- The digits after a point, if there is one. -/
def readFraction (t : Text) : Option Text × Text :=
  match t with
  | [] => (none, [])
  | c :: rest =>
    if c = '.' then
      let (ds, rest) := Numeral.digits rest
      (some ds, rest)
    else (none, t)

/-- The exponent, if there is one. -/
def readExponent (t : Text) : Option Int × Text :=
  match t with
  | [] => (none, [])
  | c :: rest =>
    if c = 'e' ∨ c = 'E' then
      let (negative, rest) := Numeral.sign rest
      let (ds, rest) := Numeral.digits rest
      (some (if negative then -Numeral.valueOf ds else Numeral.valueOf ds), rest)
    else (none, t)

/-- A number from after its sign on. It is an integer if it has neither a point nor an exponent. -/
def readNumber (negative : Bool) : Reader Json := fun t => do
  let (digits, rest) := Numeral.digits t
  let whole ← whole? negative digits
  let (fraction, rest) := readFraction rest
  let (exponent, rest) := readExponent rest
  let value :=
    if fraction = none ∧ exponent = none then .int (if negative then -whole else whole)
    else .real (realOf negative whole (fraction.getD []) (exponent.getD 0))
  some (value, rest)

/-- A value that is no list and no object, by its first character. -/
def readScalar (c : CodePoint) (rest : Text) : Option (Json × Text) :=
  if c = '"' then (readText rest).map fun r => (.text r.1, r.2)
  else if c = '-' then readNumber true rest
  else if c = 'n' then (expect "ull" rest).map fun r => (.null, r.2)
  else if c = 't' then (expect "rue" rest).map fun r => (.bool true, r.2)
  else if c = 'f' then (expect "alse" rest).map fun r => (.bool false, r.2)
  else if c.isDigit then readNumber false (c :: rest)
  else none

/-- A name and the colon after it. -/
def readName : Reader Text := fun t =>
  match skipBlanks t with
  | [] => none
  | c :: rest =>
    if c = '"' then do
      let (name, rest) ← readText rest
      let ((), rest) ← expect ":" (skipBlanks rest)
      some (name, rest)
    else none

/-- The most levels in which values nest. -/
def deepest : Nat := 1024

mutual

/-- A value with blanks before it, of at most `fuel` characters and `levels` levels. -/
def readValue : Nat → Nat → Reader Json
  | 0, _, _ => none
  | fuel + 1, levels, t =>
    match skipBlanks t with
    | [] => none
    | c :: rest =>
      if c = '[' then
        if levels = 0 then none
        else match skipBlanks rest with
          | [] => none
          | d :: after =>
            if d = ']' then some (.list [], after)
            else (readValues fuel (levels - 1) rest).map fun r => (.list r.1, r.2)
      else if c = '\x7B' then
        if levels = 0 then none
        else match skipBlanks rest with
          | [] => none
          | d :: after =>
            if d = '\x7D' then some (.object [], after)
            else (readFields fuel (levels - 1) [] rest).map fun r => (.object r.1, r.2)
      else readScalar c rest

/-- The values of a list from the next one on. -/
def readValues : Nat → Nat → Reader (List Json)
  | 0, _, _ => none
  | fuel + 1, levels, t => do
    let (v, rest) ← readValue fuel levels t
    match skipBlanks rest with
    | [] => none
    | c :: rest =>
      if c = ']' then some ([v], rest)
      else if c = ',' then (readValues fuel levels rest).map fun r => (v :: r.1, r.2)
      else none

/-- The fields of an object from the next one on, set in turn. -/
def readFields : Nat → Nat → List (Text × Json) → Reader (List (Text × Json))
  | 0, _, _, _ => none
  | fuel + 1, levels, fields, t => do
    let (name, rest) ← readName t
    let (v, rest) ← readValue fuel levels rest
    let fields := setField name v fields
    match skipBlanks rest with
    | [] => none
    | c :: rest =>
      if c = '\x7D' then some (fields, rest)
      else if c = ',' then readFields fuel levels fields rest
      else none

end

/-- The value of a text. A sign alone is none. -/
def ofText? (t : Text) : Option Json := do
  let (v, rest) ← readValue (t.length + 1) deepest t
  if skipBlanks rest = [] ∧ t ≠ Text.ofString "-" then some v else none

end JavaLiteral.Json
