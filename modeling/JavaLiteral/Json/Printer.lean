import JavaLiteral.Json
import JavaLiteral.Json.Number

/-!
# Writing JSON

Values are written without blanks and in ASCII: a code point past it stands as the escapes of its
UTF-16 units. What has no text is a real that is not finite, and a string with a surrogate in it
(`Unwritable`); the first of them in the order of writing is reported.
-/

namespace JavaLiteral.Json

/-- Why a value cannot be written. A string is reported by its first surrogate, the position of
that, and how many surrogates follow it at once. -/
inductive Unwritable where
  | infinite
  | nan
  | surrogates (first : CodePoint) (position more : Nat)
deriving DecidableEq

namespace Unwritable

/-- The text of the error. -/
def message : Unwritable → Text
  | infinite => "Invalid Inf value when encoding double"
  | nan => "Invalid Nan value when encoding double"
  | surrogates first position more =>
    Text.ofString "'utf-8' codec can't encode character"
      ++ (if more = 0 then
          Text.ofString " '" ++ first.unicodeEscape ++ Text.ofString "' in position "
            ++ Text.numeral 10 position
        else
          Text.ofString "s in position " ++ Text.numeral 10 position ++ Text.ofString "-"
            ++ Text.numeral 10 (position + more))
      ++ Text.ofString ": surrogates not allowed"

end Unwritable

/-- A code point within a string. -/
def escaped (c : CodePoint) : Text :=
  if c = '"' then "\\\""
  else if c = '\\' then "\\\\"
  else if c = '\x08' then "\\b"
  else if c = '\x0C' then "\\f"
  else if c = '\n' then "\\n"
  else if c = '\r' then "\\r"
  else if c = '\t' then "\\t"
  else if c.val < 0x20 ∨ 0x7F < c.val then c.unicodeEscape
  else [c]

/-- What is wrong with a string. -/
def unwritable? (t : Text) : Option Unwritable :=
  let isPlain := fun c : CodePoint => !c.isSurrogate
  match t.dropWhile isPlain with
  | [] => none
  | c :: cs =>
    some (.surrogates c (t.takeWhile isPlain).length (cs.takeWhile CodePoint.isSurrogate).length)

/-- A string in its quotes. -/
def quoted (t : Text) : Except Unwritable Text :=
  match unwritable? t with
  | some e => .error e
  | none => .ok (CodePoint.ofChar '"' :: t.flatMap escaped ++ [CodePoint.ofChar '"'])

/-- A real. -/
def number (x : Double) : Except Unwritable Text :=
  if x.isNaN then .error .nan
  else if x.isInfinite then .error .infinite
  else .ok (realText x)

mutual

/-- The text of a value. -/
def toText : Json → Except Unwritable Text
  | null => .ok "null"
  | bool true => .ok "true"
  | bool false => .ok "false"
  | int n => .ok (Text.ofInt n)
  | real x => number x
  | text t => quoted t
  | list vs => do
    return Text.ofString "[" ++ Text.join "," (← valueTexts vs) ++ Text.ofString "]"
  | object fs => do
    return Text.ofString "\x7B" ++ Text.join "," (← fieldTexts fs) ++ Text.ofString "\x7D"

/-- The texts of several values. -/
def valueTexts : List Json → Except Unwritable (List Text)
  | [] => .ok []
  | v :: vs => do return (← toText v) :: (← valueTexts vs)

/-- The texts of several fields. -/
def fieldTexts : List (Text × Json) → Except Unwritable (List Text)
  | [] => .ok []
  | (name, v) :: fs => do
    return ((← quoted name) ++ Text.ofString ":" ++ (← toText v)) :: (← fieldTexts fs)

end

end JavaLiteral.Json
