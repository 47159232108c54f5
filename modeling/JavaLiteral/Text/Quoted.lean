import JavaLiteral.Category

/-!
# A text shown in quotes

Error messages show a text in single quotes, or in double quotes where it holds a single quote
and no double one. The backslash and the quote in use are escaped, and what has no glyph of its
own is written by its code, in two, four or eight hexadecimal digits.
-/

namespace JavaLiteral

namespace CodePoint

/-- A code point that is shown as itself: not hidden, and no separator but the blank. -/
def isShown (c : CodePoint) : Bool := c.category = .visible || c.val = 0x20

/-- The code of a code point in the fewest of two, four and eight digits that hold it. -/
def escapedCode (c : CodePoint) : Text :=
  if c.val < 0x100 then Text.ofString "\\x" ++ Text.paddedNumeral 16 2 c.val
  else if c.val < 0x10000 then Text.ofString "\\u" ++ Text.paddedNumeral 16 4 c.val
  else Text.ofString "\\U" ++ Text.paddedNumeral 16 8 c.val

/-- A code point within quotes of the kind `quote`. -/
def quoted (quote : Char) (c : CodePoint) : Text :=
  if c = quote ∨ c = '\\' then [CodePoint.ofChar '\\', c]
  else if c = '\n' then "\\n"
  else if c = '\r' then "\\r"
  else if c = '\t' then "\\t"
  else if c.isShown then [c]
  else c.escapedCode

end CodePoint

namespace Text

/-- The quote that a text is shown in. -/
def quoteFor (t : Text) : Char :=
  if CodePoint.ofChar '\'' ∈ t ∧ CodePoint.ofChar '"' ∉ t then '"' else '\''

/-- The text in quotes. -/
def quoted (t : Text) : Text :=
  CodePoint.ofChar t.quoteFor :: t.flatMap (CodePoint.quoted t.quoteFor)
    ++ [CodePoint.ofChar t.quoteFor]

end Text

end JavaLiteral
