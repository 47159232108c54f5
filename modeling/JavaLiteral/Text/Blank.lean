import JavaLiteral.Text

/-!
# Blanks

Two notions of blank: the Unicode white space that is trimmed from lines and numbers, and the
code points up to U+0020 that are all that a blank text holds.
-/

namespace JavaLiteral

namespace CodePoint

/-- Unicode white space, with the four separators among the control codes. -/
def isBlank (c : CodePoint) : Bool :=
  (0x09 ≤ c.val && c.val ≤ 0x0D) || (0x1C ≤ c.val && c.val ≤ 0x20) || c.val = 0x85 ||
    c.val = 0xA0 || c.val = 0x1680 || (0x2000 ≤ c.val && c.val ≤ 0x200A) || c.val = 0x2028 ||
    c.val = 0x2029 || c.val = 0x202F || c.val = 0x205F || c.val = 0x3000

/-- The white characters of source text. -/
def isWhite (c : CodePoint) : Bool := c ∈ Text.ofString " \t\r\n\x0c\x08"

/-- The characters that end a word of source text. -/
def isWordSeparator (c : CodePoint) : Bool :=
  c.isWhite || c ∈ Text.ofString "(\")<,>\x7b\x7d=+-*/|[]\\:;'.`~!#^&"

end CodePoint

namespace Text

/-- The text without the blanks of some kind at both ends. -/
def trimOf (blank : CodePoint → Bool) (t : Text) : Text :=
  ((t.dropWhile blank).reverse.dropWhile blank).reverse

/-- The text without the white space at both ends. -/
def trim (t : Text) : Text := t.trimOf CodePoint.isBlank

/-- Whether a text is a single code point of some kind. -/
def isOne (kind : CodePoint → Bool) : Text → Bool
  | [c] => kind c
  | _ => false

/-- Whether a text is a white character. -/
def isWhite : Text → Bool := isOne CodePoint.isWhite

/-- Whether a text is a character that ends a word. -/
def isWordSeparator : Text → Bool := isOne CodePoint.isWordSeparator

/-- Whether there is a text, and it is not empty. -/
def isPresent : Option Text → Bool
  | some (_ :: _) => true
  | _ => false

/-- Whether there is a text, and it holds a code point past U+0020. -/
def isNotBlank (t : Option Text) : Bool := (t.getD []).any fun c => 0x20 < c.val

theorem isPresent_of_isNotBlank {t : Option Text} (h : isNotBlank t) : isPresent t := by
  match t with
  | none => simp [isNotBlank] at h
  | some [] => simp [isNotBlank] at h
  | some (_ :: _) => rfl

end Text

end JavaLiteral
