import JavaLiteral.Text

/-!
# Names as identifiers

A symbol name becomes an identifier by rules on single characters: separators become an
underscore, an array bracket the letter A, and closing marks are dropped. All else is kept as it
is, so a text without table characters is its own identifier (`identifier_eq_self`).
-/

namespace JavaLiteral

namespace CodePoint

/-- The characters that become an underscore. -/
def isNameSeparator (c : CodePoint) : Bool :=
  c = '.' || c = '/' || c = ';' || c = '$' || c = ' ' || c = ',' || c = '<'

/-- The characters that are dropped. -/
def isNameClosing (c : CodePoint) : Bool := c = ']' || c = '>' || c = '?' || c = '*'

/-- The characters that an identifier does not keep. -/
def isNameMark (c : CodePoint) : Bool := c.isNameSeparator || c = '[' || c.isNameClosing

theorem isNameClosing_iff {c : CodePoint} : c.isNameClosing ↔ c ∈ Text.ofString "]>?*" := by
  simp [isNameClosing, Text.ofString, or_assoc]

theorem isNameMark_iff {c : CodePoint} : c.isNameMark ↔ c ∈ Text.ofString "./;$ ,<[]>?*" := by
  simp [isNameMark, isNameSeparator, isNameClosing, Text.ofString, or_assoc]

/-- What stands for a character of a name. -/
def identifierPart (c : CodePoint) : Text :=
  if c.isNameSeparator then "_"
  else if c = '[' then "A"
  else if c.isNameClosing then []
  else [c]

end CodePoint

namespace Text

/-- The identifier of a symbol name. -/
def identifier (t : Text) : Text := t.flatMap CodePoint.identifierPart

theorem identifier_eq_self {t : Text} (h : ∀ c ∈ t, c.isNameMark = false) : t.identifier = t := by
  induction t with
  | nil => rfl
  | cons c cs ih =>
    have hc := h c (by simp)
    simp only [CodePoint.isNameMark, Bool.or_eq_false_iff, decide_eq_false_iff_not] at hc
    have ih := ih fun d hd => h d (by simp [hd])
    simp only [identifier, List.flatMap_cons] at ih ⊢
    simp [CodePoint.identifierPart, hc, ih]

end Text

end JavaLiteral
