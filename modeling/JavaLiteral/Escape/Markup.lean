import JavaLiteral.Text

/-!
# XML and resource text

Three styles of escaped text share one table of entities. A control code is a backslash and its
decimal number; the resource styles write five of the controls by letters instead, and a string
resource puts a backslash before quotes, where the others have an entity. A text that needs no
escape in a style is its own escaped form (`escapedMarkup_eq_self`).
-/

namespace JavaLiteral

/-- The styles of escaped text. -/
inductive Markup where
  | xml
  | resourceValue
  | resourceString
deriving DecidableEq

namespace CodePoint

/-- The entities, and the backslash, which is doubled. -/
def entity? (c : CodePoint) : Option Text :=
  if c = '&' then some "&amp;"
  else if c = '<' then some "&lt;"
  else if c = '>' then some "&gt;"
  else if c = '"' then some "&quot;"
  else if c = '\'' then some "&apos;"
  else if c = '\\' then some "\\\\"
  else none

/-- The XML escape of a character that needs one. -/
def xmlEscape? (c : CodePoint) : Option Text :=
  if c.val ≤ 0x1F then some (CodePoint.ofChar '\\' :: Text.numeral 10 c.val) else c.entity?

/-- The letter of a control code in resource text. -/
def blankEscape? (c : CodePoint) : Option Text :=
  if c = '\n' then some "\\n"
  else if c = '\r' then some "\\r"
  else if c = '\t' then some "\\t"
  else if c = '\x08' then some "\\b"
  else if c = '\x0C' then some "\\f"
  else none

/-- A quote in a string resource. -/
def quoteEscape? (c : CodePoint) : Option Text :=
  if c = '"' then some "\\\"" else if c = '\'' then some "\\'" else none

/-- The escape of a character that needs one in a style. -/
def markupEscape? (c : CodePoint) : Markup → Option Text
  | .xml => c.xmlEscape?
  | .resourceValue => c.blankEscape? <|> c.xmlEscape?
  | .resourceString => c.quoteEscape? <|> c.blankEscape? <|> c.xmlEscape?

end CodePoint

namespace Text

/-- The text escaped in a style. -/
def escapedMarkup (m : Markup) (t : Text) : Text :=
  t.flatMap fun c => (c.markupEscape? m).getD [c]

theorem escapedMarkup_eq_self {m : Markup} {t : Text} (h : ∀ c ∈ t, c.markupEscape? m = none) :
    t.escapedMarkup m = t := by
  induction t with
  | nil => rfl
  | cons c cs ih =>
    have ih := ih fun d hd => h d (by simp [hd])
    simp only [escapedMarkup, List.flatMap_cons] at ih ⊢
    simp [h c (by simp), ih]

end Text

end JavaLiteral
