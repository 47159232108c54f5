import JavaLiteral.Consult
import JavaLiteral.Text.Quoted

/-!
# String and char literals

A string literal writes each code point by a letter escape, raw, or by the `\u` escapes of its
UTF-16 units. A char literal is quoted where the code has a readable form and is the plain number
of the code where it has none.

Both ask about a code point only where its form depends on the answer: the string literal from
U+007F on and only when Unicode is not escaped throughout (`asked_escapedBody`), the char literal
at most once.
-/

namespace JavaLiteral

namespace CodePoint

/-- The letter escapes, which come before every other rule. A single quote needs no escape within
a string, so it is written as itself. -/
def letterEscape? (c : CodePoint) : Option Text :=
  if c = '\n' then some "\\n"
  else if c = '\r' then some "\\r"
  else if c = '\t' then some "\\t"
  else if c = '\x08' then some "\\b"
  else if c = '\x0C' then some "\\f"
  else if c = '\'' then some "'"
  else if c = '"' then some "\\\""
  else if c = '\\' then some "\\\\"
  else none

/-- A code point from U+007F on has to be asked about, unless all of them are escaped. -/
def isBeyondAscii (c : CodePoint) : Bool := 0x7F ≤ c.val

/-- What stands for a code point within a string literal. -/
def escaped (escapeUnicode : Bool) (c : CodePoint) : Consult Text :=
  match c.letterEscape? with
  | some t => pure t
  | none =>
    if c.val < 0x20 then pure c.unicodeEscape
    else if !c.isBeyondAscii then pure [c]
    else if escapeUnicode then pure c.unicodeEscape
    else (fun raw => if raw then [c] else c.unicodeEscape) <$> Consult.printable c

theorem letterEscape?_eq_none_of_isBeyondAscii {c : CodePoint} (h : c.isBeyondAscii) :
    c.letterEscape? = none := by
  simp only [isBeyondAscii, decide_eq_true_eq] at h
  simp only [letterEscape?, CodePoint.ext_iff, val_ofChar]
  repeat' split
  all_goals simp_all

theorem asked_escaped (p : CodePoint → Bool) (escapeUnicode : Bool) (c : CodePoint) :
    (c.escaped escapeUnicode).asked p = if c.isBeyondAscii && !escapeUnicode then [c] else [] := by
  unfold escaped
  by_cases h : c.isBeyondAscii
  · have hv : ¬ c.val < 0x20 := by simp only [isBeyondAscii, decide_eq_true_eq] at h; omega
    cases escapeUnicode <;> simp [letterEscape?_eq_none_of_isBeyondAscii h, h, hv]
  · split
    · simp [h]
    · split <;> simp [h]

end CodePoint

namespace Text

/-- What stands between the quotes of a string literal. -/
def escapedBody (escapeUnicode : Bool) (t : Text) : Consult Text :=
  Consult.flatMap (CodePoint.escaped escapeUnicode) t

/-- The text as a string literal in double quotes. -/
def stringLiteral (escapeUnicode : Bool) (t : Text) : Consult Text :=
  (fun body => CodePoint.ofChar '"' :: body ++ [CodePoint.ofChar '"']) <$>
    t.escapedBody escapeUnicode

theorem asked_escapedBody (p : CodePoint → Bool) (escapeUnicode : Bool) (t : Text) :
    (t.escapedBody escapeUnicode).asked p
      = t.filter fun c => c.isBeyondAscii && !escapeUnicode := by
  simp only [escapedBody, Consult.asked_flatMap, CodePoint.asked_escaped]
  induction t with
  | nil => rfl
  | cons c cs ih =>
    simp only [List.flatMap_cons, List.filter_cons, ih]
    split <;> rfl

end Text

/-- What a char literal may be asked for: a text, which should be one character, or a code. -/
inductive CharArgument where
  | text (t : Text)
  | code (n : Int)
deriving DecidableEq

/-- Why there is no char literal. -/
inductive CharError where
  | notSingle (t : Text)
  | notUnit (n : Int)
deriving DecidableEq

namespace CharError

/-- The hexadecimal form of a code, with its sign in front. -/
def shownCode (n : Int) : Text :=
  (if n < 0 then Text.ofString "-" else []) ++ Text.ofString "0x" ++ Text.numeral 16 n.natAbs

/-- The text of the error. -/
def message : CharError → Text
  | notSingle t => Text.ofString "Expected a single character, got " ++ t.quoted
  | notUnit n =>
    Text.ofString "Code point " ++ shownCode n
      ++ Text.ofString " does not fit a single UTF-16 char"

end CharError

/-- The forms of a char: what stands between single quotes, or its code as a number. -/
inductive CharForm where
  | quoted (body : Text)
  | number (code : Nat)
deriving DecidableEq

namespace CharForm

/-- The form as source text; only a number is ever cast. -/
def render (cast : Bool) : CharForm → Text
  | quoted body => CodePoint.ofChar '\'' :: body ++ [CodePoint.ofChar '\'']
  | number code =>
    if cast then Text.ofString "(char) " ++ Text.numeral 10 code else Text.numeral 10 code

end CharForm

namespace CharArgument

/-- The number that an argument stands for, if it is no text of another length than one. -/
def number : CharArgument → Except CharError Int
  | text [c] => .ok c.val
  | text t => .error (.notSingle t)
  | code n => .ok n

/-- The code point that an argument stands for, which one UTF-16 unit must hold. -/
def codePoint (a : CharArgument) : Except CharError CodePoint := do
  let n ← a.number
  if h : 0 ≤ n ∧ n ≤ 0xFFFF then .ok ⟨n.toNat, by omega⟩ else .error (.notUnit n)

end CharArgument

namespace CodePoint

/-- The form of a char: by a letter escape, by its Unicode escape where those are wanted, raw
where it is printable, and else its number. -/
def charForm (escapeUnicode : Bool) (c : CodePoint) : Consult CharForm :=
  if c = '\'' then pure (.quoted "\\'")
  else match c.letterEscape? with
    | some t => pure (.quoted t)
    | none =>
      if c.isBeyondAscii && escapeUnicode then pure (.quoted c.unicodeEscape)
      else (fun raw => if raw then .quoted [c] else .number c.val) <$> Consult.printable c

end CodePoint

namespace CharArgument

/-- The char literal of an argument. -/
def literal (escapeUnicode cast : Bool) (a : CharArgument) : Except CharError (Consult Text) := do
  let c ← a.codePoint
  .ok (CharForm.render cast <$> c.charForm escapeUnicode)

end CharArgument

end JavaLiteral
