import JavaLiteral.Text
import JavaLiteral.Uppercase.Table

/-!
# Uppercase

The full uppercase mapping, which may turn one code point into several. A code point outside the
table is its own uppercase (`uppercase_eq_self`).
-/

namespace JavaLiteral

namespace Uppercase

/-- The image of a code within a run that holds it. -/
def Run.image? (r : Run) (n : Nat) : Option Nat :=
  if r.first ≤ n ∧ n ≤ r.last ∧ (n - r.first) % r.step = 0 then some (r.image + (n - r.first))
  else none

/-- The codes of the uppercase of a code. -/
def codes (n : Nat) : List Nat :=
  match runs.findSome? fun r => r.image? n with
  | some m => [m]
  | none => (sequences.lookup n).getD [n]

end Uppercase

namespace CodePoint

/-- The uppercase of a code point. -/
def uppercase (c : CodePoint) : Text := (Uppercase.codes c.val).filterMap ofNat?

theorem uppercase_eq_self {c : CodePoint} (h : Uppercase.codes c.val = [c.val]) :
    c.uppercase = [c] := by
  have : ofNat? c.val = some c := ofNat?_eq_some.2 rfl
  simp [uppercase, h, this]

end CodePoint

namespace Text

/-- The uppercase of a text, code point by code point. -/
def uppercase (t : Text) : Text := t.flatMap CodePoint.uppercase

/-- The text with its first code point in uppercase. -/
def capitalized : Text → Text
  | [] => []
  | c :: cs => c.uppercase ++ cs

end Text

end JavaLiteral
