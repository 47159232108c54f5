import JavaLiteral.Text.Quoted

/-!
# Paths

A path is the steps between its slashes, without empty ones and ones that stay where they are. It
starts from the working folder or from a root: two slashes at its start are kept, and more than
two are one. A path is shown in this plain form, and the path without steps as a point
(`Path.toText`).
-/

namespace JavaLiteral

namespace CodePoint

/-- Whether a code point may stand in a path. U+0000 ends a path, and a surrogate has no octets
except for those that stand for a single octet past U+007F. -/
def isPathPart (c : CodePoint) : Bool :=
  c.val ≠ 0 && (!c.isSurrogate || (0xDC80 ≤ c.val && c.val ≤ 0xDCFF))

/-- How many octets stand for a code point in a path. -/
def pathOctets (c : CodePoint) : Nat :=
  if c.isSurrogate || c.val < 0x80 then 1
  else if c.val < 0x800 then 2
  else if c.val < 0x10000 then 3
  else 4

end CodePoint

/-- A path, by the slashes of its root and its steps. -/
structure Path where
  root : Text
  steps : List Text
deriving DecidableEq

namespace Path

/-- The pieces of a text between its slashes. -/
def pieces : Text → List Text
  | [] => [[]]
  | c :: cs =>
    if c = '/' then [] :: pieces cs
    else match pieces cs with
      | [] => [[c]]
      | s :: ss => (c :: s) :: ss

/-- The root of a path that starts with slashes. -/
def rootOf (t : Text) : Text :=
  match (t.takeWhile fun c : CodePoint => c = '/').length with
  | 0 => []
  | 2 => "//"
  | _ => "/"

/-- The path of a text. -/
def ofText (t : Text) : Path :=
  ⟨rootOf t, (pieces t).filter fun s => s ≠ [] ∧ s ≠ Text.ofString "."⟩

/-- The path of a text that can be one. -/
def ofText? (t : Text) : Option Path := if t.all CodePoint.isPathPart then some (ofText t) else none

/-- The path in its plain form. -/
def toText (p : Path) : Text :=
  match p.root ++ Text.join "/" p.steps with
  | [] => "."
  | t => t

end Path

end JavaLiteral
