import JavaLiteral.Binary
import JavaLiteral.Text

/-!
# JSON values

A number without fraction and exponent is an integer and stays one, and every other number is a
`double`. The fields of an object keep their order, and a name stands there once: a field that is
set again keeps its place and takes the new value (`Json.setField`).
-/

namespace JavaLiteral

/-- A JSON value. -/
inductive Json where
  | null
  | bool (b : Bool)
  | int (n : Int)
  | real (x : Double)
  | text (t : Text)
  | list (values : List Json)
  | object (fields : List (Text × Json))

namespace Json

/-- Fields with one of them set. -/
def setField (name : Text) (value : Json) : List (Text × Json) → List (Text × Json)
  | [] => [(name, value)]
  | (n, v) :: fields =>
    if n = name then (n, value) :: fields else (n, v) :: setField name value fields

/-- The value of a field. -/
def field? (name : Text) (fields : List (Text × Json)) : Option Json := fields.lookup name

theorem field?_setField_self (name : Text) (value : Json) :
    ∀ fields : List (Text × Json), field? name (setField name value fields) = some value
  | [] => by simp [setField, field?]
  | (n, v) :: fields => by
    have ih := field?_setField_self name value fields
    unfold field? at ih ⊢
    simp only [setField]
    split
    · next h => simp [h]
    · next h => simp [List.lookup_cons, beq_eq_false_iff_ne.2 (Ne.symm h), ih]

theorem field?_setField_ne {name other : Text} (value : Json) (h : other ≠ name) :
    ∀ fields : List (Text × Json), field? other (setField name value fields) = field? other fields
  | [] => by simp [setField, field?, List.lookup_cons, beq_eq_false_iff_ne.2 h]
  | (n, v) :: fields => by
    have ih := field?_setField_ne value h fields
    unfold field? at ih ⊢
    simp only [setField]
    split
    · next hn => simp [List.lookup_cons, hn, beq_eq_false_iff_ne.2 h]
    · simp only [List.lookup_cons, ih]

end Json

end JavaLiteral
