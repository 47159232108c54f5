import JavaLiteral.Escape.Identifier
import JavaLiteral.Escape.Markup
import JavaLiteral.Session
import JavaLiteral.Text.Blank

/-!
# Requests

A request asks for one literal by its kind and a value. Validation looks at the parts in phases,
each of which hides those after it: a boolean value, then the shape of the record, then the names
of its fields, then the fields all together, then whether the value suits the kind
(`Request.ofJson`).
-/

namespace JavaLiteral

/-- The floating-point types. -/
inductive RealType where
  | float
  | double
deriving DecidableEq

/-- The kinds of literals. -/
inductive Kind where
  | string
  | char
  | identifier
  | markup (m : Markup)
  | integer (t : IntType)
  | real (t : RealType)
deriving DecidableEq

namespace Kind

/-- All kinds, in the order that messages list them. -/
def all : List Kind :=
  [string, char, identifier, markup .xml, markup .resourceValue, markup .resourceString,
    integer .byte, integer .short, integer .int, integer .long, real .float, real .double]

/-- The name of a kind. -/
def name : Kind → Text
  | string => "string"
  | char => "char"
  | identifier => "identifier"
  | markup .xml => "xml"
  | markup .resourceValue => "res_value"
  | markup .resourceString => "res_str_value"
  | integer t => t.keyword
  | real .float => "float"
  | real .double => "double"

/-- The kind of a name. -/
def ofName? (t : Text) : Option Kind := all.find? fun k => k.name = t

theorem mem_all (k : Kind) : k ∈ all := by
  match k with
  | string => decide
  | char => decide
  | identifier => decide
  | markup m => cases m <;> decide
  | integer t => cases t <;> decide
  | real t => cases t <;> decide

theorem ofName?_name (k : Kind) : ofName? k.name = some k := by
  match k with
  | string => decide
  | char => decide
  | identifier => decide
  | markup m => cases m <;> decide
  | integer t => cases t <;> decide
  | real t => cases t <;> decide

end Kind

/-- The value of a request, in the type that it was given in. -/
inductive Operand where
  | text (t : Text)
  | integer (n : Int)
  | real (x : Double)
deriving DecidableEq

namespace Operand

/-- The value in JSON. -/
def toJson : Operand → Json
  | text t => .text t
  | integer n => .int n
  | real x => .real x

/-- A field that holds the value of a request. -/
def read (path : List Text) : Json → Checked Operand
  | .text t => .ok (.text t)
  | .int n => .ok (.integer n)
  | .real x => .ok (.real x)
  | _ =>
    .error [⟨path ++ [Text.ofString "str"], .notText⟩, ⟨path ++ [Text.ofString "int"], .notInteger⟩,
      ⟨path ++ [Text.ofString "float"], .notNumber⟩]

end Operand

/-- A request for a literal. -/
structure Request where
  kind : Kind
  operand : Operand
  cast : Bool
deriving DecidableEq

/-- Why a request is refused that has all its fields. -/
inductive Refusal where
  | booleanValue
  | notText (k : Kind)
  | notOneCharacter
  | notOneUnit
  | notInteger (k : Kind)
  | outOfRange (n : Int)
  | notNumber (k : Kind)
deriving DecidableEq

namespace Refusal

/-- A kind as messages name it. -/
def shown (k : Kind) : Text := Text.ofString "kind '" ++ k.name ++ Text.ofString "'"

/-- The text of the refusal. -/
def message : Refusal → Text
  | booleanValue => "value: bool is not allowed"
  | notText k => shown k ++ Text.ofString " requires a string value"
  | notOneCharacter => shown .char ++ Text.ofString " requires exactly one character"
  | notOneUnit => shown .char ++ Text.ofString " requires a BMP character"
  | notInteger k => shown k ++ Text.ofString " requires an integer value"
  | outOfRange n => Text.withInt "Value " n " is out of signed 64-bit range"
  | notNumber k => shown k ++ Text.ofString " requires a number or one of nan/inf/-inf"

end Refusal

/-- The values that are named and not written as numbers. -/
def nonFinite? (t : Text) : Option Double :=
  let name := t.trim.lowercase
  if name = "nan" then some (Binary.nan false)
  else if name = "inf" ∨ name = "+inf" then some (Binary.infinite false)
  else if name = "-inf" then some (Binary.infinite true)
  else none

namespace Request

/-- What is wrong with a value for a kind. -/
def refusal? : Kind → Operand → Option Refusal
  | .char, .text [c] => if c.val ≤ 0xFFFF then none else some .notOneUnit
  | .char, .text _ => some .notOneCharacter
  | .string, .text _ | .identifier, .text _ | .markup _, .text _ => none
  | .integer _, .integer n => if IntType.long.holds n then none else some (.outOfRange n)
  | .integer t, _ => some (.notInteger (.integer t))
  | .real t, .text s => if (nonFinite? s).isSome then none else some (.notNumber (.real t))
  | .real _, _ => none
  | k, _ => some (.notText k)

/-- A field that names a kind. -/
def readKind : List Text → Json → Checked Kind :=
  Checked.choice Kind.ofName? (Kind.all.map Kind.name)

/-- A violation of the record as a whole. -/
def refused {α : Type} (r : Refusal) : Checked α := Checked.fault [] (.refused r.message)

/-- The request of fields that are looked at one by one. -/
def ofFields (fields : List (Text × Json)) : Checked Request :=
  (Checked.record ["kind", "value", "cast"]
    (Checked.both (Checked.required "kind" readKind fields)
      (Checked.both (Checked.required "value" Operand.read fields)
        (Checked.optional "cast" false Boolean.read fields))) fields).map
    fun r => ⟨r.1, r.2.1, r.2.2⟩

/-- The request of a JSON value. -/
def ofJson : Json → Checked Request
  | .object fields =>
    match Json.field? "value" fields with
    | some (.bool _) => refused .booleanValue
    | _ => do
      let r ← ofFields fields
      match refusal? r.kind r.operand with
      | none => .ok r
      | some why => refused why
  | _ => Checked.fault [] (.notRecord "LiteralRequest")

/-- The fields of a request in JSON. -/
def toFields (r : Request) : List (Text × Json) :=
  [("kind", .text r.kind.name), ("value", r.operand.toJson), ("cast", .bool r.cast)]

end Request

/-- Why a request has no literal. Validation leaves the overflow alone. -/
inductive RenderError where
  | call (e : CallError)
  | overflow
  | unsuited

namespace RenderError

/-- The text of the error. -/
def message : RenderError → Text
  | call e => e.message
  | overflow => "int too large to convert to float"
  | unsuited => "value does not suit the kind"

end RenderError

namespace Operand

/-- The number that a value stands for among the values of type `double`. -/
def toDouble : Operand → Except RenderError Double
  | text t => (nonFinite? t).elim (.error .unsuited) .ok
  | integer n => (Binary.ofInt? n).elim (.error .overflow) .ok
  | real x => .ok x

end Operand

namespace Request

/-- The literal that a request asks for. -/
def literal (s : Settings) (r : Request) : Except RenderError (Consult Text) :=
  let call := fun c => (s.literal c).mapError .call
  match r.kind, r.operand with
  | .string, .text t => call (.string t)
  | .char, .text t => call (.char (.text t) r.cast)
  | .identifier, .text t => .ok (pure t.identifier)
  | .markup m, .text t => .ok (pure (t.escapedMarkup m))
  | .integer t, .integer n => call (.integer t.width n r.cast)
  | .real .float, v => do call (.float (← v.toDouble))
  | .real .double, v => do call (.double (← v.toDouble))
  | _, _ => .error .unsuited

end Request

end JavaLiteral
