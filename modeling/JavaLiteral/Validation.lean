import JavaLiteral.Json

/-!
# Validation of records

A record is read from a JSON object field by field. Every field is looked at, and the violations
of all of them are reported together in the order of the fields, those of unknown fields last
(`Checked.both`, `noOthers`). A field whose name has a surrogate in it hides them all
(`Checked.record`).
-/

namespace JavaLiteral

/-- What is wrong with a value, in general. -/
inductive Fault where
  | missing
  | notRecord (record : Text)
  | notAChoice (choices : List Text)
  | notText
  | notUnicode
  | notInteger
  | notNumber
  | notBoolean
  | unreadableBoolean
  | unknownField
  | frozen
  | refused (reason : Text)
deriving DecidableEq

/-- A fault and the path to the value that has it. -/
structure Violation where
  path : List Text
  fault : Fault
deriving DecidableEq

namespace Fault

/-- A choice in quotes. -/
def choice (c : Text) : Text := Text.ofString "'" ++ c ++ Text.ofString "'"

/-- Choices in quotes, the last one after "or". -/
def listed : List Text → Text
  | [] => []
  | [c] => choice c
  | [c, d] => choice c ++ Text.ofString " or " ++ choice d
  | c :: cs => choice c ++ Text.ofString ", " ++ listed cs

/-- The text of the fault. -/
def message : Fault → Text
  | missing => "Field required"
  | notRecord record =>
    Text.ofString "Input should be a valid dictionary or instance of " ++ record
  | notAChoice choices => Text.ofString "Input should be " ++ listed choices
  | notText => "Input should be a valid string"
  | notUnicode =>
    "Input should be a valid string, unable to parse raw data as a unicode string"
  | notInteger => "Input should be a valid integer"
  | notNumber => "Input should be a valid number"
  | notBoolean => "Input should be a valid boolean"
  | unreadableBoolean => "Input should be a valid boolean, unable to interpret input"
  | unknownField => "Extra inputs are not permitted"
  | frozen => "Instance is frozen"
  | refused reason => Text.ofString "Value error, " ++ reason

/-- The short name of the kind of fault. -/
def label : Fault → Text
  | missing => "missing"
  | notRecord _ => "model_type"
  | notAChoice _ => "enum"
  | notText => "string_type"
  | notUnicode => "string_unicode"
  | notInteger => "int_type"
  | notNumber => "float_type"
  | notBoolean => "bool_type"
  | unreadableBoolean => "bool_parsing"
  | unknownField => "extra_forbidden"
  | frozen => "frozen_instance"
  | refused _ => "value_error"

end Fault

namespace Violation

/-- The path with a point between its steps. -/
def location (v : Violation) : Text := Text.join "." v.path

/-- The violation as it stands in a report. -/
def describe (v : Violation) : Text :=
  v.location ++ Text.ofString ": " ++ v.fault.message ++ Text.ofString " [" ++ v.fault.label
    ++ Text.ofString "]"

/-- The report of several violations. -/
def report (vs : List Violation) : Text := Text.join "; " (vs.map describe)

end Violation

/-- A value that was read, or all that is wrong with it. -/
abbrev Checked (α : Type) := Except (List Violation) α

namespace Checked

variable {α β : Type}

/-- A fault of the value at a path. -/
def fault (path : List Text) (f : Fault) : Checked α := .error [⟨path, f⟩]

/-- Two values read side by side; the violations of both are reported. -/
def both : Checked α → Checked β → Checked (α × β)
  | .ok a, .ok b => .ok (a, b)
  | .ok _, .error vs => .error vs
  | .error us, .ok _ => .error us
  | .error us, .error vs => .error (us ++ vs)

theorem both_eq_ok {x : Checked α} {y : Checked β} {a : α} {b : β} :
    both x y = .ok (a, b) ↔ x = .ok a ∧ y = .ok b := by
  cases x <;> cases y <;> simp [both]

/-- What a reader of values makes of a field that has to be there. -/
def required (name : Text) (read : List Text → Json → Checked α) (fields : List (Text × Json)) :
    Checked α :=
  match Json.field? name fields with
  | some v => read [name] v
  | none => fault [name] .missing

/-- What a reader of values makes of a field that may be absent. -/
def optional (name : Text) (default : α) (read : List Text → Json → Checked α)
    (fields : List (Text × Json)) : Checked α :=
  match Json.field? name fields with
  | some v => read [name] v
  | none => .ok default

/-- A field that names one of several choices. -/
def choice (ofName? : Text → Option α) (names path : List Text) : Json → Checked α
  | .text t =>
    if t.IsEncodable then (ofName? t).elim (fault path (.notAChoice names)) .ok
    else fault path .notUnicode
  | _ => fault path (.notAChoice names)

/-- Only the given names may stand in a record. -/
def noOthers (names : List Text) (fields : List (Text × Json)) : Checked Unit :=
  match fields.filter fun f => f.1 ∉ names with
  | [] => .ok ()
  | others => .error (others.map fun f => ⟨[f.1], .unknownField⟩)

theorem noOthers_eq_ok {names : List Text} {fields : List (Text × Json)} :
    noOthers names fields = .ok () ↔ ∀ f ∈ fields, f.1 ∈ names := by
  have h : (∀ f ∈ fields, f.1 ∈ names) ↔ (fields.filter fun f => f.1 ∉ names) = [] := by
    simp [List.filter_eq_nil_iff]
  rw [h, noOthers]
  split
  · next hf => exact ⟨fun _ => hf, fun _ => rfl⟩
  · next hf => exact ⟨nofun, fun h => (hf h).elim⟩

/-- A record of which `x` reads the fields with the given names. A name that is no Unicode text
ends the search for unknown fields, and then nothing else is reported. -/
def record (names : List Text) (x : Checked α) (fields : List (Text × Json)) : Checked α :=
  if ∀ f ∈ fields, f.1.IsEncodable then (both x (noOthers names fields)).map Prod.fst
  else fault [] .notUnicode

theorem record_eq_ok {names : List Text} {x : Checked α} {fields : List (Text × Json)} {a : α}
    (hnames : ∀ name ∈ names, name.IsEncodable) :
    record names x fields = .ok a ↔ x = .ok a ∧ ∀ f ∈ fields, f.1 ∈ names := by
  have hmap : ∀ y : Checked (α × Unit), y.map Prod.fst = .ok a ↔ y = .ok (a, ()) := by
    rintro (vs | y) <;> simp [Except.map, Prod.ext_iff]
  unfold record
  split
  · rw [hmap, both_eq_ok, noOthers_eq_ok]
  · next h => exact ⟨nofun, fun hok => (h fun f hf => hnames _ (hok.2 f hf)).elim⟩

end Checked

namespace Binary

/-- The integer that a finite value is, if it is one. -/
def integer? {F : Format} (x : Binary F) : Option Int :=
  if x.isFinite ∧ x.value.den = 1 then some x.value.num else none

end Binary

namespace Boolean

/-- The words for false, whatever the case of their letters. -/
def falseWords : List Text := ["0", "off", "f", "false", "n", "no"].map Text.ofString

/-- The words for true, whatever the case of their letters. -/
def trueWords : List Text := ["1", "on", "t", "true", "y", "yes"].map Text.ofString

/-- An integer as a boolean: zero and one are, others within 64 bits cannot be interpreted, and
the rest is not looked at. -/
def ofInt (n : Int) : Except Fault Bool :=
  if n = 0 then .ok false
  else if n = 1 then .ok true
  else if -0x8000000000000000 ≤ n ∧ n ≤ 0x7FFFFFFFFFFFFFFF then .error .unreadableBoolean
  else .error .notBoolean

/-- A JSON value as a boolean. Of the reals the least that 64 bits hold is not looked at. -/
def ofJson : Json → Except Fault Bool
  | .bool b => .ok b
  | .int n => ofInt n
  | .real x =>
    match x.integer? with
    | some n => if -0x8000000000000000 < n then ofInt n else .error .notBoolean
    | none => .error .notBoolean
  | .text t =>
    if t.IsEncodable then
      let word := t.lowercase
      if word ∈ falseWords then .ok false
      else if word ∈ trueWords then .ok true
      else .error .unreadableBoolean
    else .error .notUnicode
  | _ => .error .notBoolean

/-- A field that holds a boolean. -/
def read (path : List Text) (v : Json) : Checked Bool :=
  (ofJson v).mapError fun f => [⟨path, f⟩]

end Boolean

end JavaLiteral
