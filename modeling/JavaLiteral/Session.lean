import JavaLiteral.Escape.Source
import JavaLiteral.Floating
import JavaLiteral.Integer
import JavaLiteral.Validation

/-!
# Settings and sessions

The settings fix how Unicode is escaped and how the digits of integers are chosen. A session
joins them with a printability predicate and answers calls for literals; it never changes, so the
answer to a call does not depend on the calls before it.
-/

namespace JavaLiteral

/-- The settings of a session. -/
structure Settings where
  escapeUnicode : Bool
  integerFormat : IntegerFormat
deriving DecidableEq

namespace Settings

/-- What holds unless something else is asked for. -/
def standard : Settings := ⟨false, .auto⟩

/-- A field that names an integer format. -/
def readFormat : List Text → Json → Checked IntegerFormat :=
  Checked.choice IntegerFormat.ofName? (IntegerFormat.all.map IntegerFormat.name)

/-- The settings of a JSON object. -/
def ofJson : Json → Checked Settings
  | .object fields =>
    (Checked.record ["escape_unicode", "integer_format"]
      (Checked.both (Checked.optional "escape_unicode" false Boolean.read fields)
        (Checked.optional "integer_format" .auto readFormat fields)) fields).map
      fun r => ⟨r.1, r.2⟩
  | _ => Checked.fault [] (.notRecord "FormatterConfig")

/-- Settings are never changed, so to assign a field fails, whatever its name. -/
def assign (_ : Settings) (field : Text) (_ : Json) : Checked Settings :=
  Checked.fault [field] .frozen

end Settings

/-- A call for a literal. -/
inductive Call where
  | string (t : Text)
  | char (a : CharArgument) (cast : Bool)
  | integer (w : Width) (v : Int) (cast : Bool)
  | double (x : Double)
  | float (x : Double)

/-- Why a call has no literal. -/
inductive CallError where
  | char (e : CharError)
  | integer (e : IntegerError)
deriving DecidableEq

namespace CallError

/-- The text of the error. -/
def message : CallError → Text
  | char e => e.message
  | integer e => e.message

end CallError

namespace Settings

/-- The literal that a call asks for. -/
def literal (s : Settings) : Call → Except CallError (Consult Text)
  | .string t => .ok (t.stringLiteral s.escapeUnicode)
  | .char a cast => (a.literal s.escapeUnicode cast).mapError .char
  | .integer w v cast => ((w.literal s.integerFormat cast v).map pure).mapError .integer
  | .double x => .ok (pure x.literal)
  | .float x => .ok (pure x.narrowedLiteral)

end Settings

/-- Settings and the predicate that is asked. -/
structure Session where
  settings : Settings
  isPrintable : CodePoint → Bool

namespace Session

/-- The answer to a call. -/
def literal (s : Session) (c : Call) : Except CallError Text :=
  (s.settings.literal c).map (Consult.answer s.isPrintable)

end Session

end JavaLiteral
