import JavaLiteral.Json.Printer
import JavaLiteral.Json.Reader
import JavaLiteral.Log
import JavaLiteral.Request
import JavaLiteral.Text.Lines
import JavaLiteral.Text.Utf8

/-!
# Batches of requests

A file holds a request a line, in JSON; blank lines are passed over but counted. The requests are
rendered in order up to the first line that is bad (`Batch.render`), so what is reported is always
the first bad line, whatever follows it.
-/

namespace JavaLiteral

/-- A request and its literal. -/
structure Row where
  request : Request
  literal : Text

namespace Row

/-- The row as one line of JSON. -/
def toText (r : Row) : Except Json.Unwritable Text :=
  Json.toText (.object (r.request.toFields ++ [(Text.ofString "literal", .text r.literal)]))

end Row

/-- What is wrong with a line. -/
inductive LineFault where
  | malformed
  | invalid (v : Violation)
deriving DecidableEq

namespace LineFault

/-- The text of the fault. What the parser says of malformed JSON, which follows in parentheses, is
left out. -/
def message : LineFault → Text
  | malformed => "malformed JSON"
  | invalid v =>
    Text.ofString "invalid literal row"
      ++ (if v.location = [] then [] else
        Text.ofString " at '" ++ v.location ++ Text.ofString "'")
      ++ Text.ofString ": " ++ v.fault.message

end LineFault

/-- Why a batch stops. -/
inductive BatchError where
  | line (number : Nat) (fault : LineFault)
  | encoding (f : Utf8.Failure)
  | render (e : RenderError)

namespace Batch

/-- A line of a file, by its number from one on. -/
structure Line where
  number : Nat
  text : Text
deriving DecidableEq

/-- The lines of a file that are not blank, without the blanks around them. -/
def filledLines (t : Text) : List Line :=
  (((t.lines.map Text.trim).zipIdx 1).filter fun l => l.1 ≠ []).map fun l => ⟨l.2, l.1⟩

/-- The request of a line. -/
def requestOf (t : Text) : Except LineFault Request :=
  match Json.ofText? t with
  | none => .error .malformed
  | some v =>
    match Request.ofJson v with
    | .ok r => .ok r
    | .error (v :: _) => .error (.invalid v)
    | .error [] => .error .malformed

/-- The row of a line. -/
def rowOf (s : Session) (l : Line) : Except BatchError Row :=
  match requestOf l.text with
  | .error f => .error (.line l.number f)
  | .ok r =>
    match r.literal s.settings with
    | .ok literal => .ok ⟨r, literal.answer s.isPrintable⟩
    | .error e => .error (.render e)

/-- What came of a batch: the rows up to where it stopped, and why it did. -/
structure Result where
  rows : List Row
  error : Option BatchError

/-- Renders lines in order up to the first bad one; without one, `ending` is why it stops. -/
def render (s : Session) (ending : Option BatchError) : List Line → Result
  | [] => ⟨[], ending⟩
  | l :: ls =>
    match rowOf s l with
    | .error e => ⟨[], some e⟩
    | .ok row =>
      let rest := render s ending ls
      ⟨row :: rest.rows, rest.error⟩

/-- Renders the octets of a file. A file that is not UTF-8 is rendered up to the last whole line
that was read of it. -/
def run (s : Session) (octets : List Nat) : Result :=
  let r := Utf8.read octets
  match r.failure with
  | none => render s none (filledLines r.text)
  | some f => render s (some (.encoding f)) (filledLines r.text.wholeLines)

/-- The name under which a batch makes its log entries. -/
def source : Text := "literalfmt.batch"

/-- The log entry of a row. -/
def rowEntry (r : Row) : Log.Entry :=
  ⟨.debug, source, Text.ofString "rendered " ++ r.request.kind.name ++ Text.ofString " literal: "
    ++ r.literal⟩

/-- The log entries of a batch: one a row, and their count if it came to its end. -/
def Result.entries (r : Result) : List Log.Entry :=
  r.rows.map rowEntry ++
    if r.error.isSome then [] else
      [⟨.debug, source, Text.ofString "rendered " ++ Text.numeral 10 r.rows.length
        ++ Text.ofString " literal rows"⟩]

end Batch

end JavaLiteral
