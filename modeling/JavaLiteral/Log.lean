import JavaLiteral.Text

/-!
# Log entries

An entry is shown if its level is at least the one that is asked for (`Log.shown`).
-/

namespace JavaLiteral.Log

/-- The levels of log entries, from the least on. -/
inductive Level where
  | debug
  | info
  | warning
  | error
deriving DecidableEq

namespace Level

/-- The place of a level among all. -/
def rank : Level → Nat
  | debug => 0
  | info => 1
  | warning => 2
  | error => 3

/-- The name of a level. -/
def name : Level → Text
  | debug => "DEBUG"
  | info => "INFO"
  | warning => "WARNING"
  | error => "ERROR"

/-- The level of a name. -/
def ofName? (t : Text) : Option Level := [debug, info, warning, error].find? fun l => l.name = t

end Level

/-- A log entry and the part of the program that makes it. -/
structure Entry where
  level : Level
  source : Text
  message : Text
deriving DecidableEq

namespace Entry

/-- The entry as a line, without its line end. -/
def line (e : Entry) : Text :=
  e.level.name ++ Text.ofString " " ++ e.source ++ Text.ofString ": " ++ e.message

end Entry

/-- The entries that a level shows. -/
def shown (least : Level) (entries : List Entry) : List Entry :=
  entries.filter fun e => least.rank ≤ e.level.rank

end JavaLiteral.Log
