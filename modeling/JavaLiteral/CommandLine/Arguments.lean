import JavaLiteral.Text

/-!
# Arguments

The words of a command line are options, some of which take a value, and arguments. A word that
starts with a dash and is longer than it is an option; after a double dash all words are
arguments. Options are looked at in the order in which they first stand on the line, and the last
value of a repeated one counts (`Scanned.switches`, `Scanned.value?`).
-/

namespace JavaLiteral.CommandLine

/-- The options of the program and its commands. -/
inductive Switch where
  | logLevel
  | escapeUnicode
  | cast
  | width
  | format
  | output
deriving DecidableEq

namespace Switch

/-- The word of an option. -/
def word : Switch → Text
  | logLevel => "--log-level"
  | escapeUnicode => "--escape-unicode"
  | cast => "--cast"
  | width => "--width"
  | format => "--format"
  | output => "--output"

/-- The letter of an option that has one. -/
def letter? : Switch → Option CodePoint
  | output => some 'o'
  | _ => none

/-- Whether a value follows. -/
def takesValue : Switch → Bool
  | escapeUnicode => false
  | cast => false
  | _ => true

end Switch

/-- What one word gives: options with their values, and maybe one whose value is the next word. -/
structure WordReading where
  options : List (Switch × Text)
  open? : Option Switch

/-- A word of option letters from after its dash on. What follows the letter of an option that
takes a value is the value. -/
def readLetters (known : List Switch) : Text → Option WordReading
  | [] => some ⟨[], none⟩
  | c :: cs =>
    match known.find? fun s => s.letter? = some c with
    | none => none
    | some s =>
      if s.takesValue then
        if cs = [] then some ⟨[], some s⟩ else some ⟨[(s, cs)], none⟩
      else (readLetters known cs).map fun r => ⟨(s, []) :: r.options, r.open?⟩

/-- The word of an option and the value attached to it after an equals sign. -/
def splitWord (w : Text) : Text × Option Text :=
  let name := w.takeWhile fun c : CodePoint => c ≠ '='
  (name, if name.length = w.length then none else some (w.drop (name.length + 1)))

/-- A word that is an option. -/
def readWord (known : List Switch) (w : Text) : Option WordReading :=
  let (name, value?) := splitWord w
  match known.find? fun s => s.word = name with
  | some s =>
    match s.takesValue, value? with
    | true, some v => some ⟨[(s, v)], none⟩
    | true, none => some ⟨[], some s⟩
    | false, some _ => none
    | false, none => some ⟨[(s, [])], none⟩
  | none =>
    if (Text.ofString "--").isPrefixOf w then none else readLetters known (w.drop 1)

/-- Whether a word is an option. -/
def isOption : Text → Bool
  | c :: _ :: _ => c = '-'
  | _ => false

/-- The options of a line as they stand there, and its arguments. -/
structure Scanned where
  given : List (Switch × Text)
  arguments : List Text
deriving DecidableEq

namespace Scanned

/-- The options before those of the rest of a line. -/
def withOptions (options : List (Switch × Text)) (s : Scanned) : Scanned :=
  ⟨options ++ s.given, s.arguments⟩

/-- An argument before those of the rest of a line. -/
def withArgument (a : Text) (s : Scanned) : Scanned := ⟨s.given, a :: s.arguments⟩

/-- The value that counts for an option. -/
def value? (s : Scanned) (o : Switch) : Option Text := s.given.reverse.lookup o

/-- Whether an option is given. -/
def has (s : Scanned) (o : Switch) : Bool := (s.value? o).isSome

/-- The options in the order in which they first stand on the line. -/
def switches (s : Scanned) : List Switch := (s.given.map Prod.fst).eraseDups

end Scanned

/-- Reads a line on which only the known options may stand. Where arguments and options do not
mix, the first argument ends the options. There is no reading with an unknown option, with one that
lacks its value, or with a value for one that takes none. -/
def scan (known : List Switch) (mixed : Bool) : List Text → Option Scanned
  | [] => some ⟨[], []⟩
  | w :: ws =>
    if w = Text.ofString "--" then some ⟨[], ws⟩
    else if isOption w then
      match readWord known w with
      | none => none
      | some ⟨options, none⟩ => (scan known mixed ws).map (Scanned.withOptions options)
      | some ⟨options, some o⟩ =>
        match ws with
        | [] => none
        | v :: ws => (scan known mixed ws).map (Scanned.withOptions (options ++ [(o, v)]))
    else if mixed then (scan known mixed ws).map (Scanned.withArgument w)
    else some ⟨[], w :: ws⟩

end JavaLiteral.CommandLine
