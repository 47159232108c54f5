import JavaLiteral.Batch
import JavaLiteral.CommandLine.Arguments
import JavaLiteral.CommandLine.Folder
import JavaLiteral.Text.Terminal
import JavaLiteral.Uppercase

/-!
# Commands

A line names one of six commands. It is read in stages, each of which hides the faults of the
stages after it: the options before the command, the name of the command, the log level, and then
the options and the argument of the command (`Command.parse`). A command that was read is
run on the octets of its input file, if it has one (`Command.run`), and what it writes goes to a
file last of all (`Command.outcome`).
-/

namespace JavaLiteral.CommandLine

/-- The names of the commands. -/
inductive Verb where
  | string
  | char
  | integer
  | double
  | float
  | batch
deriving DecidableEq

namespace Verb

/-- All commands. -/
def all : List Verb := [string, char, integer, double, float, batch]

/-- The word of a command. -/
def word : Verb → Text
  | string => "string"
  | char => "char"
  | integer => "integer"
  | double => "double"
  | float => "float"
  | batch => "batch"

/-- The command of a word. -/
def ofWord? (w : Text) : Option Verb := all.find? fun v => v.word = w

/-- The options of a command. -/
def switches : Verb → List Switch
  | string => [.escapeUnicode]
  | char => [.cast, .escapeUnicode]
  | integer => [.width, .format, .cast]
  | double => []
  | float => []
  | batch => [.output, .format, .escapeUnicode]

end Verb

/-- Why a line is refused. -/
inductive UsageError where
  | grammar
  | logLevel (given : Text)
  | width (n : Int)
  | notOneCharacter (given : Text)
  | value (e : CallError)
deriving DecidableEq

namespace UsageError

/-- The text of the error, unless the grammar of the line itself is at fault. -/
def message? : UsageError → Option Text
  | grammar => none
  | logLevel given => some (Text.ofString "Invalid log level '" ++ given ++ Text.ofString "'")
  | width n =>
    some (Text.ofString "Invalid width " ++ Text.ofInt n
      ++ Text.ofString ": expected one of 1, 2, 4, 8")
  | notOneCharacter given =>
    some (Text.ofString "Invalid char '" ++ given
      ++ Text.ofString "': expected exactly one character")
  | value e => some e.message

end UsageError

/-- A command with its options and its argument. -/
inductive Command where
  | string (t : Text) (escapeUnicode : Bool)
  | char (t : Text) (cast escapeUnicode : Bool)
  | integer (v : Int) (w : Width) (f : IntegerFormat) (cast : Bool)
  | double (x : Double)
  | float (x : Double)
  | batch (input : Path) (output : Option Path) (settings : Settings)

/-- What a line comes to when it is not refused. -/
structure Report where
  status : Nat
  out : Text
  err : Text
  written : Option (Path × Text)

/-- Why a command fails that has begun. -/
inductive Failure where
  | render (e : RenderError)
  | unwritable (e : Json.Unwritable)

namespace Failure

/-- The text of the failure. -/
def message : Failure → Text
  | render e => e.message
  | unwritable e => e.message

end Failure

/-- The outcomes of a run. A failure may come when a file is being written. -/
inductive Outcome where
  | report (r : Report)
  | usage (e : UsageError)
  | file (e : FileError)
  | failure (e : Failure) (writing : Option Path)

namespace Command

/-- The line of a text. -/
def line (t : Text) : Text := t ++ [CodePoint.ofChar '\n']

/-- The integer format that an option names. -/
def formatOf (s : Scanned) : Except UsageError IntegerFormat :=
  match s.value? .format with
  | none => .ok .auto
  | some t =>
    match IntegerFormat.ofName? t with
    | some f => .ok f
    | none => .error .grammar

/-- The width that an option gives. -/
def widthOf (s : Scanned) : Except UsageError Width :=
  match s.value? .width with
  | none => .ok (.number 4)
  | some t =>
    match Numeral.integer? t with
    | none => .error .grammar
    | some n =>
      match (Width.number n).type with
      | .ok _ => .ok (.number n)
      | .error _ => .error (.width n)

/-- A part of a line that has to be there and to be readable. -/
def readable {α : Type} : Option α → Except UsageError α
  | some a => .ok a
  | none => .error .grammar

/-- The path that an option gives. -/
def outputOf (s : Scanned) : Except UsageError (Option Path) :=
  match s.value? .output with
  | none => .ok none
  | some t => (readable (Path.ofText? t)).map some

/-- Whether the value of an option can stand. -/
def checkOption (s : Scanned) (o : Switch) : Except UsageError Unit :=
  match o with
  | .format => do let _ ← formatOf s
  | .width => do let _ ← widthOf s
  | .output => do let _ ← outputOf s
  | _ => .ok ()

/-- The single argument of a command. -/
def argumentOf (s : Scanned) : Except UsageError Text :=
  match s.arguments with
  | [a] => .ok a
  | _ => .error .grammar

/-- The command of a name, its options and its argument. -/
def ofScanned (v : Verb) (s : Scanned) : Except UsageError Command := do
  s.switches.forM (checkOption s)
  let a ← argumentOf s
  match v with
  | .string => .ok (.string a (s.has .escapeUnicode))
  | .char => .ok (.char a (s.has .cast) (s.has .escapeUnicode))
  | .integer =>
    .ok (.integer (← readable (Numeral.integer? a)) (← widthOf s) (← formatOf s) (s.has .cast))
  | .double => .ok (.double (← readable (Numeral.double? a)))
  | .float => .ok (.float (← readable (Numeral.double? a)))
  | .batch =>
    .ok (.batch (← readable (Path.ofText? a)) (← outputOf s)
      ⟨s.has .escapeUnicode, ← formatOf s⟩)

/-- The log level that an option names, blanks and case aside. -/
def levelOf (s : Scanned) : Except UsageError Log.Level :=
  match s.value? .logLevel with
  | none => .ok .warning
  | some t =>
    match Log.Level.ofName? t.trim.uppercase with
    | some l => .ok l
    | none => .error (.logLevel t)

/-- The log level and the command of a line. -/
def parse (words : List Text) : Except UsageError (Log.Level × Command) := do
  let front ← readable (scan [.logLevel] false words)
  match front.arguments with
  | [] => .error .grammar
  | w :: ws =>
    let v ← readable (Verb.ofWord? w)
    let level ← levelOf front
    .ok (level, ← ofScanned v (← readable (scan v.switches true ws)))

/-- The file that a command reads. -/
def input? : Command → Option Path
  | batch input _ _ => some input
  | _ => none

/-- The outcome of a call for a literal: the literal as a line. -/
def ofCall (s : Settings) (c : Call) : Outcome :=
  match (Session.mk s CodePoint.isPrintable).literal c with
  | .ok t => .report ⟨0, line t, [], none⟩
  | .error e => .usage (.value e)

/-- The entries that a level shows, as lines. -/
def logLines (level : Log.Level) (entries : List Log.Entry) : Text :=
  (Log.shown level entries).flatMap fun e => line e.line

/-- The name under which a command makes its log entries. -/
def source : Text := "literalfmt.cli"

/-- A message to the user as a line, without instructions to a terminal. -/
def message (t : Text) : Text := line t.withoutSequences

/-- The entry for a batch that came to its end. -/
def countEntry (input : Path) (count : Nat) : Log.Entry :=
  ⟨.info, source, Text.ofString "rendered " ++ Text.numeral 10 count
    ++ Text.ofString " literals from " ++ input.toText⟩

/-- The text of what stops a batch, unless it is a failure of the program. -/
def stopMessage (input : Path) : BatchError → Except RenderError Text
  | .line n f =>
    .ok (Text.ofString "Error: invalid JSONL row in " ++ input.toText ++ Text.ofString " at line "
      ++ Text.numeral 10 n ++ Text.ofString ": " ++ f.message)
  | .encoding f => .ok (Text.ofString "Error: " ++ f.message)
  | .render e => .error e

/-- What is shown of a text on the error channel, where a surrogate stands as its escape. -/
def shown (t : Text) : Text := t.flatMap fun c => if c.isSurrogate then c.unicodeEscape else [c]

/-- The file of an output path. The dash is the standard output. -/
def outputFile? (output : Option Path) : Option Path :=
  output.filter fun path => path.toText ≠ Text.ofString "-"

/-- The rows of a batch, each on a line of its own. -/
def rowLines (rows : List Row) : Except Json.Unwritable Text :=
  (rows.mapM fun r : Row => r.toText.map line).map List.flatten

/-- The outcome of a batch: all rows or none. They go to the output file, where there is one, and
else to the standard output. -/
def ofBatch (level : Log.Level) (input : Path) (output : Option Path) (r : Batch.Result) :
    Outcome :=
  let logged := logLines level r.entries
  let counted := logLines level [countEntry input r.rows.length]
  match r.error with
  | some e =>
    match stopMessage input e with
    | .ok t => .report ⟨1, [], shown (logged ++ message t), none⟩
    | .error e => .failure (.render e) none
  | none =>
    match rowLines r.rows with
    | .error e => .failure (.unwritable e) (outputFile? output)
    | .ok rows =>
      let note := (output.map fun path =>
        message (Text.ofString "Wrote " ++ Text.numeral 10 r.rows.length
          ++ Text.ofString " literals to " ++ path.toText)).getD []
      let err := shown (logged ++ note ++ counted)
      match outputFile? output with
      | none => .report ⟨0, rows, err, none⟩
      | some path => .report ⟨0, [], err, some (path, rows)⟩

/-- Runs a command on what reading its input file comes to, if it has one. -/
def run (level : Log.Level) (read : Except FileFault (List Nat)) : Command → Outcome
  | string t u => ofCall ⟨u, .auto⟩ (.string t)
  | char t cast u =>
    if t.length ≠ 1 then .usage (.notOneCharacter t)
    else ofCall ⟨u, .auto⟩ (.char (.text t) cast)
  | integer v w f cast => ofCall ⟨false, f⟩ (.integer w v cast)
  | double x => ofCall .standard (.double x)
  | float x => ofCall .standard (.float x)
  | batch input output settings =>
    match read with
    | .error fault => .file ⟨input, fault⟩
    | .ok octets =>
      ofBatch level input output (Batch.run ⟨settings, CodePoint.isPrintable⟩ octets)

/-- What reading the input file of a command comes to. -/
def readInput (folder : Folder) (c : Command) : Except FileFault (List Nat) :=
  match c.input? with
  | some path => folder.read path
  | none => .ok []

/-- The file that is written on the way to an outcome. -/
def writing? : Outcome → Option Path
  | .report r => r.written.map Prod.fst
  | .failure _ path => path
  | _ => none

/-- An outcome once its file is to be written. -/
def stored (folder : Folder) (o : Outcome) : Outcome :=
  match writing? o with
  | none => o
  | some path =>
    match folder.creation path with
    | .ok _ => o
    | .error fault => .file ⟨path, fault⟩

/-- The outcome of a line in a working folder. -/
def outcome (folder : Folder) (words : List Text) : Outcome :=
  match parse words with
  | .error e => .usage e
  | .ok (level, c) => stored folder (c.run level (c.readInput folder))

end Command

end JavaLiteral.CommandLine
