import JavaLiteral.CommandLine.Path

/-!
# The working folder

A program reads and writes files beneath its working folder. A path is walked step by step, and a
step can only be taken from a folder (`Folder.walk`); so a path is refused for the first of its
steps that cannot be taken, and then for what stands at its end (`Folder.read`,
`Folder.creation`). Of the folders around the working folder nothing is known but that they exist.
-/

namespace JavaLiteral

/-- Why a file can be neither read nor written. -/
inductive FileFault where
  | missing
  | folder
  | notFolder
  | longName
deriving DecidableEq

/-- A path and why there is no file at it. -/
structure FileError where
  path : Path
  fault : FileFault
deriving DecidableEq

namespace FileFault

/-- The number of the system for the fault, and its text. -/
def describe : FileFault → Nat × Text
  | missing => (2, "No such file or directory")
  | folder => (21, "Is a directory")
  | notFolder => (20, "Not a directory")
  | longName => (36, "File name too long")

end FileFault

namespace FileError

/-- The text of the error. -/
def message (e : FileError) : Text :=
  let (number, reason) := e.fault.describe
  Text.ofString "[Errno " ++ Text.numeral 10 number ++ Text.ofString "] " ++ reason
    ++ Text.ofString ": " ++ e.path.toText.quoted

end FileError

/-- The files beneath a folder, by the steps that lead to them. -/
structure Folder where
  files : List (List Text × List Nat)

/-- A place that steps can lead to: at or beneath the working folder, at a folder around it, or at
another place beneath one of those. -/
inductive Place where
  | within (steps : List Text)
  | around
  | elsewhere
deriving DecidableEq

/-- What stands at a place. -/
inductive Entry where
  | file (octets : List Nat)
  | folder
  | nothing
deriving DecidableEq

namespace Place

/-- The place that a path starts from. -/
def start (p : Path) : Place := if p.root = [] then within [] else around

/-- The place a step on. -/
def next (step : Text) : Place → Place
  | within steps =>
    if step ≠ Text.ofString ".." then within (steps ++ [step])
    else if steps = [] then around
    else within steps.dropLast
  | around => if step = Text.ofString ".." then around else elsewhere
  | elsewhere => elsewhere

end Place

namespace Folder

/-- The most octets of one step. -/
def longestStep : Nat := 255

/-- The most octets of a path. -/
def longestPath : Nat := 4095

/-- How many octets a text takes in a path. -/
def octetCount (t : Text) : Nat := t.foldl (fun n c => n + c.pathOctets) 0

/-- What stands at a place. A folder is there for every file beneath it. -/
def entry (f : Folder) : Place → Entry
  | .within steps =>
    match f.files.lookup steps with
    | some octets => .file octets
    | none =>
      if steps = [] ∨ f.files.any fun e => steps.isPrefixOf e.1 then .folder else .nothing
  | .around => .folder
  | .elsewhere => .nothing

/-- The place that steps lead to. -/
def walk (f : Folder) (p : Place) : List Text → Except FileFault Place
  | [] => .ok p
  | s :: ss =>
    match f.entry p with
    | .file _ => .error .notFolder
    | .nothing => .error .missing
    | .folder => if longestStep < octetCount s then .error .longName else f.walk (p.next s) ss

/-- The place of a path. -/
def find (f : Folder) (p : Path) : Except FileFault Place :=
  if longestPath < octetCount p.toText then .error .longName else f.walk (Place.start p) p.steps

/-- The octets of the file at a path. -/
def read (f : Folder) (p : Path) : Except FileFault (List Nat) := do
  match f.entry (← f.find p) with
  | .file octets => .ok octets
  | .folder => .error .folder
  | .nothing => .error .missing

/-- The place where a path lets a file be written. -/
def creation (f : Folder) (p : Path) : Except FileFault Place := do
  let place ← f.find p
  if f.entry place = .folder then .error .folder else .ok place

/-- The name and the text of a file that a path lets be written, if it lies beneath the folder and
is new or no longer the same. The text is lines of JSON, whose octets are its code points. -/
def change? (f : Folder) (p : Path) (content : Text) : Option (Text × Text) :=
  match f.creation p with
  | .ok (.within steps) =>
    if f.files.lookup steps = some (content.map CodePoint.val) then none
    else some (Text.join "/" steps, content)
  | _ => none

end Folder

end JavaLiteral
