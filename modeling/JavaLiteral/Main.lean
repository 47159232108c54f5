import JavaLiteral.CommandLine.Command

/-!
# The program

Reads the file that the command names, runs the command, and passes on what it comes to.
-/

namespace JavaLiteral.CommandLine

/-- Writes a text, with an escape for each surrogate. -/
def put (stream : IO.FS.Stream) (t : Text) : IO Unit :=
  stream.putStr ((Command.shown t).toString?.getD "")

/-- The name of a file as the system takes it. -/
def fileName (p : Path) : String := p.toText.toString?.getD ""

/-- The fault that an error of the system stands for. -/
def faultOf : IO.Error → FileFault
  | .inappropriateType _ _ "not a directory" => .notFolder
  | .inappropriateType _ _ _ => .folder
  | .invalidArgument _ _ _ => .longName
  | _ => .missing

/-- The octets of a file. -/
def octetsOf (p : Path) : IO (Except FileFault (List Nat)) := do
  try
    let bytes ← IO.FS.readBinFile (fileName p)
    return .ok (bytes.toList.map UInt8.toNat)
  catch e => return .error (faultOf e)

/-- Reports a file that can be neither read nor written. -/
def refuse (e : FileError) : IO UInt32 := do
  put (← IO.getStderr) (Command.line e.message)
  return 1

/-- Passes an outcome on, and gives the exit status. -/
def finish : Outcome → IO UInt32
  | .report r => do
    put (← IO.getStdout) r.out
    if let some (path, rows) := r.written then
      try IO.FS.writeFile (fileName path) (rows.toString?.getD "")
      catch e => return ← refuse ⟨path, faultOf e⟩
    put (← IO.getStderr) r.err
    return r.status.toUInt32
  | .usage e => do
    put (← IO.getStderr) (Command.line (e.message?.getD "usage error"))
    return 2
  | .file e => refuse e
  | .failure e _ => do
    put (← IO.getStderr) (Command.line e.message)
    return 1

end JavaLiteral.CommandLine

open JavaLiteral JavaLiteral.CommandLine in
/-- Runs the program. -/
def main (args : List String) : IO UInt32 := do
  match Command.parse (args.map Text.ofString) with
  | .error e => finish (.usage e)
  | .ok (level, c) =>
    let octets ← match c.input? with
      | some path => octetsOf path
      | none => pure (.ok [])
    finish (c.run level octets)
