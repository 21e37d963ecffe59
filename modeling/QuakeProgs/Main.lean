/-
  File:      QuakeProgs/Main.lean
  Subject:   THE PROGRAM: the command line on the files and the screen of the system.
-/
import QuakeProgs.CommandLine

open QuakeProgs

/-- What an error of the system says about a file. -/
def fileFault : IO.Error → FileFault
  | .inappropriateType _ code _ =>
    if code = 21 then .isDirectory else .notDirectory
  | .invalidArgument .. => .nameTooLong
  | _ => .notFound

/-- Runs an action on a file and hands its failure over as a value. -/
def guarded (act : IO α) : IO (Except FileFault α) := do
  try return .ok (← act) catch e => return .error (fileFault e)

/-- The files and the screen of the system. -/
def systemTerminal : Terminal IO where
  read path := guarded do return (← IO.FS.readBinFile path).toList
  create path bytes := guarded (IO.FS.writeBinFile path ⟨bytes.toArray⟩)
  print text := IO.print text

def main (args : List String) : IO UInt32 := do
  match ← (CommandLine.run systemTerminal args).run with
  | .ok () => return 0
  | .error message =>
    IO.eprint (CommandLine.errorText message)
    return 1
