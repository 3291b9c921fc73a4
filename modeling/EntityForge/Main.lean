import EntityForge.CommandLine.Run

/-!
# The program

Runs the command line on the files of the system.
-/

namespace EntityForge

/-- A failure of the system as a failure to read or write a file. -/
def fileErrorOf : IO.Error → CommandLine.FileError
  | .noFileOrDirectory .. => .notFound
  | .inappropriateType _ code _ => if code = 21 then .isAFolder else .notAFolder
  | .invalidArgument _ 36 _ => .nameTooLong
  | e => .other (toString e)

/-- Runs an action on a file. -/
def guarded {α : Type} (act : IO α) : IO (Except CommandLine.FileError α) := do
  match ← act.toBaseIO with
  | .ok a => return .ok a
  | .error e => return .error (fileErrorOf e)

/-- The files of the system. -/
def systemFiles : CommandLine.Files IO where
  read path := guarded (IO.FS.readBinFile path)
  write path bytes := guarded (IO.FS.writeBinFile path bytes)

end EntityForge

/-- Runs the program and shows its report. -/
def main (arguments : List String) : IO UInt32 := do
  let report ← EntityForge.CommandLine.run EntityForge.systemFiles arguments
  (← IO.getStdout).putStr report.output
  (← IO.getStderr).putStr report.errors
  return report.exitCode.toUInt32
