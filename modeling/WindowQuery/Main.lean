import Std.Time.DateTime
import WindowQuery.CommandLine.Program

/-!
# The command line

The program with the files, the environment and the clock of the machine
it runs on. All that it decides is decided by `Program.run`.
-/

namespace WindowQuery

namespace Program

/-- What an error of the machine says about a file. -/
def fileErrorOf : IO.Error → FileError
  | .noFileOrDirectory .. => .notFound
  | .alreadyExists .. => .alreadyExists
  | .inappropriateType _ code _ => if code = 21 then .isADirectory else .notADirectory
  | e => .other (toString e)

/-- What comes of a use of the machine's files. -/
def attempt {α : Type} (use : IO α) : IO (Except FileError α) := do
  try return .ok (← use)
  catch e => return .error (fileErrorOf e)

/-- **The files of the machine.** -/
def machineFiles : FileAccess IO where
  read path := attempt (IO.FS.readFile path)
  write path text := attempt (IO.FS.writeFile path text)
  touch path := attempt (do let _ ← IO.FS.Handle.mk path .append)
  makeDirectories path := attempt (if path = "" then pure () else IO.FS.createDirAll path)

/-- The environment of the machine. -/
def machineEnvironment : IO Environment := do
  let values ← Settings.variableNames.mapM (fun name => do
    return (← IO.getEnv name).map (name, ·))
  return .ofList (values.filterMap id)

/-- The present by the clock of the machine. -/
def machineNow : IO Instant := do
  let t ← Std.Time.Timestamp.now
  return (Instant.mk? t.val.second.val t.val.nano.val.toNat).getD .epoch

end Program

end WindowQuery

open WindowQuery in
/-- **Runs the program** on the machine. -/
def main (arguments : List String) : IO UInt32 := do
  let report ← Program.run
    ⟨Program.machineFiles, ← Program.machineEnvironment, ← Program.machineNow⟩ arguments
  IO.print report.output
  IO.eprint report.notice
  return report.exit.toUInt32
