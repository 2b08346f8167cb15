import IntrospectSdl.Command.Report

/-! # The command

Reads arguments, environment and clock, gives the command the files of the machine, and writes the
report. Everything else is decided by the pure part of the library. -/

namespace IntrospectSdl.Command

/-- The reason for a failed access to a file. -/
def fileError : IO.Error → FileError
  | .noFileOrDirectory _ _ _ => .notFound
  | .inappropriateType _ code _ => if code = 20 then .notDirectory else .isDirectory
  | e => .other (toString e)

/-- The result of an access to a file. -/
def attempt {α : Type} (access : IO α) : ExceptT FileError IO α := do
  match ← access.toBaseIO with
  | .ok a => return a
  | .error e => throw (fileError e)

/-- The files of the machine. -/
def machine : Files IO where
  read path := attempt (IO.FS.readBinFile path)
  write path content := attempt (IO.FS.writeBinFile path content)

end IntrospectSdl.Command

open IntrospectSdl.Command in
/-- Runs the command. -/
def main (arguments : List String) : IO UInt32 := do
  let out ← IO.getStdout
  let err ← IO.getStderr
  let colours := Colours.ofEnvironment (← IO.getEnv "CLICOLOR_FORCE") (← IO.getEnv "NO_COLOR")
    (← IO.getEnv "CLICOLOR") (← out.isTty)
  let start ← IO.monoMsNow
  let elapsed : IO String := return elapsedText ((← IO.monoMsNow) - start)
  let report ← reportOn machine elapsed colours arguments
  out.putStr report.out
  err.putStr report.err
  return report.status.code.toUInt32
