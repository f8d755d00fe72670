import TypedConfig.CommandLine

/-!
# The program

Reads the file that the arguments name, if they name one, and does what the report says.
-/

open TypedConfig

/-- The text of a file. -/
def readTextFile (path : String) : IO (Except FileFault String) := do
  try
    return textOfBytes (← IO.FS.readBinFile path)
  catch
    | .noFileOrDirectory .. => return .error .notFound
    | .inappropriateType _ 21 _ => return .error .isDirectory
    | e => return .error (.other (toString e))

/-- The program. -/
def main (args : List String) : IO UInt32 := do
  let stdout ← IO.getStdout
  let colored := CommandLine.wantsColor (← IO.getEnv "CLICOLOR_FORCE") (← IO.getEnv "NO_COLOR")
    (← IO.getEnv "CLICOLOR") (← stdout.isTty)
  let file ← match CommandLine.filePath? args with
    | some path => readTextFile path
    | none => pure (.error .notFound)
  let report := CommandLine.report colored (fun _ => file) args
  IO.print report.output
  IO.eprint report.errors
  return UInt32.ofNat report.exitCode
