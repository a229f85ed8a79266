import HealthWatch.CommandLine

/-!
# The program

Reads the arguments and files and writes what the command line makes of them.
-/

set_option autoImplicit false

namespace HealthWatch

/-- Reads a file as text. -/
def readFile (path : String) : IO (Except ReadFailure String) := do
  try
    let bytes ← IO.FS.readBinFile path
    match String.fromUTF8? bytes with
    | some text => return .ok text
    | none => return .error .notText
  catch error =>
    match error with
    | .noFileOrDirectory _ _ _ => return .error .notFound
    | .inappropriateType _ _ _ => return .error .isDirectory
    | other => return .error (.other (toString other))

end HealthWatch

/-- Runs the command line. -/
def main (arguments : List String) : IO UInt32 := do
  let outcome ← HealthWatch.CommandLine.run HealthWatch.readFile arguments
  IO.print outcome.output
  IO.eprint outcome.errors
  return outcome.exit
