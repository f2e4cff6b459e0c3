/-
# The command

Reads the file that the first argument names, runs the command and prints what it leaves behind.
-/
import VariableRegistry.CommandLine
import VariableRegistry.Document.Formats

namespace VariableRegistry

/-- The bytes of a file, if it can be read. -/
def readBytes (path : String) : IO (Option (List UInt8)) := do
  try
    return some (← IO.FS.readBinFile path).toList
  catch _ =>
    return none

end VariableRegistry

/-- Runs the command. -/
def main (args : List String) : IO UInt32 := do
  let bytes? ←
    match args with
    | [] => pure none
    | path :: _ => VariableRegistry.readBytes path
  let outcome := VariableRegistry.CommandLine.run .standard args bytes?
  IO.print outcome.output
  IO.eprint outcome.errors
  return outcome.exitCode
