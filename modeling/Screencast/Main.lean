import Screencast.Agent.CommandLine

/-!
# The agent's program

Reads the settings file that the command line names and prints what the command line asks for.
-/

namespace Screencast

/-- The bytes of a file, `none` if it cannot be read. -/
def readContents (path : String) : IO (Option ByteArray) := do
  try
    return some (← IO.FS.readBinFile path)
  catch _ => return none

/-- What goes to the error output beside an exit code. -/
def complaint (code : UInt8) : String :=
  if code = 1 then (StreamError.connection .unreachable).message ++ "\n"
  else if code = 2 then CommandLine.usage
  else ""

end Screencast

open Screencast in
def main (args : List String) : IO UInt32 := do
  let contents ←
    match CommandLine.wantedPath args with
    | some path => readContents path
    | none => pure none
  let outcome := CommandLine.run args (fun _ => contents) .unreachable
  IO.print outcome.output
  IO.eprint (complaint outcome.code)
  return outcome.code.toUInt32
