import Prose.CommandLine.Run

/- The program itself: the command line over the files and variables of the system. -/
namespace Prose

/-- The text of a file, if it can be read. -/
def readText (path : String) : IO (Option String) := do
  try return some (← IO.FS.readFile path) catch _ => return none

/-- Whether there is something at a path. A path that leads nowhere cannot be resolved. -/
def isPresent (path : String) : IO Bool := do
  try
    let _ ← IO.FS.realPath path
    return true
  catch _ => return false

/-- The files and variables of the system. -/
def systemSurroundings : Surroundings IO where
  present := isPresent
  text := readText
  environment := fun name => IO.getEnv name

end Prose

/-- Runs the command line with the arguments of the call. -/
def main (args : List String) : IO UInt32 := do
  let outcome ← Prose.CommandLine.run Prose.systemSurroundings args
  IO.print outcome.output
  IO.eprint outcome.errors
  return UInt32.ofNat outcome.exit
