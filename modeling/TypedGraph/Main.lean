import TypedGraph.CommandLine

/-!
# The Program

Reads the files that the arguments name and prints what the command line says.
-/

namespace TypedGraph

/-- The text of a file, if it can be read. -/
def readText? (name : String) : IO (Option String) :=
  try some <$> IO.FS.readFile name catch _ => pure none

end TypedGraph

open TypedGraph

/-- Carries out the arguments and gives the exit status. -/
def main (args : List String) : IO UInt32 := do
  let names := (Invocation.ofArgs? args).elim [] Invocation.files
  let texts ← names.mapM fun name => return (name, ← readText? name)
  let ending := Ending.of (fun name => (texts.lookup name).join) args
  IO.print ending.output
  unless ending.complaint.isEmpty do IO.eprintln ending.complaint
  return ending.status
