import QueryCriteria.CommandLine
/-!
# The program

Gathers the environment and the files that the arguments name, and reports the outcome.
-/

namespace QueryCriteria.CommandLine

/-- The text of a file, if it can be read. -/
def readFile? (path : String) : IO (Option String) := do
  try
    return some (← IO.FS.readFile path)
  catch _ =>
    return none

/-- The values that are there, by name. -/
def gather (names : List String) (read : String → IO (Option String)) :
    IO (OrderedMap String) := do
  let mut found := OrderedMap.empty
  for name in names do
    if let some value ← read name then
      found := found.insert name value
  return found

end QueryCriteria.CommandLine

open QueryCriteria in
/-- Runs the program. -/
def main (arguments : List String) : IO UInt32 := do
  let environment ← CommandLine.gather [Settings.strategyVariable, Settings.depthVariable] fun name =>
    IO.getEnv name
  let files ← CommandLine.gather (CommandLine.paths arguments) CommandLine.readFile?
  let outcome := CommandLine.outcome ⟨environment.get?, files.get?⟩ arguments
  IO.print outcome.output
  if let some error := outcome.error then
    IO.eprintln error
  return outcome.exit
