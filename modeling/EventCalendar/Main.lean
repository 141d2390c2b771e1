/-
  EventCalendar.Main

  The program: it reads its arguments, the environment and the files that are
  asked for, prints what there is to print, and ends with an exit code.
-/

import EventCalendar.CommandLine.Run
import EventCalendar.Json.Writer

open EventCalendar EventCalendar.CommandLine

/-- The environment. -/
def readEnvironment : IO Config.Environment := do
  let found ← variableNames.mapM fun name => return (name, ← IO.getEnv name)
  return found.filterMap fun (name, value) => value.map (name, ·)

/-- What stands at a path. -/
def readContent (path : String) : IO FileContent := do
  if path = "." || path = ".." then return .directory
  try return .text (← IO.FS.readFile path)
  catch _ => return .absent

/-- The surroundings of an invocation. -/
def readSurroundings (arguments : List String) : IO Surroundings := do
  let environment ← readEnvironment
  match Invocation.ofArguments arguments with
  | .error _ => return { environment, file := fun _ => .absent }
  | .ok i =>
    let contents ← i.paths.mapM fun path => return (path, ← readContent path)
    return { environment, file := fun path => (contents.lookup path).getD .absent }

/-- Runs the program. -/
def main (arguments : List String) : IO UInt32 := do
  let traced := CommandLine.run (← readSurroundings arguments) arguments
  for remark in Note.remarksFrom .info traced.notes do
    IO.eprintln s!"{remark.severity.name} {remark.text}"
  match traced.outcome with
  | .ok outcome =>
    if let some payload := outcome.payload then IO.println (Json.indented payload)
    return outcome.exitCode.toUInt32
  | .error _ =>
    IO.eprintln "The program broke off."
    return 1
