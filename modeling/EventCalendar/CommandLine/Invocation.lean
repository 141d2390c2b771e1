/-
  EventCalendar.CommandLine.Invocation

  What the program is asked to do: one of two commands, with a configuration
  file and debugging.
-/

import EventCalendar.CommandLine.Arguments

namespace EventCalendar.CommandLine

/-! ## Commands -/

/-- The commands. -/
inductive Command where
  /-- Shows the dates of one record. -/
  | interpret (start finish : String) (rule zone : Option String)
  /-- Shows the events of a calendar document in a window. -/
  | expand (file first : String) (last : Option String)
  deriving DecidableEq, Repr

/-- The name of a command. -/
def Command.name : Command → String
  | .interpret .. => "interpret"
  | .expand .. => "expand"

/-- What the program is asked to do. -/
structure Invocation where
  config : Option String
  debug : Bool
  command : Command
  deriving DecidableEq, Repr

/-! ## Options -/

/-- The option with the path of the configuration file. -/
def configOption : OptionSpec := ⟨"--config", true⟩

/-- The option that turns debugging on. -/
def debugOption : OptionSpec := ⟨"--debug", false⟩

/-- The options before the command. -/
def generalOptions : List OptionSpec := [configOption, debugOption]

/-- The option with the start of the record. -/
def startOption : OptionSpec := ⟨"--dtstart", true⟩

/-- The option with the end of the record. -/
def finishOption : OptionSpec := ⟨"--dtend", true⟩

/-- The option with the rule of the record. -/
def ruleOption : OptionSpec := ⟨"--rrule", true⟩

/-- The option with the zone of the record. -/
def zoneOption : OptionSpec := ⟨"--tzid", true⟩

/-- The option with the start of the window. -/
def firstOption : OptionSpec := ⟨"--from", true⟩

/-- The option with the end of the window. -/
def lastOption : OptionSpec := ⟨"--to", true⟩

/-! ## Reading -/

/-- A command, and whether something was left over, from what was found. -/
def interpretOf (f : Found) : Except Stop Command := do
  return .interpret (← f.need startOption.name) (← f.need finishOption.name)
    (f.value? ruleOption.name) (f.value? zoneOption.name)

/-- A command on a file, from what was found. -/
def expandOf (f : Found) : Except Stop Command := do
  match f.arguments with
  | [file] => return .expand file (← f.need firstOption.name) (f.value? lastOption.name)
  | _ => .error .usage

/-- The command with a name, from the arguments behind it. -/
def Command.ofArguments (name : String) (arguments : List String) :
    Except Stop (Found × Command) := do
  match name with
  | "interpret" =>
    let f ← Found.ofArguments [startOption, finishOption, ruleOption, zoneOption] .none arguments
    return (f, ← interpretOf f)
  | "expand" =>
    let f ← Found.ofArguments [firstOption, lastOption] .one arguments
    return (f, ← expandOf f)
  | _ => .error .usage

/-- What the program is asked to do by its arguments. -/
def Invocation.ofArguments (arguments : List String) : Except Stop Invocation := do
  let f ← Found.ofArguments generalOptions .rest arguments
  match f.arguments with
  | [] => .error .usage
  | name :: rest =>
    let (g, command) ← Command.ofArguments name rest
    if f.leftover || g.leftover then .error .usage
    else return { config := f.value? configOption.name
                  debug := f.flags.contains debugOption.name, command }

end EventCalendar.CommandLine
