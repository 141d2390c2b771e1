/-
  EventCalendar.CommandLine.Run

  What the program does: it loads a configuration, follows one command and
  gives an exit code and what it prints.
-/

import EventCalendar.CommandLine.Invocation
import EventCalendar.CommandLine.Payload
import EventCalendar.Config.File
import EventCalendar.Config.Import
import EventCalendar.IsoText
import EventCalendar.Logging

namespace EventCalendar.CommandLine

open EventCalendar.Text EventCalendar.Time

/-! ## Surroundings and outcomes -/

/-- What the program finds around it. -/
structure Surroundings where
  environment : Config.Environment
  /-- What stands at a path in its shortest form. -/
  file : String → FileContent

/-- What the program leaves behind. -/
structure Outcome where
  exitCode : Nat
  /-- What it prints as JSON. -/
  payload : Option Value

/-- Why a command fails. -/
inductive Failure where
  /-- The record, the document or a series in it cannot be used. -/
  | importing (cause : ImportError)
  | window (cause : IsoText.Error)
  | calendar (cause : CalendarError)
  | noFile (path : String)
  | directory (path : String)
  deriving DecidableEq, Repr

/-- Why the program breaks off. -/
inductive Escape where
  | config (cause : ConfigError)
  | configDirectory
  | level (cause : LevelError)
  | failure (cause : Failure)
  deriving DecidableEq, Repr

/-- A failure of calendar arithmetic that is told to the user: month and year arithmetic says what
    is wrong, other arithmetic does not. -/
def calendarMessage? : CalendarError → Option String
  | .yearOutOfRange year => some (CalendarError.yearOutOfRange year).message
  | _ => none

/-- What the user is told of a failure; other failures break the program off. -/
def Failure.message? : Failure → Option String
  | .importing (.unparseable cause) => some cause.message
  | .importing (.event (.interpretation (.record cause))) => some cause.message
  | .importing (.event (.interpretation (.calendar cause))) => calendarMessage? cause
  | .importing (.event (.refused cause)) => some cause.message
  | .window .malformed => some IsoText.Error.malformed.message
  | .window .outOfRange => none
  | .calendar cause => calendarMessage? cause
  | .noFile path => some s!"[Errno 2] No such file or directory: {quoted path}"
  | .directory path => some s!"[Errno 21] Is a directory: {quoted path}"

/-- The variables of the environment that have a say. -/
def variableNames : List String := Logging.debugVariable :: Setting.all.map Setting.variableName

/-- The paths of the files that an invocation may read. -/
def Invocation.paths (i : Invocation) : List String :=
  Config.path i.config ::
    match i.command with
    | .interpret .. => []
    | .expand file .. => [shortPath file]

/-! ## Commands -/

/-- The dates of one record. -/
def interpretRecord (c : Config) (start finish : String) (rule zone : Option String) :
    Traced Failure Value := do
  let dates ← (c.interpreter.interpret
    { start := some start, finish := some finish, rule, startZone := zone
      finishZone := zone }).mapError fun e => .importing (.event (.interpretation e))
  return datesPayload dates

/-- The text of a file. -/
def fileText (s : Surroundings) (path : String) : Except Failure String :=
  match s.file (shortPath path) with
  | .absent => .error (.noFile (shortPath path))
  | .directory => .error (.directory (shortPath path))
  | .text content => .ok (String.ofList (newlines content.toList))

/-- A date-time of the window. One without a zone is taken in the configured zone. -/
def windowMoment (c : Config) (text : String) : Traced Failure Moment := do
  let m ← (Traced.ofExcept (IsoText.read text)).mapError .window
  if m.isZoned then return m
  else return { m with zone := ← Zone.look ⟨some c.defaultTimezone, none⟩ }

/-- The window between two texts. -/
def windowOf (c : Config) (first : String) (last : Option String) : Traced Failure Window := do
  let first ← windowMoment c first
  let last ← last.mapM (windowMoment c)
  return .of first last

/-- The events of an import that take place once, as far as they lie in a window. -/
def singleInstances (r : Import) (w : Window) : Except CalendarError (List EventInstance) := do
  let single := r.events.filter (·.series.isNone)
  let instances ← single.mapM fun e => do
    let instance' ← EventInstance.ofDates e.uid e.dates (some e.title) (some e.description)
    return (instance', ← instance'.overlaps w)
  return (instances.filter (·.2)).map (·.1)

/-- The events of a document in a window. -/
def expandDocument (c : Config) (s : Surroundings) (file first : String) (last : Option String) :
    Traced Failure Value := do
  let text ← Traced.ofExcept (fileText s file)
  let r ← (c.importer.ofText text).mapError .importing
  let w ← windowOf c first last
  -- events without a series take place once
  let requests := (r.events.filterMap (·.series)).map fun series => ⟨series, [], .listed []⟩
  let m ← (Materialization.ofRequests requests w c.maxInstances).mapError .calendar
  let single ← (Traced.ofExcept (singleInstances r w)).mapError .calendar
  return windowPayload w (EventInstance.sorted (m.instances ++ single)) m.truncatedSeries r

/-- What a command prints. -/
def Command.follow (c : Config) (s : Surroundings) : Command → Traced Failure Value
  | .interpret start finish rule zone => interpretRecord c start finish rule zone
  | .expand file first last => expandDocument c s file first last

/-! ## The program -/

/-- The configuration of an invocation, after the environment has had its say. -/
def configOf (s : Surroundings) (i : Invocation) : Traced LoadError Config := do
  let path := Config.path i.config
  let config ← Config.load path (s.file path)
  (config.override s.environment).mapError .config

/-- The levels of the loggers of an invocation. -/
def loggingOf (s : Surroundings) (c : Config) (debug : Bool) : Traced LevelError Logging :=
  let l := Logging.start.configure s.environment debug none
  l.install s.environment (some (if debug then LogLevel.debug.name else c.logLevel))

/-- Follows a command and tells the user if it fails. -/
def Command.run (c : Config) (s : Surroundings) (command : Command) : Traced Escape Outcome := do
  match ← (command.follow c s).attempt with
  | .ok payload => return ⟨0, some payload⟩
  | .error failure =>
    match failure.message? with
    | none => throw (.failure failure)
    | some message =>
      Traced.note (.error s!"{command.name} failed: {message}")
      return ⟨1, none⟩

/-- Does what an invocation asks for. -/
def Invocation.run (s : Surroundings) (i : Invocation) : Traced Escape Outcome := do
  match ← (configOf s i).attempt with
  | .error .unreadable | .error .notSettings => return ⟨2, none⟩
  | .error .directory => throw .configDirectory
  | .error (.config cause) => throw (.config cause)
  | .ok config =>
    let logging ← (loggingOf s config i.debug).mapError .level
    let least := if logging.hearsDebug then Severity.debug else .info
    (i.command.run config s).heardFrom least

/-- Does what some arguments ask for. -/
def run (s : Surroundings) (arguments : List String) : Traced Escape Outcome :=
  match Invocation.ofArguments arguments with
  | .error .help => pure ⟨0, none⟩
  | .error .usage => pure ⟨2, none⟩
  | .ok i => i.run s

end EventCalendar.CommandLine
