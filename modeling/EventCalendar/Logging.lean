/-
  EventCalendar.Logging

  The levels of the loggers: that of the root, that of the library's own
  loggers, which are always set together, and that of document reading.
-/

import EventCalendar.Config.Basic

namespace EventCalendar

open EventCalendar.Text

/-! ## Levels -/

/-- The levels of a logger; a logger without a level leaves it to the one above. -/
inductive LogLevel where
  | notSet
  | debug
  | info
  | warning
  | error
  | critical
  deriving DecidableEq, Repr

namespace LogLevel

/-- The name of a level. -/
def name : LogLevel → String
  | .notSet => "NOTSET"
  | .debug => "DEBUG"
  | .info => "INFO"
  | .warning => "WARNING"
  | .error => "ERROR"
  | .critical => "CRITICAL"

/-- The names of levels, two of which have a second one. -/
def names : List (String × LogLevel) :=
  [("CRITICAL", .critical), ("FATAL", .critical), ("ERROR", .error), ("WARNING", .warning),
   ("WARN", .warning), ("INFO", .info), ("DEBUG", .debug), ("NOTSET", .notSet)]

/-- The levels that an environment can give to the root. -/
def choices : List LogLevel := [.debug, .info, .warning, .error]

end LogLevel

/-- Why a name cannot be used for a level. -/
inductive LevelError where
  /-- The name stands for the layout of a log line. -/
  | layout
  /-- The name stands for a table. -/
  | table
  deriving DecidableEq, Repr

/-- The layout of a log line. -/
def lineLayout : String := "%(levelname)s:%(name)s:%(message)s"

/-- The wording of an error. -/
def LevelError.message : LevelError → String
  | .layout => s!"Unknown level: {quoted lineLayout}"
  | .table => "Level not an integer or a valid string"

/-- The level that a name stands for. A name that is not known is as good as `INFO`. -/
def LogLevel.ofName (name : Option String) : Except LevelError LogLevel :=
  match name.map upper with
  | none => .ok .info
  | some name =>
    if name = "BASIC_FORMAT" then .error .layout
    else if name = "_STYLES" then .error .table
    else .ok ((names.lookup name).getD .info)

/-! ## Loggers -/

/-- The parts of the library that log. -/
inductive Channel where
  | library
  | interpretation
  | imports
  | expansion
  | exceptions
  | materialization
  deriving DecidableEq, Repr

/-- All channels, in order. -/
def Channel.all : List Channel :=
  [.library, .interpretation, .imports, .expansion, .exceptions, .materialization]

/-- The levels of the loggers. -/
structure Logging where
  root : LogLevel
  /-- The level of all channels. -/
  own : LogLevel
  /-- The level of document reading. -/
  documents : LogLevel
  /-- The number of places that log lines are written to. -/
  handlers : Nat
  deriving DecidableEq, Repr

namespace Logging

/-- The levels before anything is said. -/
def start : Logging := ⟨.warning, .notSet, .notSet, 0⟩

/-- The level of a channel. -/
def level (l : Logging) : Channel → LogLevel
  | _ => l.own

/-- A debug message of the library is heard. -/
def hearsDebug (l : Logging) : Bool := l.own == .notSet || l.own == .debug

/-! ## Settings -/

/-- The value of a variable, or nothing. -/
def variableOf (environment : Config.Environment) (name : String) : String :=
  (environment.lookup name).getD ""

/-- The variable that turns debugging on. -/
def debugVariable : String := "RECURRENCE_LITE_DEBUG"

/-- Levels for work with or without debugging. What is said by force goes before the
    environment, and the environment before the mode. -/
def configure (l : Logging) (environment : Config.Environment) (debugMode : Bool)
    (force : Option Bool) : Logging :=
  let asked := ["1", "true", "yes"].contains (lower (variableOf environment debugVariable))
  let debug := force.getD (asked || debugMode)
  let usual := if debug then .debug else .info
  let said := upper (variableOf environment Setting.logLevel.variableName)
  { l with
    root := (LogLevel.choices.find? (·.name == said)).getD usual
    own := usual, documents := .info }

/-- The name of the level that log lines start with. -/
def initialName (environment : Config.Environment) (name : Option String) : Option String :=
  let asked := lower (trim (variableOf environment debugVariable))
  if ["1", "true", "yes", "on"].contains asked then some "DEBUG" else name

/-- Starts to write log lines, from a level on that has a name. -/
def install (l : Logging) (environment : Config.Environment) (name : Option String) :
    Traced LevelError Logging := do
  let level ← Traced.ofExcept (LogLevel.ofName (initialName environment name))
  if l.hearsDebug then
    Traced.note (.debug s!"Logging initialized at level {level.name}")
  return { l with root := level, handlers := max 1 l.handlers }

end Logging

end EventCalendar
