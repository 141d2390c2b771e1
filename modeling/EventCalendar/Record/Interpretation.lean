/-
  EventCalendar.Record.Interpretation

  From the raw start, end and rule of a calendar record to its dates.  A rule
  that cannot be read never makes a record fail: the record then takes place
  once, or recurs up to a horizon.
-/

import EventCalendar.DateToken
import EventCalendar.Record.Dates
import EventCalendar.RecurrenceRule

namespace EventCalendar

open EventCalendar.Text EventCalendar.Time

/-! ## Records -/

/-- The raw properties of a record that say when it takes place. -/
structure RawRecord where
  start : Option String
  finish : Option String
  rule : Option String
  /-- The zone named beside the start. -/
  startZone : Option String
  /-- The zone named beside the end. -/
  finishZone : Option String
  deriving DecidableEq, Repr

/-- Why a record cannot be used. -/
inductive RecordError where
  | noStart
  | noFinish
  /-- The token of a property does not name a date. -/
  | malformed (property token : String) (cause : DateToken.Error)
  deriving DecidableEq, Repr

/-- The wording of an error. -/
def RecordError.message : RecordError → String
  | .noStart => "Record has no DTSTART"
  | .noFinish => "Record has no DTEND"
  | .malformed property token cause => s!"Malformed {property} {quoted token}: {cause.message}"

/-- What can go wrong in an interpretation. -/
inductive InterpretationError where
  | record (cause : RecordError)
  | calendar (cause : CalendarError)
  deriving DecidableEq, Repr

/-! ## Interpreter -/

/-- Interprets records, with a zone for tokens without one and the years that a rule without an
    end goes on. -/
structure Interpreter where
  reader : DateToken.Reader
  horizonYears : Int
  deriving DecidableEq, Repr

namespace Interpreter

/-- The horizon when nothing else is said. -/
def defaultHorizon : Int := 5

variable (i : Interpreter)

/-- Reads the token of a property. -/
def readDate (property token : String) (zone : Option String) :
    Traced InterpretationError Moment :=
  (i.reader.read token zone).mapError fun cause => .record (.malformed property token cause)

/-- A property that is not blank. -/
def present (property : Option String) (missing : RecordError) :
    Traced InterpretationError String :=
  match property with
  | none => throw (.record missing)
  | some s => if isBlankText s then throw (.record missing) else pure s

/-- The name of the zone that the times of a record are read in. -/
def zoneName {ε : Type} (value : String) (zone : Option String) (allDay : Bool) :
    Traced ε String :=
  if allDay then pure i.reader.defaultZone
  else if value.endsWith "Z" then pure "UTC"
  else match DateToken.Reader.givenName zone with
    | none => pure i.reader.defaultZone
    | some name => do return (← Zone.askCanonical (some name)).getD i.reader.defaultZone

/-- An outcome of calendar arithmetic. -/
def arithmetic {α : Type} (x : Except CalendarError α) : Traced InterpretationError α :=
  (Traced.ofExcept x).mapError .calendar

/-- Midnight of the start date in universal time, and the horizon after it. -/
def horizon (start : Moment) : Except CalendarError Moment := do
  let start ← start.toUniversal
  let midnight : Moment := { wall := start.wall.midnight, later := false, zone := .utc }
  midnight.plusMonths (12 * i.horizonYears) 0

/-- The end of a recurrence: that of the rule, or the horizon. -/
def recurrenceEnd (rule : RecurrenceRule) (start : Moment) : Traced InterpretationError Moment := do
  match DateToken.Reader.givenName rule.ending with
  | none => arithmetic (i.horizon start)
  | some token =>
    -- an end that cannot be read is no reason to refuse the record
    match ← (i.reader.read token none).attempt with
    | .ok ending => return ending
    | .error _ =>
      Traced.note (.warning
        s!"Unparseable UNTIL {quoted token}; using {i.horizonYears} year horizon")
      arithmetic (i.horizon start)

/-- The start and the end of a record.  The end of an all-day record is given as the day after
    it; an end before the start is replaced. -/
def span (rawStart rawFinish : String) (allDay : Bool) (start finish : Moment) :
    Traced InterpretationError (Moment × Moment) := do
  if allDay then
    let start := start.midnight
    let finish ← arithmetic (finish.midnight.plusDays (-1))
    return (start, if finish.before start then start else finish)
  else if finish.before start then
    Traced.note (.warning s!"DTEND {rawFinish} is before DTSTART {rawStart}; guessing the end")
    return (start, ← arithmetic (start.guessEnd false))
  else return (start, finish)

/-- The dates of a record whose rule, if any, is not yet looked at, with the recurrence that the
    rule gives it. -/
def recur (rule : Option String) (dates : RecordDates) : Traced InterpretationError RecordDates :=
  match rule.filter (!isBlankText ·) with
  | none => pure dates
  | some text =>
    match RecurrenceRule.ofText text with
    | .error e => do
      Traced.note (.warning s!"Ignoring recurrence rule {quoted text}: {e.message}")
      return dates
    | .ok rule =>
      if rule.tag = "" then do
        Traced.note
          (.info s!"Unsupported recurrence rule {quoted text}; importing as a single event")
        return dates
      else do
        let ending ← i.recurrenceEnd rule dates.start
        return { dates with
          isRecurrent := true, frequency := rule.tag, firstInstance := some dates.start
          recurrenceEnd := some ending }

/-- The dates of a record. -/
def interpret (r : RawRecord) : Traced InterpretationError RecordDates := do
  let rawStart ← present r.start .noStart
  let rawFinish ← present r.finish .noFinish
  -- a zone beside the start goes before one in front of it, and serves the end as well
  let (inner, value) := DateToken.splitZone (trim rawStart)
  let zone := DateToken.Reader.firstName r.startZone inner
  let allDay := DateToken.isDay value
  let start ← i.readDate "DTSTART" rawStart zone
  let finish ← i.readDate "DTEND" rawFinish (DateToken.Reader.firstName r.finishZone zone)
  let (start, finish) ← span rawStart rawFinish allDay start finish
  let zoneName ← i.zoneName value zone allDay
  i.recur r.rule (.once start finish allDay zoneName)

end Interpreter

end EventCalendar
