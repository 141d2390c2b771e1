/-
  EventCalendar.Record.Event

  The event of one component of a calendar document: its dates, its title, a
  description put together from several properties, and its series where it
  recurs in a known way.
-/

import EventCalendar.Ics.Property
import EventCalendar.Record.Interpretation

namespace EventCalendar

open EventCalendar.Text EventCalendar.Ics

/-! ## Events -/

/-- An event that was read from a document. -/
structure ImportedEvent where
  uid : String
  title : String
  description : String
  dates : RecordDates
  /-- The series, where the event recurs in a known way. -/
  series : Option Series

/-- Why a component gives no event. -/
inductive EventError where
  /-- Its dates cannot be used. -/
  | interpretation (cause : InterpretationError)
  /-- What it gives is no series. -/
  | refused (cause : SeriesRefusal)
  deriving DecidableEq, Repr

/-! ## Texts -/

/-- What marks an organizer that says nothing. -/
def unknownOrganizer : String := "unknownorganizer"

/-- An address in one line: the name if there is one, and the mail address. -/
def Ics.Address.line (a : Address) : String :=
  let mail := (a.value.replace "mailto:" "").replace "MAILTO:" ""
  match a.name with
  | none => mail
  | some name => if name = "" then mail else s!"{name} <{mail}>"

/-- The line of the organizer. -/
def Ics.Component.organizerLine (c : Component) : List String :=
  match c.address? "ORGANIZER" with
  | none => []
  | some a => if a.value.contains unknownOrganizer then [] else [s!"Organizer: {a.line}"]

/-- The lines of the attendees. -/
def Ics.Component.attendeeLines (c : Component) : List String :=
  (c.named "ATTENDEE").map fun line => s!"Attendee: {(Address.ofLine line).line}"

/-- The line of the location. -/
def Ics.Component.locationLine (c : Component) : List String :=
  (c.text? "LOCATION").toList.map fun location => s!"Location: {location}"

/-- The text of the description, after an empty line. -/
def Ics.Component.bodyLines (c : Component) : List String :=
  match c.text? "DESCRIPTION" with
  | none => []
  | some body => ["", body]

/-- The description: the people, the place, and the text. -/
def Ics.Component.description (c : Component) : String :=
  String.intercalate "\n"
    (c.organizerLine ++ c.attendeeLines ++ c.locationLine ++ c.bodyLines)

/-- The title, without blanks around it. -/
def Ics.Component.title (c : Component) : String := trim ((c.text? "SUMMARY").getD "")

/-! ## Reading -/

/-- The raw properties of a component. Of several rules the first counts. -/
def RawRecord.ofComponent (c : Component) : RawRecord where
  start := (c.date? "DTSTART").map (·.token)
  finish := (c.date? "DTEND").map (·.token)
  rule := (c.named "RRULE").head?.map ruleOfLine
  startZone := (c.date? "DTSTART").bind (·.zone)
  finishZone := (c.date? "DTEND").bind (·.zone)

/-- What is noted of a component with several rules. -/
def severalRules (c : Component) (uid : String) : List Note :=
  let count := (c.named "RRULE").length
  if 1 < count then [.warning s!"Record {uid} has {count} RRULEs; only the first is used"]
  else []

/-- The series of an event, if it recurs. A way to recur that is not known gives none. -/
def RecordDates.knownSeries (d : RecordDates) (uid title description : String) :
    Traced EventError (Option Series) :=
  if !d.isRecurrent then pure none
  else match d.series ⟨uid, some title, some description, .absent⟩ with
    | .ok s => pure (some s)
    | .error (.refused cause) => throw (.refused cause)
    | .error cause => do
      Traced.note
        (.info s!"Record {uid} keeps its rule but cannot be expanded: {cause.message}")
      return none

/-- The event of a component. -/
def ImportedEvent.ofComponent (i : Interpreter) (uid : String) (c : Component) :
    Traced EventError ImportedEvent := do
  Traced.noteAll (severalRules c uid)
  let dates ← (i.interpret (.ofComponent c)).mapError .interpretation
  let title := c.title
  let description := c.description
  let series ← dates.knownSeries uid title description
  return { uid, title, description, dates, series }

end EventCalendar
