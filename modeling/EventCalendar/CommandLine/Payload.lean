/-
  EventCalendar.CommandLine.Payload

  What the commands print: records and events as values for JSON.
-/

import EventCalendar.Materialization
import EventCalendar.Record.Import

namespace EventCalendar.CommandLine

open EventCalendar.Time

/-! ## Parts -/

/-- A map with text keys. -/
def entriesOf (entries : List (String × Value)) : Value :=
  .map (entries.map fun (key, value) => (.text key, value))

/-- A value, or null. -/
def orNull {α : Type} (f : α → Value) : Option α → Value
  | some a => f a
  | none => .null

/-- A date-time with its offset. -/
def offsetText (m : Moment) : Value := .text m.isoText

/-- A date-time with its offset, for which `Z` stands where there is no difference to universal
    time. -/
def shortOffsetText (m : Moment) : Value :=
  if m.isZoned && m.offset == 0 then
    .text ({ m with zone := .floating : Moment }.isoText ++ "Z")
  else offsetText m

/-! ## Payloads -/

/-- The dates of a record. -/
def datesPayload (d : RecordDates) : Value :=
  entriesOf [("start", shortOffsetText d.start), ("end", shortOffsetText d.finish),
    ("all_day", .bool d.allDay), ("time_zone", .text d.zoneName),
    ("is_recurrent", .bool d.isRecurrent), ("recurrence_frequency", .text d.frequency),
    ("first_instance", orNull shortOffsetText d.firstInstance),
    ("recurrence_end", orNull shortOffsetText d.recurrenceEnd)]

/-- An event, with room for what is said about its looks elsewhere. -/
def instancePayload (e : EventInstance) : Value :=
  entriesOf [("series_id", .text e.seriesId), ("start", offsetText e.start),
    ("end", offsetText e.finish), ("end_exclusive", offsetText e.exclusiveFinish),
    ("original_start", offsetText e.originalStart), ("all_day", .bool e.allDay),
    ("recurrent", .bool e.recurrent), ("is_modified", .bool e.isModified),
    ("title", orNull .text e.title), ("description", orNull .text e.description),
    ("description_html", .null), ("text_color", .null), ("background_color", .null),
    ("modifiable", .null), ("movable", .null)]

/-- The events of a document in a window. -/
def windowPayload (w : Window) (instances : List EventInstance) (truncated : List String)
    (r : Import) : Value :=
  entriesOf [("window", entriesOf [("from", offsetText w.first), ("to", offsetText w.last)]),
    ("instances", .list (instances.map instancePayload)),
    ("truncated_series", .list (truncated.map .text)),
    ("duplicates", .list (r.duplicates.map .text)),
    ("errors", entriesOf (r.errors.entries.map fun (uid, e) => (uid, .text e.message)))]

end EventCalendar.CommandLine
