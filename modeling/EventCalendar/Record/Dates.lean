/-
  EventCalendar.Record.Dates

  The dates of one calendar record: when it takes place, whether and how it
  recurs.  A record that recurs in one of the known ways gives a series.
-/

import EventCalendar.Series

namespace EventCalendar

open EventCalendar.Text EventCalendar.Time

/-! ## Dates -/

/-- The dates of a record. The end of an all-day record is its last day. -/
structure RecordDates where
  start : Moment
  finish : Moment
  allDay : Bool
  /-- The name of the zone that times without one were read in. -/
  zoneName : String
  isRecurrent : Bool
  /-- The tag of the kind of recurrence, or another word. -/
  frequency : String
  firstInstance : Option Moment
  recurrenceEnd : Option Moment
  deriving DecidableEq, Repr

/-- The dates of a record that does not recur. -/
def RecordDates.once (start finish : Moment) (allDay : Bool) (zoneName : String) : RecordDates :=
  { start, finish, allDay, zoneName, isRecurrent := false, frequency := ""
    firstInstance := none, recurrenceEnd := none }

/-! ## Series -/

/-- Why a record gives no series. -/
inductive RecordSeriesError where
  /-- The record does not recur. -/
  | notRecurrent (seriesId : String)
  /-- The record recurs in a way that has no kind. -/
  | unknownFrequency (frequency : String)
  /-- What the record gives is no series. -/
  | refused (cause : SeriesRefusal)
  deriving DecidableEq, Repr

/-- The wording of an error. -/
def RecordSeriesError.message : RecordSeriesError → String
  | .notRecurrent seriesId => s!"Record {seriesId} is not recurrent"
  | .unknownFrequency frequency => s!"No period generator for frequency {quoted frequency}"
  | .refused cause => cause.message

/-- What a series gets besides its dates. -/
structure SeriesDetails where
  seriesId : String
  title : Option String
  description : Option String
  weekdays : Entry Value

/-- The details where nothing is said. -/
def SeriesDetails.none : SeriesDetails := ⟨"series", .none, .none, .absent⟩

/-- The series of a record. -/
def RecordDates.series (d : RecordDates) (details : SeriesDetails) :
    Except RecordSeriesError Series :=
  if !d.isRecurrent || d.frequency = "" then .error (.notRecurrent details.seriesId)
  else match Kind.ofTag? d.frequency with
    | .none => .error (.unknownFrequency d.frequency)
    | some kind =>
      let form : SeriesForm :=
        { seriesId := .given details.seriesId, title := details.title
          description := details.description, anchorStart := .given d.start
          anchorEnd := some d.finish, allDay := .given d.allDay, kind := .given kind.tag
          weekdays := details.weekdays, firstInstance := d.firstInstance
          lastInstance := d.recurrenceEnd }
      form.series.mapError .refused

end EventCalendar
