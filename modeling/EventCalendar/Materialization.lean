/-
  EventCalendar.Materialization

  From series and their exceptions to the events that a window shows: the
  occurrences are expanded, the exceptions laid over them, and the events of
  all series put in one order.
-/

import EventCalendar.Expansion
import EventCalendar.Overlay
import EventCalendar.Record.Dates
import EventCalendar.RunSort.Runs

namespace EventCalendar

open EventCalendar.Time

/-! ## Events -/

/-- An event as a calendar shows it. -/
structure EventInstance where
  seriesId : String
  start : Moment
  /-- The end; of an all-day event its last day. -/
  finish : Moment
  /-- A moment after the event has ended. -/
  exclusiveFinish : Moment
  originalStart : Moment
  allDay : Bool
  recurrent : Bool
  isModified : Bool
  title : Option String
  description : Option String
  deriving DecidableEq, Repr

/-- The end of an event as the moment after it: the day after the last day. -/
def exclusiveEnd (finish : Moment) (allDay : Bool) : Except CalendarError Moment :=
  if allDay then finish.plusDays 1 else .ok finish

namespace EventInstance

/-- The event of an occurrence. Texts of the occurrence go before those of the series. -/
def ofOccurrence (s : Series) (o : Occurrence) : Except CalendarError EventInstance := do
  return {
    seriesId := s.seriesId, start := o.start, finish := o.finish
    exclusiveFinish := ← exclusiveEnd o.finish s.allDay
    originalStart := o.originalStart, allDay := s.allDay, recurrent := true
    isModified := o.state == .modified
    title := o.title.or s.title
    description := o.description.or s.description }

/-- The event of a record that takes place once. -/
def ofDates (eventId : String) (d : RecordDates) (title description : Option String) :
    Except CalendarError EventInstance := do
  return {
    seriesId := eventId, start := d.start, finish := d.finish
    exclusiveFinish := ← exclusiveEnd d.finish d.allDay
    originalStart := d.start, allDay := d.allDay, recurrent := false, isModified := false
    title, description }

/-- The event lies at least in part in a window. -/
def overlaps (e : EventInstance) (w : Window) : Except CalendarError Bool :=
  if !e.start.comparable w.last then .error .floatingMixed
  else if !e.start.upTo w.last then .ok false
  else if !e.finish.comparable w.first then .error .floatingMixed
  else .ok (w.first.upTo e.finish)

/-- One event comes before another: by its start, among events that start together by the name of
    its series. -/
def before (a b : EventInstance) : Bool :=
  if a.start.same b.start then decide (a.seriesId < b.seriesId) else a.start.before b.start

/-- Events in order. Events of which neither comes before the other keep their order. -/
def sorted (events : List EventInstance) : List EventInstance :=
  RunSort.sort before events

end EventInstance

/-! ## Materialization -/

/-- A series with its exceptions. -/
structure SeriesRequest where
  series : Series
  deletions : List ExceptionKey
  modifications : Modifications

/-- The events that a window shows. -/
structure Materialization where
  instances : List EventInstance
  /-- The modifications that found no occurrence, by series. -/
  unmatched : OrderedMap String (List Modification)
  truncatedSeries : List String

namespace Materialization

/-- Nothing is shown. -/
def empty : Materialization := ⟨[], .empty, []⟩

/-- The number of modifications that found no occurrence. -/
def unmatchedCount (m : Materialization) : Nat :=
  m.unmatched.values.flatten.length

/-- What is shown with one more series. -/
def add (w : Window) (cap : Int) (m : Materialization) (r : SeriesRequest) :
    Traced CalendarError Materialization := do
  let expansion ← r.series.expandNoting w cap skipBudget
  let overlay ← Overlay.apply expansion.occurrences (ExceptionKey.distinct r.deletions)
    r.modifications (some r.series)
  let instances ← Traced.ofExcept
    (overlay.occurrences.mapM (EventInstance.ofOccurrence r.series))
  return {
    instances := m.instances ++ instances
    unmatched :=
      if overlay.unmatched.isEmpty then m.unmatched
      else m.unmatched.put r.series.seriesId overlay.unmatched
    truncatedSeries :=
      if expansion.truncated then m.truncatedSeries ++ [r.series.seriesId]
      else m.truncatedSeries }

/-- The events of some series in a window, in order. -/
def ofRequests (requests : List SeriesRequest) (w : Window) (cap : Int) :
    Traced CalendarError Materialization := do
  let all ← requests.foldlM (add w cap) empty
  -- modifications move events, and the series are not yet mixed
  let result := { all with instances := EventInstance.sorted all.instances }
  Traced.note (.debug (s!"Materialized {result.instances.length} instance(s) for window " ++
    s!"{w.first.text} .. {w.last.text}"))
  return result

end Materialization

end EventCalendar
