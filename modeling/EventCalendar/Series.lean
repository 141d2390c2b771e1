/-
  EventCalendar.Series

  A recurring event: its first occurrence, the kind of its recurrence and the
  bounds between which it recurs.  A series is built only from fields that fit
  together, and all its date-times belong to a zone.
-/

import EventCalendar.Form
import EventCalendar.Kind
import EventCalendar.Weekdays

namespace EventCalendar

open EventCalendar.Time

/-! ## Fields -/

/-- What a series consists of. -/
structure SeriesFields where
  seriesId : String
  title : Option String
  description : Option String
  anchorStart : Moment
  anchorEnd : Option Moment
  allDay : Bool
  kind : Kind
  weekdays : Weekdays
  firstInstance : Option Moment
  lastInstance : Option Moment
  deriving DecidableEq, Repr

/-- What does not fit together in a series. -/
inductive Inconsistency where
  | endBeforeStart
  | lastBeforeFirst
  | noWeekday
  deriving DecidableEq, Repr

/-- The wording of an inconsistency. -/
def Inconsistency.message : Inconsistency → String
  | .endBeforeStart => "anchor_end must not be before anchor_start"
  | .lastBeforeFirst => "last_instance must not be before first_instance"
  | .noWeekday => "customWeekly series need at least one weekday"

namespace SeriesFields

/-- The fields with all date-times in a zone. -/
def zoned (f : SeriesFields) : SeriesFields :=
  { f with
    anchorStart := f.anchorStart.zoned
    anchorEnd := f.anchorEnd.map Moment.zoned
    firstInstance := f.firstInstance.map Moment.zoned
    lastInstance := f.lastInstance.map Moment.zoned }

/-- The end of the first occurrence comes before its start. -/
def endsBeforeStart (f : SeriesFields) : Bool :=
  f.anchorEnd.any (·.before f.anchorStart)

/-- The last bound comes before the first one. -/
def lastBeforeFirst (f : SeriesFields) : Bool :=
  f.firstInstance.any fun first => f.lastInstance.any (·.before first)

/-- Weekdays are wanted, and there are none. -/
def lacksWeekdays (f : SeriesFields) : Bool :=
  f.kind == .customWeekly && f.weekdays.days.isEmpty

/-- The date-times of the fields. -/
def moments (f : SeriesFields) : List Moment :=
  f.anchorStart :: (f.anchorEnd.toList ++ f.firstInstance.toList ++ f.lastInstance.toList)

theorem isZoned_of_mem_moments_zoned (f : SeriesFields) :
    ∀ m ∈ f.zoned.moments, m.isZoned = true := by
  have h (m : Moment) : m.zoned.isZoned = true := by
    have := m.zone_zoned_ne
    simp [Moment.isZoned, this]
  intro m hm
  simp only [moments, zoned, List.mem_cons, List.mem_append, Option.mem_toList,
    Option.map_eq_some_iff] at hm
  rcases hm with rfl | (⟨a, _, rfl⟩ | ⟨a, _, rfl⟩) | ⟨a, _, rfl⟩ <;> exact h _

end SeriesFields

/-! ## Series -/

/-- A recurring event. -/
structure Series extends SeriesFields where
  zones : ∀ m ∈ toSeriesFields.moments, m.isZoned = true
  ends : toSeriesFields.endsBeforeStart = false
  bounds : toSeriesFields.lastBeforeFirst = false
  listed : toSeriesFields.lacksWeekdays = false

namespace Series

/-- The series with some fields, if they fit together. -/
def ofFields (fields : SeriesFields) : Except Inconsistency Series :=
  let f := fields.zoned
  if hends : f.endsBeforeStart = true then .error .endBeforeStart
  else if hbounds : f.lastBeforeFirst = true then .error .lastBeforeFirst
  else if hlisted : f.lacksWeekdays = true then .error .noWeekday
  else .ok
    { toSeriesFields := f
      zones := fields.isZoned_of_mem_moments_zoned
      ends := eq_false_of_ne_true hends
      bounds := eq_false_of_ne_true hbounds
      listed := eq_false_of_ne_true hlisted }

/-- The start that periods are counted from: midnight for all-day events. -/
def start (s : Series) : Moment :=
  if s.allDay then s.anchorStart.midnight else s.anchorStart

/-- The end of the first occurrence, guessed where it is not given. -/
def finish (s : Series) : Except CalendarError Moment :=
  match s.anchorEnd with
  | some finish => .ok finish
  | none => s.start.guessEnd s.allDay

/-- The length of every occurrence in microseconds: whole days for all-day events. -/
def duration (s : Series) : Except CalendarError Int := do
  let finish ← s.finish
  if s.allDay then
    return ((finish.wall.dayNumber : Int) - s.start.wall.dayNumber) * microsPerDay
  else return finish.since s.start

end Series

/-! ## The form -/

/-- A filled-in form for a series. -/
structure SeriesForm where
  seriesId : Entry String
  title : Option String
  description : Option String
  anchorStart : Entry Moment
  anchorEnd : Option Moment
  allDay : Entry Bool
  kind : Entry String
  weekdays : Entry Value
  firstInstance : Option Moment
  lastInstance : Option Moment

/-- Why there is no series. -/
inductive SeriesRefusal where
  /-- Some fields do not hold what they should. -/
  | fields (faults : List FieldFault)
  /-- The fields do not fit together. -/
  | inconsistent (cause : Inconsistency)
  /-- The weekdays are given as something that cannot be weekdays. -/
  | weekdays (cause : WeekdayError)
  deriving DecidableEq, Repr

/-- The wording of a refusal. -/
def SeriesRefusal.message : SeriesRefusal → String
  | .fields faults => FieldFault.messages faults
  | .inconsistent cause => ": Value error, " ++ cause.message
  | .weekdays cause => cause.message

namespace SeriesForm

/-- The kind that a field names. -/
def checkKind (entry : Entry String) : Checked Kind :=
  let reason := FieldReason.notOneOf (Kind.all.map Kind.tag)
  match entry.required "kind" reason with
  | .error fault => .error fault
  | .ok tag =>
    match Kind.ofTag? tag with
    | some kind => .ok kind
    | none => .error ⟨"kind", reason⟩

/-- The weekdays that a field names.  A value of the wrong kind is not a matter of the form, and
    stops its examination. -/
def checkWeekdays (entry : Entry Value) : Except WeekdayError (Checked Weekdays) :=
  match entry with
  | .absent | .null => .ok (.ok .empty)
  | .given v =>
    match Weekdays.ofValue v with
    | .ok days => .ok (.ok days)
    | .error .wrongKind => .error .wrongKind
    | .error .infinite => .error .infinite
    | .error e => .ok (.error ⟨"weekdays", .refused e.message⟩)

/-- The series that a form describes. -/
def series (form : SeriesForm) : Except SeriesRefusal Series := do
  let seriesId := form.seriesId.orDefault "series" "series_id" .notText
  let anchorStart := form.anchorStart.required "anchor_start" .notDateTime
  let allDay := form.allDay.orDefault false "all_day" .notBoolean
  let kind := checkKind form.kind
  let weekdays ← (checkWeekdays form.weekdays).mapError .weekdays
  match seriesId, anchorStart, allDay, kind, weekdays with
  | .ok seriesId, .ok anchorStart, .ok allDay, .ok kind, .ok weekdays =>
    (Series.ofFields
      { seriesId, title := form.title, description := form.description, anchorStart
        anchorEnd := form.anchorEnd, allDay, kind, weekdays
        firstInstance := form.firstInstance
        lastInstance := form.lastInstance }).mapError .inconsistent
  | seriesId, anchorStart, allDay, kind, weekdays =>
    .error (.fields (seriesId.faults ++ anchorStart.faults ++ allDay.faults ++ kind.faults ++
      weekdays.faults))

end SeriesForm

end EventCalendar
