/-
  EventCalendar.Time.CalendarError

  What can go wrong in calendar arithmetic.
-/

namespace EventCalendar.Time

/-- Why a date-time has no successor of the wanted kind. -/
inductive CalendarError where
  /-- A sum lies outside the calendar. -/
  | outOfRange
  /-- A step by months or years leads to a year outside the calendar. -/
  | yearOutOfRange (year : Int)
  /-- No day of the month has the wanted weekday. -/
  | noSuchWeekday
  /-- A date-time without a zone is held against one with a zone. -/
  | floatingMixed
  deriving DecidableEq, Repr

/-- The wording of a failure. -/
def CalendarError.message : CalendarError → String
  | .outOfRange => "date value out of range"
  | .yearOutOfRange year => s!"year {year} is out of range"
  | .noSuchWeekday => "list index out of range"
  | .floatingMixed => "can't compare offset-naive and offset-aware datetimes"

end EventCalendar.Time
