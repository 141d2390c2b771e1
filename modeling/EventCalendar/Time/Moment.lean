/-
  EventCalendar.Time.Moment

  Date-times: a wall-clock reading, the zone it is read in, and which of two
  readings is meant where the clock shows a time twice.  Two date-times of one
  zone are held against each other by the wall clock, others by their instants.
-/

import EventCalendar.Time.CalendarError
import EventCalendar.Zone

namespace EventCalendar.Time

/-! ## Date-times -/

/-- A wall-clock reading in a zone. `later` picks the second reading of a repeated hour. -/
structure Moment where
  wall : Wall
  later : Bool
  zone : Zone
  deriving DecidableEq, Repr

namespace Moment

/-- The day on the wall calendar. -/
def date (m : Moment) : Date := m.wall.date

/-- Minutes ahead of universal time. -/
def offset (m : Moment) : Int := m.zone.offset m.wall m.later

/-- The instant: microseconds of universal time since the calendar began. -/
def instant (m : Moment) : Int := m.wall.micros - m.offset * microsPerMinute

/-- The date-time belongs to a zone. -/
def isZoned (m : Moment) : Bool := m.zone != .floating

/-- The date-time itself, in universal time if it has no zone. -/
def zoned (m : Moment) : Moment :=
  if m.zone = .floating then { m with zone := .utc } else m

theorem zoned_of_zone_ne {m : Moment} (h : m.zone ≠ .floating) : m.zoned = m := by
  simp [zoned, h]

theorem zone_zoned_ne (m : Moment) : m.zoned.zone ≠ .floating := by
  unfold zoned
  split
  · simp [Zone.utc]
  · assumption

/-! ## Order -/

/-- The time from `b` to `a`: on the wall clock of their common zone, else between the instants. -/
def since (a b : Moment) : Int :=
  if a.zone = b.zone then a.wall.micros - b.wall.micros else a.instant - b.instant

/-- `a` comes before `b`. -/
def before (a b : Moment) : Bool := since a b < 0

/-- `a` comes before `b` or with it. -/
def upTo (a b : Moment) : Bool := since a b ≤ 0

@[simp] theorem since_self (a : Moment) : since a a = 0 := by simp [since]

/-- The order of two date-times is that of their distance. -/
theorem upTo_eq_not_before (a b : Moment) : a.upTo b = !b.before a := by
  have h : since b a = -since a b := by
    unfold since
    by_cases hz : a.zone = b.zone
    · simp only [hz, if_true]
      omega
    · rw [if_neg hz, if_neg (fun h => hz h.symm)]
      omega
  simp only [upTo, before, h]
  by_cases h₀ : since a b ≤ 0
  · simp [h₀]
  · simp [h₀]
    omega

/-- The reading is skipped or repeated by the clock, so that it has two offsets. -/
def isAmbiguous (m : Moment) : Bool :=
  m.zone.offset m.wall false != m.zone.offset m.wall true

/-- Two date-times count as one: the same reading in one zone, or the same instant in two zones
    unless one of the readings has two offsets. -/
def same (a b : Moment) : Bool :=
  if a.zone = b.zone then a.wall = b.wall
  else a.isZoned && b.isZoned && !a.isAmbiguous && !b.isAmbiguous && a.instant == b.instant

/-- Two date-times can be held against each other: both have a zone, or neither has. -/
def comparable (a b : Moment) : Bool := a.isZoned == b.isZoned

/-! ## Arithmetic on the wall clock -/

/-- The date-time a number of microseconds later on the wall clock. -/
def plus (m : Moment) (duration : Int) : Except CalendarError Moment :=
  match m.wall.plus? duration with
  | some wall => .ok { m with wall, later := false }
  | none => .error .outOfRange

/-- The date-time some days later on the wall clock. -/
def plusDays (m : Moment) (days : Int) : Except CalendarError Moment :=
  m.plus (days * microsPerDay)

/-- Midnight of the same day. -/
def midnight (m : Moment) : Moment := { m with wall := m.wall.midnight }

/-- The same time of day `months` later, on day `day` of the month or its last day; day 0 stands
    for the day of the date-time itself. -/
def plusMonths (m : Moment) (months : Int) (day : Nat) : Except CalendarError Moment :=
  let d := m.date
  let index := (d.year * 12 + (d.month - 1) : Nat) + months
  let year := index.fdiv 12
  let month := (index.fmod 12).toNat + 1
  let day := if day = 0 then d.day else day
  match Date.of? year.toNat month (min (monthLength year.toNat month) day) with
  | some date => .ok { m with wall := m.wall.withDate date, later := false }
  | none =>
    if year < -2147483648 || 2147483647 < year then .error .outOfRange
    else .error (.yearOutOfRange year)

/-- The length of an event with a time of day whose end is not known: half an hour. -/
def defaultDuration : Int := 30 * microsPerMinute

/-- The end of an event whose end is not known. An all-day event ends on the day it starts. -/
def guessEnd (m : Moment) (allDay : Bool) : Except CalendarError Moment :=
  if allDay then .ok m else m.plus defaultDuration

/-- The same instant in universal time. -/
def toUniversal (m : Moment) : Except CalendarError Moment :=
  if m.zone = .utc then .ok m
  else match m.wall.plus? (-(m.offset * microsPerMinute)) with
    | some wall => .ok { wall, later := false, zone := .utc }
    | none => .error .outOfRange

/-! ## Weekdays -/

/-- The day of the week, 0 for Monday to 6 for Sunday. -/
def weekday (m : Moment) : Nat := m.wall.dayNumber % 7

/-- The day of the week as calendars number it, 1 for Sunday to 7 for Saturday. -/
def calendarWeekday (m : Moment) : Nat := (m.weekday + 1) % 7 + 1

/-! ## Text -/

/-- Day and time of day, parted by a separator, and the offset if there is a zone. -/
def textWith (separator : String) (m : Moment) : String :=
  m.date.text ++ separator ++ clockText m.wall.timeOfDay ++
    if m.isZoned then Zone.offsetText m.offset else ""

/-- The text of a date-time in data. -/
def isoText : Moment → String := textWith "T"

/-- The text of a date-time in messages. -/
def text : Moment → String := textWith " "

end Moment

end EventCalendar.Time
