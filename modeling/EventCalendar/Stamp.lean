/-
  EventCalendar.Stamp

  Days and times as configuration files give them, and their two texts.  A
  time may tell what its clock is ahead of universal time.
-/

import EventCalendar.Zone

namespace EventCalendar

open EventCalendar.Time

/-! ## Stamps -/

/-- What a clock is ahead of universal time, in minutes. -/
structure ClockOffset where
  minutes : Int
  inDay : -1440 < minutes ∧ minutes < 1440
  deriving DecidableEq, Repr

/-- A day, or the reading of a clock. -/
inductive Stamp where
  | day (date : Date)
  | time (reading : Wall) (ahead : Option ClockOffset)
  deriving DecidableEq, Repr

/-- The offset of a number of minutes, if it is less than a day. -/
def ClockOffset.of? (minutes : Int) : Option ClockOffset :=
  if h : -1440 < minutes ∧ minutes < 1440 then some ⟨minutes, h⟩ else none

/-! ## Texts -/

/-- The written form of an offset. -/
def ClockOffset.written (a : ClockOffset) : String :=
  let seconds := 60 * a.minutes
  if seconds = 0 then "datetime.timezone.utc"
  else if 0 < seconds then s!"datetime.timezone(datetime.timedelta(seconds={seconds}))"
  else s!"datetime.timezone(datetime.timedelta(days=-1, seconds={86400 + seconds}))"

namespace Stamp

/-- The plain form of a stamp. -/
def plain : Stamp → String
  | .day d => d.text
  | .time w ahead =>
    w.date.text ++ " " ++ clockText w.timeOfDay ++
      (ahead.map fun a => Zone.offsetText a.minutes).getD ""

/-- The numbers of a reading: without the seconds and microseconds at the end that are zero. -/
def numbers (w : Wall) : List Nat :=
  let seconds := w.timeOfDay / 1000000
  let micros := w.timeOfDay % 1000000
  [w.date.year, w.date.month, w.date.day, seconds / 3600, seconds / 60 % 60] ++
    if micros ≠ 0 then [seconds % 60, micros] else if seconds % 60 ≠ 0 then [seconds % 60] else []

/-- The written form of a stamp. -/
def written : Stamp → String
  | .day d => s!"datetime.date({d.year}, {d.month}, {d.day})"
  | .time w ahead =>
    "datetime.datetime(" ++ String.intercalate ", " ((numbers w).map toString) ++
      ((ahead.map fun a => ", tzinfo=" ++ a.written).getD "") ++ ")"

/-- Two stamps that count as one: the same day, the same reading, or two readings of one instant. -/
def same : Stamp → Stamp → Bool
  | .day a, .day b => a == b
  | .time a none, .time b none => a == b
  | .time a (some x), .time b (some y) =>
    (a.micros : Int) - x.minutes * microsPerMinute == b.micros - y.minutes * microsPerMinute
  | _, _ => false

end Stamp

end EventCalendar
