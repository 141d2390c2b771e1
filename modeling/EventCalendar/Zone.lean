/-
  EventCalendar.Zone

  The clock that a date-time is read on: none in particular, a fixed distance
  from universal time, or the clock of a region.
-/

import EventCalendar.Zone.Region

namespace EventCalendar

open EventCalendar.Time

/-! ## Zones -/

/-- The clock that a wall-clock reading belongs to. -/
inductive Zone where
  /-- No clock in particular. -/
  | floating
  /-- A clock some minutes ahead of universal time, by less than a day. -/
  | fixed (minutes : Int) (inDay : minutes.natAbs < 1440 := by decide)
  /-- The clock of a region. -/
  | region (place : Zone.Region)
  deriving DecidableEq, Repr

namespace Zone

/-- Universal time. -/
def utc : Zone := .fixed 0

/-- Minutes ahead of universal time at a wall-clock reading; `later` asks for the second of two
    readings. -/
def offset (z : Zone) (w : Wall) (later : Bool) : Int :=
  match z with
  | .floating => 0
  | .fixed minutes _ => minutes
  | .region r => r.rule.offset w later

@[simp] theorem offset_utc (w : Wall) (later : Bool) : utc.offset w later = 0 := rfl

/-- Every clock is less than a day away from universal time. -/
theorem natAbs_offset_lt (z : Zone) (w : Wall) (later : Bool) :
    (z.offset w later).natAbs < 1440 := by
  cases z with
  | floating => simp [offset]
  | fixed minutes inDay => exact inDay
  | region r =>
    have h := r.offset_bounds w later
    simp only [offset]
    omega

/-- No clock is put forward or back by more than two hours. -/
theorem offset_sub_offset_le (z : Zone) (w w' : Wall) (later later' : Bool) :
    z.offset w later - z.offset w' later' ≤ 120 := by
  cases z with
  | floating => simp [offset]
  | fixed minutes inDay => simp [offset]
  | region r =>
    have h := r.offset_bounds w later
    have h' := r.offset_bounds w' later'
    simp only [offset]
    omega

/-- The distance from universal time as sign, hours and minutes. -/
def offsetText (minutes : Int) : String :=
  (if minutes < 0 then "-" else "+") ++ padded 2 (minutes.natAbs / 60) ++ ":" ++
    padded 2 (minutes.natAbs % 60)

/-- The name of a zone: that of its region, `UTC`, or the distance from it. -/
def name : Zone → String
  | .floating => ""
  | .fixed minutes _ => if minutes = 0 then "UTC" else offsetText minutes
  | .region r => r.name

end Zone

end EventCalendar
