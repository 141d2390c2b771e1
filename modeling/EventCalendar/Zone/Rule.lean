/-
  EventCalendar.Zone.Rule

  The offset of a zone from universal time: a standard offset, and for zones
  with a summer time the two days of the year on which the clocks change.  A
  change is given by month, week and the wall-clock time before it.
-/

import EventCalendar.Time.Wall

namespace EventCalendar.Zone

open EventCalendar.Time

/-! ## Changes of the clock -/

/-- A change on a Sunday of a month, `minutes` after its midnight. The fifth Sunday is the last. -/
structure Change where
  month : Nat
  week : Nat
  minutes : Nat
  deriving DecidableEq, Repr

/-- The minute of a change in a year, counted from the beginning of the calendar. -/
def Change.minuteIn (c : Change) (year : Nat) : Int :=
  -- day 0 is a Monday, so a Sunday has the remainder 6
  let first := daysBeforeYear year + daysBeforeMonth year c.month
  let sunday := (6 - first % 7) + 7 * (c.week - 1)
  -- a month with four Sundays has no fifth one
  let sunday := if monthLength year c.month ≤ sunday then sunday - 7 else sunday
  ((first + sunday) * 1440 + c.minutes : Nat)

/-- Summer time: by how many minutes it is ahead of standard time, and its two changes. -/
structure Summer where
  ahead : Nat
  starts : Change
  ends : Change
  deriving DecidableEq, Repr

/-! ## Rules -/

/-- The rule of a zone: minutes ahead of universal time, and summer time if there is any. -/
structure Rule where
  standard : Int
  summer : Option Summer
  deriving DecidableEq, Repr

/-- Summer time holds at a wall-clock reading.  In the hour that the clocks skip and in the
    hour that they repeat, the reading itself does not tell; `later` asks for the offset
    after the change. -/
def Summer.holdsAt (s : Summer) (w : Wall) (later : Bool) : Bool :=
  let year := w.date.year
  let starts := s.starts.minuteIn year + if later then 0 else (s.ahead : Int)
  let ends := s.ends.minuteIn year - if later then (s.ahead : Int) else 0
  let now : Int := (w.micros / microsPerMinute : Nat)
  -- in the south summer lies around the turn of the year
  if starts < ends then starts ≤ now && now < ends else !(ends ≤ now && now < starts)

/-- Minutes ahead of universal time at a wall-clock reading. -/
def Rule.offset (r : Rule) (w : Wall) (later : Bool) : Int :=
  match r.summer with
  | none => r.standard
  | some s => if s.holdsAt w later then r.standard + s.ahead else r.standard

/-- The offset is that of standard time or that of summer time. -/
theorem Rule.offset_eq (r : Rule) (w : Wall) (later : Bool) :
    r.offset w later = r.standard ∨
      ∃ s ∈ r.summer, r.offset w later = r.standard + s.ahead := by
  unfold Rule.offset
  split
  · exact .inl rfl
  · rename_i s hs
    split
    · exact .inr ⟨s, hs, rfl⟩
    · exact .inl rfl

end EventCalendar.Zone
