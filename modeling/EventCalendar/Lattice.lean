/-
  EventCalendar.Lattice

  The starts of the periods of a series.  From one start the next one is a step
  on the wall clock; starts far away are reached by a jump over whole periods.
-/

import EventCalendar.Series

namespace EventCalendar

open EventCalendar.Time

/-! ## Patterns -/

/-- What the steps of a series depend on. -/
structure Pattern where
  kind : Kind
  /-- The day of the month that monthly and yearly steps come back to. -/
  anchorDay : Nat
  /-- The listed weekdays, 1 for Sunday to 7 for Saturday. -/
  weekdays : List Nat
  /-- The weekday of monthly steps, 0 for Monday to 6 for Sunday. -/
  weekday : Int
  /-- Which of the days of the month with that weekday is meant. -/
  ordinal : Int
  deriving DecidableEq, Repr

/-- The pattern that the anchor of a series sets. -/
def Series.pattern (s : Series) : Pattern where
  kind := s.kind
  anchorDay := s.start.date.day
  weekdays := s.weekdays.days
  weekday := s.start.weekday
  ordinal := s.start.date.weekdayOrdinal

/-! ## Weekdays -/

/-- Saturday and Sunday. -/
def isWeekend (weekday : Nat) : Bool := weekday == 5 || weekday == 6

/-- The calendar number of the weekday some days after another one. -/
def calendarWeekdayAfter (m : Moment) (days : Nat) : Nat := (m.weekday + days + 1) % 7 + 1

/-- The number of days to the next working day. -/
def daysToWorkday (m : Moment) : Nat :=
  if m.weekday == 4 then 3 else if m.weekday == 5 then 2 else 1

/-- The number of days to the next listed weekday, a week if none is listed. -/
def daysToListed (weekdays : List Nat) (m : Moment) : Nat :=
  ([1, 2, 3, 4, 5, 6, 7].find? fun days =>
    weekdays.contains (calendarWeekdayAfter m days)).getD 7

/-- The distances, in days, to the days with a weekday in the rest of the month. -/
def weekdayOffsets (monthStart : Moment) (weekday : Int) : List Nat :=
  let d := monthStart.date
  (List.range (monthLength d.year d.month - d.day + 1)).filter fun offset =>
    ((monthStart.weekday + offset) % 7 : Nat) = weekday

/-- The distance that stands `ordinal`-th, if there are so many. -/
def nthOffset? (offsets : List Nat) (ordinal : Int) : Option Nat :=
  if ordinal ≤ 0 then none else offsets[ordinal.toNat - 1]?

/-- The date-time some days later, or the date-time itself. -/
def dayAt (monthStart : Moment) (offset : Nat) : Except CalendarError Moment :=
  if offset = 0 then .ok monthStart else monthStart.plusDays offset

/-- The `ordinal`-th day with a weekday from `monthStart` to the end of its month, the last one if
    there are fewer.  To know that there are fewer one has to look into the next month. -/
def nthWeekday (monthStart : Moment) (weekday ordinal : Int) : Except CalendarError Moment :=
  let offsets := weekdayOffsets monthStart weekday
  match nthOffset? offsets ordinal with
  | some offset => dayAt monthStart offset
  | none => do
    -- the search has gone on to the first day of the next month
    let d := monthStart.date
    let _ ← monthStart.plusDays (monthLength d.year d.month - d.day + 1 : Nat)
    match offsets.getLast? with
    | some offset => dayAt monthStart offset
    | none => .error .noSuchWeekday

/-! ## Steps -/

/-- The start that lies `months` months on. -/
def Pattern.inMonths (p : Pattern) (cursor : Moment) (months : Int) :
    Except CalendarError Moment :=
  match p.kind with
  | .monthlySpecific => do nthWeekday (← cursor.plusMonths months 1) p.weekday p.ordinal
  | _ => cursor.plusMonths months p.anchorDay

/-- The next start. -/
def Pattern.step (p : Pattern) (cursor : Moment) : Except CalendarError Moment :=
  match p.kind with
  | .daily => cursor.plusDays 1
  | .workdays => cursor.plusDays (daysToWorkday cursor)
  | .weekly => cursor.plusDays 7
  | .biweekly => cursor.plusDays 14
  | .customWeekly => cursor.plusDays (daysToListed p.weekdays cursor)
  | .monthly | .monthlySpecific => p.inMonths cursor 1
  | .yearly => p.inMonths cursor 12

/-- The next starts, as many as are wanted, and what ended them early. -/
def Pattern.steps (p : Pattern) : (count : Nat) → Moment → List Moment × Option CalendarError
  | 0, _ => ([], none)
  | count + 1, cursor =>
    match p.step cursor with
    | .error e => ([], some e)
    | .ok next =>
      let (rest, ending) := p.steps count next
      (next :: rest, ending)

/-- The first start on or after the anchor. -/
def Series.firstStart (s : Series) : Except CalendarError Moment :=
  let cursor := s.start
  let fits : Bool :=
    match s.kind with
    | .workdays => !isWeekend cursor.weekday
    | .customWeekly => s.weekdays.days.contains cursor.calendarWeekday
    | _ => true
  if fits then .ok cursor else s.pattern.step cursor

/-- The first starts of a series, as many as are wanted, and what ended them early. -/
def Series.starts (s : Series) : (count : Nat) → List Moment × Option CalendarError
  | 0 => ([], none)
  | count + 1 =>
    match s.firstStart with
    | .error e => ([], some e)
    | .ok first =>
      let (rest, ending) := s.pattern.steps count first
      (first :: rest, ending)

/-! ## Jumps -/

/-- The number of days of a kind's period, where it is the same for all. -/
def Kind.periodDays? : Kind → Option Nat
  | .daily => some 1
  | .weekly => some 7
  | .biweekly => some 14
  | _ => none

/-- The months from one date-time to another, by year and month alone. -/
def monthsBetween (a b : Moment) : Int :=
  ((b.date.year : Int) - a.date.year) * 12 + b.date.month - a.date.month

/-- A start not after `target`, some whole periods after `cursor`; a few periods may be left. -/
def Pattern.jump (p : Pattern) (cursor target : Moment) : Except CalendarError Moment :=
  if !cursor.comparable target then .error .floatingMixed
  else if target.upTo cursor then .ok cursor
  else
    let wait := target.since cursor
    match p.kind with
    | .daily | .weekly | .biweekly =>
      let days := p.kind.periodDays?.getD 1
      -- one period less than fits, as the wait may be counted between instants
      let periods := wait.fdiv (days * microsPerDay) - 1
      if 0 < periods then cursor.plusDays (periods * days) else .ok cursor
    | .workdays =>
      let weeks := wait.fdiv (7 * microsPerDay) - 1
      if 0 < weeks then cursor.plusDays (weeks * 7) else .ok cursor
    | .monthly | .monthlySpecific =>
      -- the day may come later in the month than that of `target`
      let months := monthsBetween cursor target - 1
      if 0 < months then p.inMonths cursor months else .ok cursor
    | .yearly =>
      let years := (target.date.year : Int) - cursor.date.year - 1
      if 0 < years then p.inMonths cursor (12 * years) else .ok cursor
    | .customWeekly => .ok cursor

end EventCalendar
