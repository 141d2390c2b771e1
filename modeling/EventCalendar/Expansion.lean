/-
  EventCalendar.Expansion

  The occurrences of a series in a window.  The window is cut to the bounds of
  the series; starts before it are skipped within a budget, and no more
  occurrences are listed than are asked for.
-/

import EventCalendar.Lattice
import EventCalendar.Occurrence
import EventCalendar.Traced

namespace EventCalendar

open EventCalendar.Time

/-! ## Windows -/

/-- A span of time with both ends. -/
structure Window where
  first : Moment
  last : Moment
  deriving DecidableEq, Repr

namespace Window

/-- Nothing lies in the window. -/
def isEmpty (w : Window) : Bool := w.last.before w.first

/-- The window from one date-time to another, or the one moment. -/
def of (first : Moment) (last : Option Moment) : Window :=
  { first := first.zoned, last := (last.getD first).zoned }

/-- The part of a window in which a series recurs. -/
def clip (w : Window) (s : Series) : Window :=
  { first :=
      match s.firstInstance with
      | some bound => if w.first.zoned.before bound then bound else w.first.zoned
      | none => w.first.zoned
    last :=
      match s.lastInstance with
      | some bound => if bound.before w.last.zoned then bound else w.last.zoned
      | none => w.last.zoned }

end Window

/-! ## Results -/

/-- How an expansion came to its end. -/
inductive Expansion.Ending where
  /-- Nothing lies in the window. -/
  | emptyWindow
  /-- All occurrences are listed. -/
  | complete
  /-- There are more occurrences than were asked for. -/
  | capped
  /-- The window lies too far away. -/
  | gaveUp
  deriving DecidableEq, Repr

/-- Occurrences of a series in a window. -/
structure Expansion where
  seriesId : String
  occurrences : List Occurrence
  ending : Expansion.Ending
  deriving DecidableEq, Repr

/-- Occurrences may be missing. -/
def Expansion.truncated (e : Expansion) : Bool :=
  e.ending == .capped || e.ending == .gaveUp

/-- Occurrences asked for when nothing else is said. -/
def defaultCap : Int := 1000

/-- Steps that may be taken to reach a window. -/
def skipBudget : Int := 10000

/-! ## Period by period -/

/-- Lists the occurrences from `cursor` on that start by `last`, and tells whether there are more
    than `room`. -/
def Pattern.list (p : Pattern) (duration : Int) (last : Moment) :
    (room : Nat) → (cursor : Moment) → Except CalendarError (List Occurrence × Bool)
  | room, cursor =>
    if !cursor.upTo last then .ok ([], false)
    else match room with
      -- one more start in the window, and no room for it
      | 0 => .ok ([], true)
      | room + 1 => do
        let finish ← cursor.plus duration
        let next ← p.step cursor
        let (rest, more) ← p.list duration last room next
        return (.plain cursor finish :: rest, more)

/-- Steps from `cursor` to the first start whose occurrence does not end before `first`, if
    `budget` steps lead there. -/
def Pattern.skip (p : Pattern) (duration : Int) (first : Moment) :
    (budget : Nat) → (cursor : Moment) → Except CalendarError (Option Moment)
  | budget, cursor => do
    let finish ← cursor.plus duration
    if !finish.before first then return some cursor
    match budget with
    -- the window is still ahead
    | 0 => return none
    | budget + 1 => p.skip duration first budget (← p.step cursor)

/-- The first start whose occurrence does not end before a window. -/
def Series.enter (s : Series) (duration : Int) (first : Moment) (budget : Nat) :
    Except CalendarError (Option Moment) := do
  let cursor ← s.firstStart
  let finish ← cursor.plus duration
  if finish.before first then
    let target ← first.plus (-duration)
    s.pattern.skip duration first budget (← s.pattern.jump cursor target)
  else s.pattern.skip duration first budget cursor

/-- The occurrences that overlap a window, for all kinds but those with listed weekdays. -/
def Series.listPeriods (s : Series) (w : Window) (cap budget : Int) :
    Except CalendarError Expansion := do
  let duration ← s.duration
  match ← s.enter duration w.first budget.toNat with
  | none => return { seriesId := s.seriesId, occurrences := [], ending := .gaveUp }
  | some cursor =>
    let (occurrences, more) ← s.pattern.list duration w.last cap.toNat cursor
    return { seriesId := s.seriesId, occurrences, ending := if more then .capped else .complete }

/-! ## Week by week -/

/-- The occurrences of one week on the listed days, if they lie in the window and not before the
    anchor, and the room that is left; no room is left over if there are more. -/
def Series.listDays (s : Series) (duration : Int) (w : Window) (week : Moment) :
    (days : List Nat) → (room : Nat) → Except CalendarError (List Occurrence × Option Nat)
  | [], room => .ok ([], some room)
  | day :: days, room => do
    let start ← week.plusDays ((day : Int) - 1)
    let finish ← start.plus duration
    if start.before s.start || start.before w.first || w.last.before finish then
      s.listDays duration w week days room
    else match room with
      | 0 => return ([], none)
      | room + 1 =>
        let (rest, left) ← s.listDays duration w week days room
        return (.plain start finish :: rest, left)

/-- Lists week by week, from `week` on, and tells whether there are more than `room`.  The
    calendar has no more than `weeks` weeks from there on. -/
def Series.listWeeks (s : Series) (duration : Int) (w : Window) :
    (weeks : Nat) → (room : Nat) → (week : Moment) →
      Except CalendarError (List Occurrence × Bool)
  | 0, _, _ => .error .outOfRange
  | weeks + 1, room, week =>
    if !week.upTo w.last then .ok ([], false)
    else do
      let (here, left) ← s.listDays duration w week s.weekdays.days room
      let next ← week.plusDays 7
      match left with
      | none => return (here, true)
      | some room =>
        let (rest, more) ← s.listWeeks duration w weeks room next
        return (here ++ rest, more)

/-- The weeks of the calendar. -/
def calendarWeeks : Nat := dayCount / 7 + 1

/-- The occurrences that lie in a window, for series with listed weekdays.  Weeks start on Sunday,
    at the time of day of the anchor. -/
def Series.listListed (s : Series) (w : Window) (cap : Int) : Except CalendarError Expansion := do
  let anchor := s.start
  let duration ← s.duration
  -- the Sunday of the anchor's week
  let week ← anchor.plusDays (-((anchor.calendarWeekday : Int) - 1))
  -- weeks that end before the window are left out
  let skipped := (w.first.since week).fdiv (7 * microsPerDay) - 1
  let week ← if 0 < skipped then week.plusDays (skipped * 7) else .ok week
  let (occurrences, more) ← s.listWeeks duration w calendarWeeks cap.toNat week
  return { seriesId := s.seriesId, occurrences, ending := if more then .capped else .complete }

/-! ## Expansion -/

/-- The occurrences of a series in a window, at most `cap` of them. -/
def Series.expandWithin (s : Series) (w : Window) (cap budget : Int) :
    Except CalendarError Expansion :=
  let w := w.clip s
  if w.isEmpty then .ok { seriesId := s.seriesId, occurrences := [], ending := .emptyWindow }
  else if s.kind = .customWeekly then s.listListed w cap
  else s.listPeriods w cap budget

/-- The occurrences of a series in a window, at most `cap` of them. -/
def Series.expand (s : Series) (w : Window) (cap : Int) : Except CalendarError Expansion :=
  s.expandWithin w cap skipBudget

/-- What an expansion has to say. -/
def Expansion.notes (e : Expansion) (s : Series) (w : Window) (cap budget : Int) : List Note :=
  let w := w.clip s
  match e.ending with
  | .emptyWindow =>
    [.debug s!"Series {s.seriesId}: effective window is empty ({w.first.text} > {w.last.text})"]
  | .complete => []
  | .capped =>
    [.info (s!"Series {s.seriesId}: expansion truncated at {cap} instances " ++
      s!"(kind={s.kind.tag})")]
  | .gaveUp =>
    [.warning s!"Series {s.seriesId}: gave up skipping to {w.first.text} after {budget} periods"]

/-- Expands a series and notes how it went. -/
def Series.expandNoting (s : Series) (w : Window) (cap budget : Int) :
    Traced CalendarError Expansion := do
  let e ← Traced.ofExcept (s.expandWithin w cap budget)
  Traced.noteAll (e.notes s w cap budget)
  return e

end EventCalendar
