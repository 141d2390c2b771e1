/-
  EventCalendar.Kind

  The eight kinds of recurrence.
-/

import EventCalendar.Text.Quoted

namespace EventCalendar

open EventCalendar.Text

/-- How an event recurs. -/
inductive Kind where
  | daily
  /-- Monday to Friday. -/
  | workdays
  | weekly
  /-- Every other week. -/
  | biweekly
  /-- On some weekdays of every week. -/
  | customWeekly
  /-- On one day of the month. -/
  | monthly
  /-- On the first, second, … of a weekday in the month. -/
  | monthlySpecific
  | yearly
  deriving DecidableEq, Repr

namespace Kind

/-- Every kind. -/
def all : List Kind :=
  [.daily, .workdays, .weekly, .biweekly, .customWeekly, .monthly, .monthlySpecific, .yearly]

/-- The tag of a kind in data. -/
def tag : Kind → String
  | .daily => "daily"
  | .workdays => "workdays"
  | .weekly => "weekly"
  | .biweekly => "biweekly"
  | .customWeekly => "customWeekly"
  | .monthly => "monthly"
  | .monthlySpecific => "monthlySpecific"
  | .yearly => "yearly"

/-- The kind with a tag. -/
def ofTag? (s : String) : Option Kind :=
  all.find? (·.tag == s)

/-- A kind is found by its tag. -/
theorem ofTag?_tag (k : Kind) : ofTag? k.tag = some k := by
  cases k <;> decide

/-- There is no kind with a tag. -/
structure Unknown where
  tag : String
  deriving DecidableEq, Repr

/-- The wording of the error. -/
def Unknown.message (u : Unknown) : String := s!"Unsupported recurrence kind: {quoted u.tag}"

/-- The kind with a tag, or the error that there is none. -/
def find (s : String) : Except Unknown Kind :=
  match ofTag? s with
  | some k => .ok k
  | none => .error ⟨s⟩

end Kind

end EventCalendar
