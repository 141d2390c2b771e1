/-
  EventCalendar.Weekdays

  Sets of weekdays, numbered from 1 for Sunday to 7 for Saturday, and the many
  spellings in which they are given: numbers, digits, and day codes such as
  `MO` or `1SU`.
-/

import EventCalendar.Text.Case
import EventCalendar.Text.Integer
import EventCalendar.Value

namespace EventCalendar

open EventCalendar.Number EventCalendar.Text

/-! ## Day codes -/

/-- The two-letter codes of the weekdays, with their numbers. -/
def dayCodes : List (String × Nat) :=
  [("SU", 1), ("MO", 2), ("TU", 3), ("WE", 4), ("TH", 5), ("FR", 6), ("SA", 7)]

/-- The last two characters of a text in capital letters: its day code, whatever precedes it. -/
def codeOf (s : String) : String :=
  let cs := s.toList
  String.ofList (cs.drop (cs.length - 2))

/-! ## Sets of weekdays -/

/-- Weekdays in ascending order, each once. -/
structure Weekdays where
  days : List Nat
  ascending : days.Pairwise (· < ·)
  inWeek : ∀ d ∈ days, 1 ≤ d ∧ d ≤ 7
  deriving DecidableEq, Repr

namespace Weekdays

/-- No weekday. -/
def empty : Weekdays := ⟨[], .nil, by simp⟩

/-- The days of a list that are weekdays. -/
def ofList (days : List Nat) : Weekdays where
  days := [1, 2, 3, 4, 5, 6, 7].filter (days.contains ·)
  ascending := List.Pairwise.filter _ (by decide)
  inWeek := by
    intro d hd
    have h := (List.mem_filter.1 hd).1
    simp only [List.mem_cons, List.not_mem_nil, or_false] at h
    omega

theorem mem_ofList {days : List Nat} {d : Nat} :
    d ∈ (ofList days).days ↔ (1 ≤ d ∧ d ≤ 7) ∧ d ∈ days := by
  simp only [ofList, List.mem_filter, List.contains_iff_mem, List.mem_cons, List.not_mem_nil,
    or_false]
  constructor
  · rintro ⟨h, hd⟩
    exact ⟨by omega, hd⟩
  · rintro ⟨h, hd⟩
    exact ⟨by omega, hd⟩

end Weekdays

/-! ## Spellings -/

/-- Why something does not stand for weekdays. -/
inductive WeekdayError where
  /-- The text is neither a number nor does it end in a day code. -/
  | unknownToken (text : String)
  /-- There is no weekday with this number. -/
  | outOfWeek (number : Int)
  /-- The digits cannot be read as a number. -/
  | unreadable (cause : IntegerError)
  /-- The number is not a number. -/
  | notANumber
  /-- The number is infinite. -/
  | infinite
  /-- A value of this kind is no weekday, and no collection of weekdays. -/
  | wrongKind
  deriving DecidableEq, Repr

/-- The wording of an error. -/
def WeekdayError.message : WeekdayError → String
  | .unknownToken text => s!"Unknown weekday token: {quoted text}"
  | .outOfWeek number => s!"Weekday number out of range 1..7: {number}"
  | .unreadable cause => cause.message
  | .notANumber => "cannot convert float NaN to integer"
  | .infinite => "cannot convert float infinity to integer"
  | .wrongKind => "not a weekday"

namespace Weekdays

/-- The number that a text stands for: its digits, or the day code at its end. -/
def numberOfText (text : String) : Except WeekdayError Int :=
  let token := upper (trim text)
  if isDigits token then (readInteger token).mapError .unreadable
  else match dayCodes.lookup (codeOf token) with
    | some day => .ok day
    | none => .error (.unknownToken text)

/-- The number that a value stands for. -/
def numberOf : Value → Except WeekdayError Int
  | .text s => numberOfText s
  | .int n => .ok n
  | .bool b => .ok (if b then 1 else 0)
  | .float (.finite negative mantissa exponent) =>
    .ok (Binary64.truncate negative mantissa exponent)
  | .float (.infinite _) => .error .infinite
  | .float .nan => .error .notANumber
  | .bytes b => (readBytes b).mapError .unreadable
  | .null | .stamp _ | .list _ | .map _ => .error .wrongKind

/-- The weekday that a value stands for. -/
def dayOf (v : Value) : Except WeekdayError Nat :=
  match numberOf v with
  | .error e => .error e
  | .ok n => if 1 ≤ n ∧ n ≤ 7 then .ok n.toNat else .error (.outOfWeek n)

/-- The values that a field holds: none, one, or those of a collection. -/
def valuesOf : Value → Except WeekdayError (List Value)
  | .null => .ok []
  | .list items => .ok items
  | .map entries => .ok (entries.map (·.1))
  | .bytes b => .ok (b.map fun byte => .int byte.toNat)
  | .float _ | .stamp _ => .error .wrongKind
  | v => .ok [v]

/-- The set of weekdays that a value stands for. -/
def ofValue (v : Value) : Except WeekdayError Weekdays := do
  let values ← valuesOf v
  let days ← values.mapM dayOf
  return ofList days

end Weekdays

end EventCalendar
