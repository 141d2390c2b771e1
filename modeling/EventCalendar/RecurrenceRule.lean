/-
  EventCalendar.RecurrenceRule

  The text of a recurrence rule, `KEY=VALUE` pairs with semicolons between
  them.  Four keys count; everything else is passed over.
-/

import EventCalendar.Kind
import EventCalendar.Text.Case
import EventCalendar.Text.Integer
import EventCalendar.Text.Split
import EventCalendar.Weekdays

namespace EventCalendar

open EventCalendar.Text

/-! ## Rules -/

/-- What a recurrence rule says. -/
structure RecurrenceRule where
  frequency : String
  interval : Option Int
  /-- The day codes, each once, in the order of the text. -/
  days : Option (List String)
  /-- The end, as a date token. -/
  ending : Option String
  deriving DecidableEq, Repr

namespace RecurrenceRule

/-- Why a text is not a recurrence rule. -/
inductive Error where
  | empty
  | intervalNotWhole (value : String)
  | noFrequency
  deriving DecidableEq, Repr

/-- The wording of an error. -/
def Error.message : Error → String
  | .empty => "Empty RRULE string"
  | .intervalNotWhole value => s!"INTERVAL is not an integer: {quoted value}"
  | .noFrequency => "RRULE missing required FREQ parameter"

/-! ## Pairs -/

/-- A key in small letters and its value, both without blanks around them; nothing if the part
    has no `=`. -/
def pair? (part : List Char) : Option (String × String) :=
  match splitFirst '=' part with
  | (key, some value) => some (lower (trim (String.ofList key)), trim (String.ofList value))
  | (_, none) => none

/-- The text without blanks around it and without the name of the property in front. -/
def body (text : String) : List Char :=
  let bare := trim text
  if "RRULE:".toList.isPrefixOf (upper bare).toList then bare.toList.drop 6 else bare.toList

/-- The pairs of a text, in order. -/
def pairs (text : String) : List (String × String) :=
  (splitAt ';' (body text)).filterMap pair?

/-! ## Reading -/

/-- The day codes of a list with commas, without ordinals, each once. -/
def dayList (value : String) : List String :=
  (splitAt ',' value.toList).foldl
    (fun days token =>
      let code := codeOf (upper (trim (String.ofList token)))
      if (dayCodes.lookup code).isSome && !days.contains code then days ++ [code] else days)
    []

/-- What pairs say, read one after the other; a later pair replaces an earlier one. -/
structure Draft where
  frequency : Option String
  interval : Option Int
  days : Option (List String)
  ending : Option String
  deriving DecidableEq, Repr

/-- Nothing said yet. -/
def Draft.empty : Draft := ⟨none, none, none, none⟩

/-- A draft with one more pair. -/
def Draft.add (d : Draft) (pair : String × String) : Except Error Draft :=
  let (key, value) := pair
  if key = "freq" then .ok { d with frequency := some (upper value) }
  else if key = "interval" then
    match readInteger value with
    | .ok n => .ok { d with interval := some n }
    | .error _ => .error (.intervalNotWhole value)
  else if key = "byday" then .ok { d with days := some (dayList value) }
  else if key = "until" then .ok { d with ending := some value }
  else .ok d

/-- The rule of a draft, if it has a frequency. -/
def Draft.rule (d : Draft) : Except Error RecurrenceRule :=
  match d.frequency with
  | none => .error .noFrequency
  | some frequency =>
    if frequency = "" then .error .noFrequency
    else .ok { frequency, interval := d.interval, days := d.days, ending := d.ending }

/-- The rule that a text states. -/
def ofText (text : String) : Except Error RecurrenceRule :=
  if isBlankText text then .error .empty
  else do (← (pairs text).foldlM Draft.add Draft.empty).rule

/-! ## The kind of recurrence -/

/-- The codes of Monday to Friday. -/
def workdayCodes : List String := ["MO", "TU", "WE", "TH", "FR"]

/-- The tag of the kind of recurrence, or of a frequency that has none; empty where the days of a
    weekly rule cannot be kept. -/
def tag (r : RecurrenceRule) : String :=
  if r.frequency ≠ "WEEKLY" then lower r.frequency
  else
    let days := r.days.getD []
    if workdayCodes.all days.contains then Kind.workdays.tag
    else if r.interval = some 2 then Kind.biweekly.tag
    else if 1 < days.length then ""
    else Kind.weekly.tag

end RecurrenceRule

end EventCalendar
