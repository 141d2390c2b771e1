/-
  EventCalendar.IsoText

  Date-times as people give them: a year, a month, a day, a week or a day of a
  year, then any one character, a time of day and an offset.
-/

import EventCalendar.Text.Integer
import EventCalendar.Time.Moment

namespace EventCalendar.IsoText

open EventCalendar.Text EventCalendar.Time

/-! ## What can go wrong -/

/-- Why a text is not read as a date-time. -/
inductive Error where
  /-- The text does not name a date-time. -/
  | malformed
  /-- The text names a day after the last one of the calendar. -/
  | outOfRange
  deriving DecidableEq, Repr

/-- The wording of an error. -/
def Error.message : Error → String
  | .malformed => "Invalid ISO date"
  | .outOfRange => "date value out of range"

/-! ## Numbers -/

/-- The number that some characters stand for. -/
def number? (cs : List Char) : Option Int :=
  match readInteger (String.ofList cs) with
  | .ok n => some n
  | .error _ => none

/-- A number that is not negative. -/
def natural? (n : Int) : Option Nat := if 0 ≤ n then some n.toNat else none

/-- The text after a sign, if it is at the front. -/
def dropSign (sign : Char) (cs : List Char) : List Char :=
  if cs.head? = some sign then cs.drop 1 else cs

/-! ## Days -/

/-- Year, month and day as numbers. -/
structure Fields where
  year : Int
  month : Int
  day : Int
  deriving DecidableEq, Repr

/-- The day of some fields. -/
def Fields.date? (f : Fields) : Option Date := do
  Date.of? (← natural? f.year) (← natural? f.month) (← natural? f.day)

/-- Year, month and day with or without dashes, a year with a month, or a year alone; and what
    follows. -/
def fields? (cs : List Char) : Option (Fields × List Char) := do
  if cs.length < 4 then none
  let year ← number? (cs.take 4)
  let rest := cs.drop 4
  if rest = [] then return (⟨year, 1, 1⟩, [])
  let dashed := rest.head? = some '-'
  let rest := dropSign '-' rest
  if rest.length < 2 then none
  let month ← number? (rest.take 2)
  let rest := rest.drop 2
  if rest = [] then if dashed then some (⟨year, month, 1⟩, []) else none
  else if dashed && rest.head? != some '-' then none
  else
    let rest := if dashed then rest.drop 1 else rest
    if rest.length < 2 then none
    let day ← number? (rest.take 2)
    return (⟨year, month, day⟩, rest.drop 2)

/-- A day of a week of a year; the first week is the one that 4 January lies in. -/
def weekDate (year week day : Int) : Except Error Date :=
  match Fields.date? ⟨year, 1, 4⟩ with
  | none => .error .malformed
  | some fourth =>
    if week < 1 || 53 < week || day < 1 || 7 < day then .error .malformed
    else
      -- counted from the Monday on or before 4 January
      let number := (fourth.number - fourth.weekday : Int) + (week - 1) * 7 + (day - 1)
      if h : number.toNat < dayCount then .ok (Date.ofNumber number.toNat h)
      else .error .outOfRange

/-- A day of a year. -/
def yearDate (year day : Int) : Except Error Date :=
  match Fields.date? ⟨year, 1, 1⟩ with
  | none => .error .malformed
  | some first =>
    if day < 1 || (if isLeap first.year then 366 else 365) < day then .error .malformed
    else
      let number := first.number + (day - 1).toNat
      if h : number < dayCount then .ok (Date.ofNumber number h) else .error .outOfRange

/-- A number, or the error that there is none. -/
def number (cs : List Char) : Except Error Int :=
  match number? cs with
  | some n => .ok n
  | none => .error .malformed

/-- A year with a week and the day of it, or with a day; and what follows. -/
def otherDate (cs : List Char) : Except Error (Date × List Char) := do
  if cs.length < 4 then throw .malformed
  let year ← number (cs.take 4)
  let dashed := (cs.drop 4).head? = some '-'
  match dropSign '-' (cs.drop 4) with
  | 'W' :: rest =>
    let week ← number (rest.take 2)
    let rest := rest.drop 2
    if rest = [] then return (← weekDate year week 1, [])
    if (rest.head? = some '-') != dashed then throw .malformed
    let rest := dropSign '-' rest
    return (← weekDate year week (← number (rest.take 1)), rest.drop 1)
  | rest =>
    -- three digits count the days of the year
    if rest.length < 3 then throw .malformed
    return (← yearDate year (← number (rest.take 3)), rest.drop 3)

/-! ## Times of day -/

/-- A time of day as numbers, and the zone if one is given. -/
structure Clock where
  hour : Int
  minute : Int
  second : Int
  micros : Int
  zone : Zone
  deriving DecidableEq, Repr

/-- Midnight without a zone. -/
def Clock.midnight : Clock := ⟨0, 0, 0, 0, .floating⟩

/-- A character that an offset starts with. -/
def startsOffset (cs : List Char) : Bool := cs.head?.any ['-', '+', 'Z', 'z'].contains

/-- The zone of an offset in hours, or hours and minutes. -/
def zone? (cs : List Char) : Option Zone := do
  if cs = ['Z'] || cs = ['z'] then return .utc
  if cs.length != 3 && cs.length != 5 && cs.length != 6 then none
  let negative ← match cs.head? with
    | some '-' => some true
    | some '+' => some false
    | _ => none
  let hours ← number? ((cs.drop 1).take 2)
  let minutes ← if cs.length = 3 then some 0 else number? (dropSign ':' (cs.drop 3))
  if hours = 0 && minutes = 0 then return .utc
  if 59 < minutes || 23 < hours then none
  let distance := hours * 60 + minutes
  let offset := if negative then -distance else distance
  if inDay : offset.natAbs < 1440 then some (.fixed offset inDay) else none

/-- The microseconds of a fraction of a second. -/
def microsOf (digits : List Char) : Int :=
  let digits := digits.take 6
  (number? (digits ++ List.replicate (6 - digits.length) '0')).getD 0

/-- A fraction of a second at the front, and what follows. -/
def fraction? : List Char → Option (Int × List Char)
  | [] => none
  | point :: rest =>
    let digits := rest.takeWhile fun c => '0' ≤ c && c ≤ '9'
    if (point = '.' || point = ',') && digits != [] then
      some (microsOf digits, rest.drop digits.length)
    else none

/-- What may still follow in a time of day. -/
inductive Stage where
  | hour
  | minute
  | second (colons : Bool)
  | fraction
  | offset

/-- The rest of a time of day, from a stage on. -/
def clockFrom? (c : Clock) : (fuel : Nat) → Stage → List Char → Option Clock
  | _, _, [] => some c
  | 0, _, _ => none
  | fuel + 1, stage, cs =>
    if startsOffset cs then (zone? cs).map fun zone => { c with zone }
    else match stage with
      | .hour => do
        clockFrom? { c with hour := ← number? (cs.take 2) } fuel .minute (cs.drop 2)
      | .minute => do
        let colons := cs.head? == some ':'
        let cs := dropSign ':' cs
        clockFrom? { c with minute := ← number? (cs.take 2) } fuel (.second colons) (cs.drop 2)
      | .second colons => do
        if colons && cs.head? != some ':' then none
        let cs := if colons then cs.drop 1 else cs
        clockFrom? { c with second := ← number? (cs.take 2) } fuel .fraction (cs.drop 2)
      | .fraction =>
        match fraction? cs with
        | some (micros, rest) => clockFrom? { c with micros } fuel .offset rest
        | none => none
      | .offset => none

/-- A time of day. -/
def clock? (cs : List Char) : Option Clock :=
  if cs.length < 2 then none else clockFrom? .midnight 5 .hour cs

/-! ## Date-times -/

/-- The end of a day, which is midnight of the next one. -/
def Clock.endsDay (c : Clock) : Bool := c.hour == 24

/-- The reading of a clock on a day. -/
def Clock.on? (c : Clock) (d : Date) : Option Moment := do
  if c.endsDay && (c.minute != 0 || c.second != 0 || c.micros != 0) then none
  let hour ← natural? (if c.endsDay then 0 else c.hour)
  let wall ← Wall.onClock? d hour (← natural? c.minute) (← natural? c.second)
  return { wall := ← wall.plus? c.micros, later := false, zone := c.zone }

/-- The day at the front, or the numbers that should name one, and what follows. -/
def dayOf (cs : List Char) : Except Error (Option Date × List Char) :=
  match fields? cs with
  | some (fields, rest) => .ok (fields.date?, rest)
  | none => (otherDate cs).map fun (date, rest) => (some date, rest)

/-- The date-time that a text names, without a zone if it names none. -/
def read (text : String) : Except Error Moment := do
  let cs := text.toList
  if cs.any fun c => 0x80 ≤ c.toNat then throw .malformed
  let (date, rest) ← dayOf cs
  match date, (if rest = [] then some .midnight else clock? (rest.drop 1)) with
  | some date, some clock =>
    match clock.on? date with
    | none => .error .malformed
    | some m =>
      if clock.endsDay then (m.plusDays 1).mapError fun _ => .outOfRange else .ok m
  | _, _ => .error .malformed

end EventCalendar.IsoText
