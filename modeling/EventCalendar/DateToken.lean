/-
  EventCalendar.DateToken

  The three forms in which calendar data gives dates: a day (`20240623`), a day
  and a time of day, and the same with a `Z` for universal time.  Each field
  has one or two digits, tried in order; the first division of the text into
  fields counts.
-/

import EventCalendar.Text.Digit
import EventCalendar.Text.Integer
import EventCalendar.Time.Moment
import EventCalendar.Zone.Names

namespace EventCalendar

open EventCalendar.Text EventCalendar.Time

/-! ## Forms and failures -/

/-- The form of a date token. -/
inductive DateToken.Form where
  | day
  | local
  | universal
  deriving DecidableEq, Repr

/-- Why a token does not name a date. -/
inductive DateToken.Error where
  /-- The token is blank. -/
  | empty
  /-- The token has none of the three forms. -/
  | unsupported (value : String)
  /-- The digits cannot be divided into fields. -/
  | mismatch (value : String) (form : DateToken.Form)
  /-- The fields end before the text does. -/
  | unconverted (rest : String)
  /-- The year is 0. -/
  | yearZero
  /-- The month is shorter. -/
  | dayOutOfRange
  /-- The second is a leap second. -/
  | secondOutOfRange
  deriving DecidableEq, Repr

namespace DateToken

/-- The pattern of a form, as it stands in messages. -/
def Form.pattern : Form → String
  | .day => "%Y%m%d"
  | .local => "%Y%m%dT%H%M%S"
  | .universal => "%Y%m%dT%H%M%SZ"

/-- The wording of a failure. -/
def Error.message : Error → String
  | .empty => "Empty date token"
  | .unsupported value => s!"Unsupported date token: {quoted value}"
  | .mismatch value form =>
    s!"time data {quoted value} does not match format {quoted form.pattern}"
  | .unconverted rest => s!"unconverted data remains: {rest}"
  | .yearZero => "year 0 is out of range"
  | .dayOutOfRange => "day is out of range for month"
  | .secondOutOfRange => "second must be in 0..59"

/-! ## Fields -/

/-- A place for one digit: an ASCII digit from `low` to `high`, or any decimal digit. -/
inductive Place where
  | between (low high : Nat)
  | any
  deriving DecidableEq, Repr

/-- The digit at a place. -/
def Place.digit? (p : Place) (c : Char) : Option Nat :=
  match p with
  | .between low high =>
    if 0x30 + low ≤ c.toNat ∧ c.toNat ≤ 0x30 + high then some (c.toNat - 0x30) else none
  | .any => decimalValue? c

/-- A piece of a pattern: a letter, or a number whose digits have one of several layouts. -/
inductive Piece where
  | letter (c : Char)
  | number (layouts : List (List Place))
  deriving Repr

/-- A year: four digits. -/
def yearField : Piece := .number [[.any, .any, .any, .any]]

/-- A month: 10 to 12, 01 to 09, 1 to 9. -/
def monthField : Piece :=
  .number [[.between 1 1, .between 0 2], [.between 0 0, .between 1 9], [.between 1 9]]

/-- A day: 30 and 31, 10 to 29, 01 to 09, 1 to 9. -/
def dayField : Piece :=
  .number [[.between 3 3, .between 0 1], [.between 1 2, .any], [.between 0 0, .between 1 9],
    [.between 1 9]]

/-- An hour: 20 to 23, 00 to 19, any digit. -/
def hourField : Piece := .number [[.between 2 2, .between 0 3], [.between 0 1, .any], [.any]]

/-- A minute: 00 to 59, any digit. -/
def minuteField : Piece := .number [[.between 0 5, .any], [.any]]

/-- A second: 60 and 61, 00 to 59, any digit. -/
def secondField : Piece := .number [[.between 6 6, .between 0 1], [.between 0 5, .any], [.any]]

/-- The pieces of a form. -/
def Form.pieces : Form → List Piece
  | .day => [yearField, monthField, dayField]
  | .local =>
    [yearField, monthField, dayField, .letter 'T', hourField, minuteField, secondField]
  | .universal =>
    [yearField, monthField, dayField, .letter 'T', hourField, minuteField, secondField,
      .letter 'Z']

/-- The digits of a layout at the front of a text, and what follows them. -/
def readLayout : List Place → List Char → Option (List Nat × List Char)
  | [], cs => some ([], cs)
  | _ :: _, [] => none
  | p :: ps, c :: cs =>
    match p.digit? c, readLayout ps cs with
    | some d, some (ds, rest) => some (d :: ds, rest)
    | _, _ => none

/-- All divisions of the front of a text into pieces: the numbers and what follows, the divisions
    that come first in the layouts first. -/
def divisions : List Piece → List Char → List (List Nat × List Char)
  | [], cs => [([], cs)]
  | .letter _ :: _, [] => []
  | .letter l :: ps, c :: cs => if c = l then divisions ps cs else []
  | .number layouts :: ps, cs =>
    (layouts.filterMap (readLayout · cs)).flatMap fun (digits, rest) =>
      (divisions ps rest).map fun (ns, rest) => (decimalNumber digits :: ns, rest)

/-! ## Reading -/

/-- The wall-clock reading with these fields. -/
def ofFields (y m d hour minute second : Nat) : Except Error Wall :=
  if y = 0 then .error .yearZero
  else match Date.of? y m d with
    | none => .error .dayOutOfRange
    | some date =>
      match Wall.onClock? date hour minute second with
      | none => .error .secondOutOfRange
      | some wall => .ok wall

/-- Reads a text of a form. -/
def readForm (form : Form) (value : String) : Except Error Wall :=
  -- a later division is not tried, even if it leaves no rest
  match divisions form.pieces value.toList with
  | [] => .error (.mismatch value form)
  | (_, c :: rest) :: _ => .error (.unconverted (String.ofList (c :: rest)))
  | ([y, m, d, hour, minute, second], []) :: _ => ofFields y m d hour minute second
  | ([y, m, d], []) :: _ => ofFields y m d 0 0 0
  | (_, []) :: _ => .error (.mismatch value form)

/-- Eight decimal digits, alone or before a `T`, six more digits and perhaps a `Z`. -/
def hasForm (cs : List Char) : Bool :=
  let digits := (cs.take 8)
  digits.length == 8 && digits.all isDecimal &&
    match cs.drop 8 with
    | [] => true
    | 'T' :: rest =>
      let digits := rest.take 6
      digits.length == 6 && digits.all isDecimal && (rest.drop 6 == [] || rest.drop 6 == ['Z'])
    | _ => false

/-- A token names a day without a time of day: it has at most eight characters. -/
def isDay (token : String) : Bool :=
  (trim token).length ≤ 8

/-- The zone that a token names in front of its value, and the value. -/
def splitZone (token : String) : Option String × String :=
  let cs := token.toList
  if "TZID=".toList.isPrefixOf cs then
    let tail := cs.reverse.takeWhile (· != ':')
    -- without a colon the name is empty and the value is the whole token
    if tail.length = cs.length then (some "", token)
    else
      (some (trim (String.ofList ((cs.take (cs.length - tail.length - 1)).drop 5))),
        String.ofList tail.reverse)
  else (none, token)

/-! ## Reader -/

/-- Reads tokens, with a zone for those that name none. -/
structure Reader where
  defaultZone : String
  deriving DecidableEq, Repr

namespace Reader

/-- A reader with a zone to start from, universal time where the zone is left out. -/
def withZone (zone : Option String) : Reader :=
  match zone with
  | some name => ⟨if name = "" then Zone.defaultName else name⟩
  | none => ⟨Zone.defaultName⟩

/-- Looks the reader's own zone up. -/
def ownZone {ε : Type} (r : Reader) : Traced ε Zone :=
  Zone.look ⟨some r.defaultZone, none⟩

/-- The first of two zone names that is given and not empty. -/
def firstName (a b : Option String) : Option String :=
  match a with
  | some name => if name = "" then b else some name
  | none => b

/-- A name that is given and not empty. -/
def givenName (a : Option String) : Option String :=
  a.filter (· != "")

/-- Reads a day, as midnight in the reader's own zone. -/
def readDay (r : Reader) (token : String) : Traced Error Moment := do
  let value := trim token
  if value.length ≠ 8 || !isDigits value then throw (.unsupported value)
  let wall ← Traced.ofExcept (readForm .day value)
  let zone ← r.ownZone
  return { wall, later := false, zone }

/-- Reads a token; the zone beside it goes before the one in front of its value. -/
def read (r : Reader) (token : String) (zone : Option String) : Traced Error Moment := do
  if isBlankText token then throw .empty
  let (inner, value) := splitZone (trim token)
  if !hasForm value.toList then throw (.unsupported value)
  if isDay value then r.readDay value
  else if value.endsWith "Z" then
    let wall ← Traced.ofExcept (readForm .universal value)
    return { wall, later := false, zone := .utc }
  else
    let wall ← Traced.ofExcept (readForm .local value)
    let zone ← match givenName (firstName zone inner) with
      | some name => Zone.look ⟨some name, some r.defaultZone⟩
      | none => r.ownZone
    return { wall, later := false, zone }

end Reader

end DateToken

end EventCalendar
