/-
  EventCalendar.Yaml.Scalar

  The values that plain scalars stand for: null, truth values, whole numbers
  and numbers with a point in several notations, days and times.  Every other
  plain scalar is text.
-/

import EventCalendar.Text.Integer
import EventCalendar.Text.Split
import EventCalendar.Value

namespace EventCalendar.Yaml

open EventCalendar.Number EventCalendar.Text EventCalendar.Time

/-! ## Words -/

/-- The ways to write null. -/
def nullWords : List String := ["", "~", "null", "Null", "NULL"]

/-- The ways to write true. -/
def trueWords : List String :=
  ["yes", "Yes", "YES", "true", "True", "TRUE", "on", "On", "ON"]

/-- The ways to write false. -/
def falseWords : List String :=
  ["no", "No", "NO", "false", "False", "FALSE", "off", "Off", "OFF"]

/-- The ways to write infinity, without its sign. -/
def infinityWords : List String := [".inf", ".Inf", ".INF"]

/-- The ways to write what is not a number. -/
def nanWords : List String := [".nan", ".NaN", ".NAN"]

/-! ## Digits -/

/-- A digit of ordinary notation. -/
def isPlainDigit (c : Char) : Bool := '0' ≤ c && c ≤ '9'

/-- The value of a digit in notations up to the hexadecimal one. -/
def digitValue? (c : Char) : Option Nat :=
  if isPlainDigit c then some (c.toNat - 0x30)
  else if 'a' ≤ c && c ≤ 'f' then some (c.toNat - 0x61 + 10)
  else if 'A' ≤ c && c ≤ 'F' then some (c.toNat - 0x41 + 10)
  else none

/-- The number that digits of a base stand for; underscores between them do not count. -/
def inBase? (base : Nat) (cs : List Char) : Option Nat :=
  let digits := cs.filter (· != '_')
  if digits = [] then none
  else digits.foldlM (fun n c => (digitValue? c).bind fun d =>
    if d < base then some (base * n + d) else none) 0

/-- A place of base sixty: one digit, or two of which the first is below six. -/
def isPlace : List Char → Bool
  | [d] => isPlainDigit d
  | [d, d'] => '0' ≤ d && d ≤ '5' && isPlainDigit d'
  | _ => false

/-- A number with two or more places of base sixty and colons between them. -/
def baseSixty? (cs : List Char) : Option Nat :=
  match splitAt ':' cs with
  | first :: place :: places =>
    if (place :: places).all isPlace then do
      let first ← inBase? 10 first
      let places ← (place :: places).mapM (inBase? 10)
      return places.foldl (fun n p => 60 * n + p) first
    else none
  | _ => none

/-! ## Numbers -/

/-- A whole number without its sign. -/
def whole? (cs : List Char) : Option Nat :=
  match cs with
  | ['0'] => some 0
  | '0' :: 'b' :: rest => inBase? 2 rest
  | '0' :: 'x' :: rest => inBase? 16 rest
  | '0' :: rest => inBase? 8 ('0' :: rest)
  | '_' :: _ => none
  | cs => (inBase? 10 cs).or (baseSixty? cs)

/-- The power of ten after a fraction: none, or `e` with a sign and digits. -/
def power? : List Char → Option Int
  | [] => some 0
  | e :: sign :: digits =>
    if (e = 'e' || e = 'E') && (sign = '+' || sign = '-') && digits.all isPlainDigit then
      (inBase? 10 digits).map fun n => if sign = '-' then -(n : Int) else n
    else none
  | _ => none

/-- A number with a point, without its sign. -/
def fraction? (negative signed : Bool) (cs : List Char) : Option Binary64 :=
  match splitFirst '.' cs with
  | (_, none) => none
  | (front, some back) =>
    let isFraction (c : Char) : Bool := isPlainDigit c || c == '_'
    let digits := (back.takeWhile isFraction).filter (· != '_')
    let value (whole : Nat) (power : Int) : Binary64 :=
      .ofDecimal negative (whole * tenTo digits.length + (inBase? 10 digits).getD 0)
        (power - digits.length)
    let power := power? (back.dropWhile isFraction)
    if front = [] then
      if signed || back.head? = some '_' || digits = [] then none else power.map (value 0)
    else if front.head? = some '_' then none
    else match inBase? 10 front with
      | some whole => power.map (value whole)
      | none =>
        if back.all isFraction then (baseSixty? front).map (value · 0) else none

/-- A decimal number of more digits than are read. -/
def isTooLong (s : String) : Bool :=
  let (_, body) := splitSign s.toList
  body.head?.any (fun c => isPlainDigit c && c != '0') &&
    body.all (fun c => isPlainDigit c || c == '_') &&
    integerDigitLimit < (body.filter isPlainDigit).length

/-- The number that a plain scalar stands for. -/
def number? (s : String) : Option Value :=
  let (negative, body) := splitSign s.toList
  let signed := body.length < s.length
  if infinityWords.contains (String.ofList body) then some (.float (.infinite negative))
  else if nanWords.contains s then some (.float .nan)
  else match whole? body with
    | some n => some (.int (if negative then -(n : Int) else n))
    | none => (fraction? negative signed body).map .float

/-! ## Days and times -/

/-- A number of `least` to `most` digits at the front, and what follows it. -/
def digits? (least most : Nat) (cs : List Char) : Option (Nat × List Char) :=
  let front := cs.takeWhile isPlainDigit
  if least ≤ front.length && front.length ≤ most then
    (inBase? 10 front).map (·, cs.drop front.length)
  else none

/-- What follows a character at the front. -/
def behind? (sign : Char) : List Char → Option (List Char)
  | [] => none
  | c :: rest => if c == sign then some rest else none

/-- A blank between the parts of a time. -/
def isSpacing (c : Char) : Bool := c == ' ' || c == '\t'

/-- Year, month and day with dashes between them, and what follows. -/
def dayNumbers? (cs : List Char) : Option ((Nat × Nat × Nat) × List Char) := do
  let (year, cs) ← digits? 4 4 cs
  let (month, cs) ← digits? 1 2 (← behind? '-' cs)
  let (day, cs) ← digits? 1 2 (← behind? '-' cs)
  return ((year, month, day), cs)

/-- What follows the letter or the blanks between a day and the time on it. -/
def timePart? : List Char → Option (List Char)
  | [] => none
  | c :: rest =>
    if c == 'T' || c == 't' then some rest
    else if isSpacing c then some (rest.dropWhile isSpacing)
    else none

/-- Hour, minute, second and microseconds, and what follows.  Of a fraction six digits count. -/
def clockNumbers? (cs : List Char) : Option ((Nat × Nat × Nat × Nat) × List Char) := do
  let (hour, cs) ← digits? 1 2 cs
  let (minute, cs) ← digits? 2 2 (← behind? ':' cs)
  let (second, cs) ← digits? 2 2 (← behind? ':' cs)
  match cs with
  | '.' :: cs =>
    let fraction := cs.takeWhile isPlainDigit
    let micros ← inBase? 10 ((fraction ++ List.replicate 6 '0').take 6)
    return ((hour, minute, second, micros), cs.drop fraction.length)
  | cs => return ((hour, minute, second, 0), cs)

/-- The minutes ahead of universal time: `Z`, or a sign and hours, or hours and minutes. -/
def minutesAhead? : List Char → Option Int
  | ['Z'] => some 0
  | sign :: cs => do
    if sign != '+' && sign != '-' then none
    let (hours, cs) ← digits? 1 2 cs
    let (minutes, cs) ← if cs = [] then some (0, []) else digits? 2 2 (← behind? ':' cs)
    if cs != [] then none
    let ahead : Int := 60 * hours + minutes
    return if sign = '-' then -ahead else ahead
  | [] => none

/-- The day or the time that a plain scalar stands for, if it has the form of one; there is none
    that the calendar or the clock does not show. -/
def stamp? (s : String) : Option (Option Stamp) := do
  let ((year, month, day), rest) ← dayNumbers? s.toList
  if rest = [] then
    -- a day that stands alone has two digits for the month and two for the day
    if s.length = 10 then some ((Date.of? year month day).map .day) else none
  else
    let ((hour, minute, second, micros), rest) ← clockNumbers? (← timePart? rest)
    let ahead ← if rest = [] then some none else
      (minutesAhead? (rest.dropWhile isSpacing)).map some
    return do
      let date ← Date.of? year month day
      let reading ← (Wall.onClock? date hour minute second).bind (·.plus? micros)
      match ahead with
      | none => return .time reading none
      | some minutes => return .time reading (some (← ClockOffset.of? minutes))

/-! ## Plain scalars -/

/-- The value that a plain scalar stands for, unless it stands for a number that is too long or for
    a day or a time that there is not. -/
def plainValue (s : String) : Option Value :=
  if nullWords.contains s then some .null
  else if trueWords.contains s then some (.bool true)
  else if falseWords.contains s then some (.bool false)
  else if isTooLong s then none
  else match number? s, stamp? s with
    | some n, _ => some n
    | none, some stamp => stamp.map .stamp
    | none, none => some (.text s)

end EventCalendar.Yaml
