/-
  EventCalendar.Ics.Property

  The values of properties: text with its escapes, dates and recurrence rules.
  A date or rule that is valid has one written form; any other value is kept
  as text.
-/

import EventCalendar.Ics.Component
import EventCalendar.Text.Integer
import EventCalendar.Time.Wall

namespace EventCalendar.Ics

open EventCalendar.Text EventCalendar.Time

/-! ## Text -/

/-- The text that escapes stand for. -/
def unescapeText : List Char → List Char
  | '\\' :: 'n' :: rest => '\n' :: unescapeText rest
  | '\\' :: 'N' :: rest => '\n' :: unescapeText rest
  | '\\' :: ',' :: rest => ',' :: unescapeText rest
  | '\\' :: ';' :: rest => ';' :: unescapeText rest
  | '\\' :: '\\' :: rest => '\\' :: unescapeText rest
  | c :: rest => c :: unescapeText rest
  | [] => []

/-- Text with escapes for what would end it. -/
def escapeText : List Char → List Char
  | [] => []
  | '\\' :: 'N' :: rest => '\\' :: 'n' :: escapeText rest
  | c :: rest =>
    (if c = '\\' || c = ';' || c = ',' then ['\\', c]
     else if c = '\n' then ['\\', 'n']
     else [c]) ++ escapeText rest

/-- A value that is kept as text. -/
def keptAsText (value : String) : String := String.ofList (escapeText value.toList)

/-! ## Dates -/

/-- The number that a field of a date holds. -/
def field? (cs : List Char) : Option Nat :=
  match readInteger (String.ofList cs) with
  | .ok n => if 0 ≤ n then some n.toNat else none
  | .error _ => none

/-- The day that eight characters name. -/
def day? (cs : List Char) : Option Date := do
  Date.of? (← field? (cs.take 4)) (← field? ((cs.drop 4).take 2)) (← field? ((cs.drop 6).take 2))

/-- A day in eight digits. -/
def dayText (d : Date) : String := padded 4 d.year ++ padded 2 d.month ++ padded 2 d.day

/-- The reading that fifteen characters name, of which the ninth parts day and time of day. -/
def reading? (cs : List Char) : Option Wall := do
  Wall.onClock? (← day? cs) (← field? ((cs.drop 9).take 2)) (← field? ((cs.drop 11).take 2))
    (← field? ((cs.drop 13).take 2))

/-- A reading in fifteen characters. -/
def readingText (w : Wall) : String :=
  let seconds := w.timeOfDay / 1000000
  dayText w.date ++ "T" ++ padded 2 (seconds / 3600) ++ padded 2 (seconds / 60 % 60) ++
    padded 2 (seconds % 60)

/-- A date in its written form. -/
inductive DateValue where
  | day (text : String)
  | local (text : String)
  | universal (text : String)
  deriving DecidableEq, Repr

/-- The date that a value names. -/
def DateValue.read? (value : String) : Option DateValue :=
  let cs := value.toList
  if cs.length = 8 then (day? cs).map fun d => .day (dayText d)
  else if cs.length = 15 then (reading? cs).map fun w => .local (readingText w)
  else if cs.length = 16 && cs.getLast? = some 'Z' then
    (reading? (cs.take 15)).map fun w => .universal (readingText w ++ "Z")
  else none

/-- The written form. -/
def DateValue.text : DateValue → String
  | .day text | .local text | .universal text => text

/-- A date as a record gives it: a token, and the zone named beside it. -/
structure DateProperty where
  token : String
  zone : Option String
  deriving DecidableEq, Repr

/-- Names of universal time. -/
def universalNames : List String := ["UTC", "GMT"]

/-- The date of a line.  A time in universal time says so itself. -/
def DateProperty.ofLine (line : ContentLine) : DateProperty :=
  let zone := (line.param? "TZID").map fun values => values.headD ""
  match DateValue.read? line.value with
  | none => { token := keptAsText line.value, zone }
  | some (.day text) => { token := text, zone }
  | some (.universal text) => { token := text, zone := none }
  | some (.local text) =>
    -- the token itself then tells the zone
    if zone.any universalNames.contains then { token := text ++ "Z", zone }
    else { token := text, zone }

/-- The date of a property.  Of several lines the first counts, without its zone. -/
def Component.date? (c : Component) (name : String) : Option DateProperty :=
  match c.named name with
  | [] => none
  | [line] => some (.ofLine line)
  | line :: _ => some { DateProperty.ofLine line with zone := none }

/-! ## Recurrence rules -/

/-- What the values of a part of a rule are. -/
inductive PartKind where
  | frequency
  | date
  | number
  | weekday
  | month
  | text
  deriving DecidableEq, Repr

/-- The parts of a rule in their order, with the kind of their values. -/
def partKinds : List (String × PartKind) :=
  [("RSCALE", .text), ("FREQ", .frequency), ("UNTIL", .date), ("COUNT", .number),
   ("INTERVAL", .number), ("BYSECOND", .number), ("BYMINUTE", .number), ("BYHOUR", .number),
   ("BYDAY", .weekday), ("BYWEEKDAY", .number), ("BYMONTHDAY", .number), ("BYYEARDAY", .number),
   ("BYWEEKNO", .number), ("BYMONTH", .month), ("BYSETPOS", .number), ("WKST", .weekday),
   ("SKIP", .text)]

/-- The frequencies of rules. -/
def frequencies : List String :=
  ["SECONDLY", "MINUTELY", "HOURLY", "DAILY", "WEEKLY", "MONTHLY", "YEARLY"]

/-- A whole number in its written form. -/
def numberText? (value : String) : Option String :=
  match readInteger value with
  | .ok n => some (toString n)
  | .error _ => none

/-- A weekday with its ordinal, in capital letters. -/
def weekdayText? (value : String) : Option String :=
  let cs := value.toList
  let unsigned := if cs.head? = some '+' || cs.head? = some '-' then cs.drop 1 else cs
  let ordinal := unsigned.take (unsigned.length - 2)
  let day := upper (String.ofList (unsigned.drop (unsigned.length - 2)))
  if ordinal.length ≤ 2 && ordinal.all isDecimal &&
      ["SU", "MO", "TU", "WE", "TH", "FR", "SA"].contains day then some (upper value)
  else none

/-- A value of a part in its written form. -/
def PartKind.text? (kind : PartKind) (value : String) : Option String :=
  match kind with
  | .frequency => if frequencies.contains (upper value) then some (upper value) else none
  | .date => (DateValue.read? value).map DateValue.text
  | .number => numberText? value
  | .weekday => weekdayText? value
  | .month =>
    if value.endsWith "L" then (numberText? (value.dropEnd 1).toString).map (· ++ "L")
    else numberText? value
  | .text => some (keptAsText (String.ofList (unescapeText value.toList)))

/-- A part of a rule: its key in capital letters, and its values in their written form. -/
def rulePart? (key value : List Char) : Option (String × String) :=
  let key := upper (String.ofList key)
  let kind := (partKinds.lookup key).getD .text
  let texts := (splitAt ',' value).mapM fun v => kind.text? (String.ofList v)
  texts.map fun texts => (key, String.intercalate "," texts)

/-- The parts of a rule that have a key and a value. -/
def keyedParts (value : List Char) : List (List Char × List Char) :=
  (splitAt ';' value).filterMap fun part =>
    match splitAt '=' part with
    | [key, value] => some (key, value)
    | _ => none

/-- The parts by key; the last part with a key counts. -/
def lastParts (parts : List (String × String)) : List (String × String) :=
  parts.foldl (fun kept part => kept.filter (·.1 != part.1) ++ [part]) []

/-- The written form of a rule: known parts in their order, then the others by their keys. -/
def ruleText (parts : List (String × String)) : String :=
  let known := (partKinds.map (·.1)).filterMap fun key => parts.find? (·.1 == key)
  let others := (parts.filter fun part => (partKinds.lookup part.1).isNone).mergeSort
    fun a b => a.1 ≤ b.1
  String.intercalate ";" ((known ++ others).map fun (key, value) => key ++ "=" ++ value)

/-- The rule of a line. If one part is not valid, the whole value is kept as text. -/
def ruleOfLine (line : ContentLine) : String :=
  match (keyedParts line.value.toList).mapM fun (key, value) => rulePart? key value with
  | none => keptAsText line.value
  | some parts => ruleText (lastParts parts)

/-! ## Other properties -/

/-- The two hexadecimal digits of a byte between quotes. -/
def byteText (b : UInt8) : List Char :=
  let n := b.toNat
  if n == 0x0A then ['\\', 'n']
  else if n == 0x0D then ['\\', 'r']
  else if n == 0x09 then ['\\', 't']
  else if n == 0x5C then ['\\', '\\']
  else if 0x20 ≤ n && n < 0x7F then [Char.ofNat n]
  else '\\' :: 'x' :: hexDigits 2 n

/-- The bytes of a text between quotes. -/
def bytesText (s : String) : String :=
  let mark := quoteMark s.toList
  let shown := s.toUTF8.toList.flatMap fun b =>
    if Char.ofNat b.toNat == mark then ['\\', mark] else byteText b
  "b" ++ String.ofList (mark :: shown ++ [mark])

/-- The text of a property; several texts are shown as a list. -/
def Component.text? (c : Component) (name : String) : Option String :=
  let texts := (c.named name).map fun line => String.ofList (unescapeText line.value.toList)
  match texts with
  | [] => none
  | [text] => some text
  | texts =>
    some ("[" ++ String.intercalate ", "
      (texts.map fun t => "vText(" ++ bytesText (keptAsText t) ++ ")") ++ "]")

/-- The address of a person: a value, and the name given with it. -/
structure Address where
  value : String
  name : Option String
  deriving DecidableEq, Repr

/-- The address of a line. -/
def Address.ofLine (line : ContentLine) : Address where
  value := line.value
  name :=
    match line.param? "CN" with
    | none => none
    | some [name] => some name
    | some names => some ("[" ++ String.intercalate ", " (names.map quoted) ++ "]")

/-- The address of a property; several addresses are shown as a list. -/
def Component.address? (c : Component) (name : String) : Option Address :=
  match c.named name with
  | [] => none
  | [line] => some (.ofLine line)
  | lines =>
    some { value := "[" ++ String.intercalate ", "
             (lines.map fun l => "vCalAddress('" ++ l.value ++ "')") ++ "]"
           name := none }

end EventCalendar.Ics
