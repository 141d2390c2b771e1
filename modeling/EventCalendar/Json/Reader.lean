/-
  EventCalendar.Json.Reader

  Reading JSON text.  A number with a point or an exponent is a binary64
  number, any other is whole.  Of two entries with one key the last counts, in
  the place of the first.
-/

import EventCalendar.Text.Integer
import EventCalendar.Value

namespace EventCalendar.Json

open EventCalendar.Number EventCalendar.Text

/-! ## Entries -/

/-- Entries with one more, which replaces the value under its key if there is one. -/
def putEntry (key : String) (value : Value) : List (Value × Value) → List (Value × Value)
  | [] => [(.text key, value)]
  | (.text k, v) :: rest =>
    if k == key then (.text k, value) :: rest else (.text k, v) :: putEntry key value rest
  | entry :: rest => entry :: putEntry key value rest

/-! ## Parts -/

/-- What follows the blanks at the front. -/
def skipBlanks (cs : List Char) : List Char :=
  cs.dropWhile fun c => c == ' ' || c == '\n' || c == '\r' || c == '\t'

/-- The value of a hexadecimal digit. -/
def hexValue? (c : Char) : Option Nat :=
  if '0' ≤ c ∧ c ≤ '9' then some (c.toNat - 0x30)
  else if 'a' ≤ c ∧ c ≤ 'f' then some (c.toNat - 0x61 + 10)
  else if 'A' ≤ c ∧ c ≤ 'F' then some (c.toNat - 0x41 + 10)
  else none

/-- Four hexadecimal digits at the front, and what follows. -/
def hexFour? : List Char → Option (Nat × List Char)
  | a :: b :: c :: d :: rest =>
    match hexValue? a, hexValue? b, hexValue? c, hexValue? d with
    | some a, some b, some c, some d => some (((a * 16 + b) * 16 + c) * 16 + d, rest)
    | _, _, _, _ => none
  | _ => none

/-- The character behind `\u`, from one escape or a surrogate pair, and what follows. -/
def escaped? (cs : List Char) : Option (Char × List Char) :=
  match hexFour? cs with
  | none => none
  | some (high, rest) =>
    if 0xD800 ≤ high ∧ high < 0xDC00 then
      match rest with
      | '\\' :: 'u' :: more =>
        match hexFour? more with
        | some (low, rest') =>
          if 0xDC00 ≤ low ∧ low < 0xE000 then
            some (Char.ofNat (0x10000 + (high - 0xD800) * 0x400 + (low - 0xDC00)), rest')
          else some (Char.ofNat 0xFFFD, rest)
        | none => none
      | _ => some (Char.ofNat 0xFFFD, rest)
    else some (Char.ofNat high, rest)

/-- The rest of a string after its opening quote, and what follows the closing one. -/
def readString : (fuel : Nat) → List Char → Option (List Char × List Char)
  | 0, _ => none
  | _ + 1, [] => none
  | _ + 1, '\x22' :: rest => some ([], rest)
  | fuel + 1, '\\' :: c :: rest =>
    let next : Option (Char × List Char) :=
      match c with
      | 'n' => some ('\n', rest)
      | 't' => some ('\t', rest)
      | 'r' => some ('\r', rest)
      | 'b' => some (Char.ofNat 0x08, rest)
      | 'f' => some (Char.ofNat 0x0C, rest)
      | 'u' => escaped? rest
      | c => some (c, rest)
    match next with
    | none => none
    | some (c, rest) => (readString fuel rest).map fun (cs, rest) => (c :: cs, rest)
  | fuel + 1, c :: rest => (readString fuel rest).map fun (cs, rest) => (c :: cs, rest)

/-- The number that a text of digits, sign, point and exponent stands for. -/
def number? (cs : List Char) : Option Value :=
  let (negative, body) := splitSign cs
  let whole := body.takeWhile isDecimal
  let rest := body.drop whole.length
  let (fraction, rest) :=
    match rest with
    | '.' :: more => (more.takeWhile isDecimal, more.dropWhile isDecimal)
    | _ => ([], rest)
  let digits := decimalNumber ((whole ++ fraction).filterMap decimalValue?)
  match rest with
  | [] =>
    if whole = [] then none
    else if body.length = whole.length then
      some (.int (if negative then -(digits : Int) else digits))
    else some (.float (Binary64.ofDecimal negative digits (-(fraction.length : Int))))
  | _ :: power =>
    match readInteger (String.ofList power) with
    | .ok power => some (.float (Binary64.ofDecimal negative digits (power - fraction.length)))
    | .error _ => none

/-! ## Values -/

mutual

/-- A value at the front, and what follows it. -/
def readValue : (fuel : Nat) → List Char → Option (Value × List Char)
  | 0, _ => none
  | fuel + 1, cs =>
    match skipBlanks cs with
    | '\x22' :: rest =>
      (readString (rest.length + 1) rest).map fun (s, rest) => (.text (String.ofList s), rest)
    | '[' :: rest =>
      match skipBlanks rest with
      | ']' :: rest => some (.list [], rest)
      | _ => (readItems fuel rest).map fun (items, rest) => (.list items, rest)
    | '\x7b' :: rest =>
      match skipBlanks rest with
      | '\x7d' :: rest => some (.map [], rest)
      | _ => (readEntries fuel [] rest).map fun (entries, rest) => (.map entries, rest)
    | 't' :: 'r' :: 'u' :: 'e' :: rest => some (.bool true, rest)
    | 'f' :: 'a' :: 'l' :: 's' :: 'e' :: rest => some (.bool false, rest)
    | 'n' :: 'u' :: 'l' :: 'l' :: rest => some (.null, rest)
    | cs =>
      let isPart (c : Char) := c.isDigit || c == '-' || c == '+' || c == '.' || c == 'e' || c == 'E'
      (number? (cs.takeWhile isPart)).map fun v => (v, cs.dropWhile isPart)

/-- The items of a list after its opening bracket, and what follows the closing one. -/
def readItems : (fuel : Nat) → List Char → Option (List Value × List Char)
  | 0, _ => none
  | fuel + 1, cs =>
    match readValue fuel cs with
    | none => none
    | some (v, rest) =>
      match skipBlanks rest with
      | ']' :: rest => some ([v], rest)
      | ',' :: rest => (readItems fuel rest).map fun (items, rest) => (v :: items, rest)
      | _ => none

/-- The entries of an object, with those that precede them, and what follows the closing bracket. -/
def readEntries : (fuel : Nat) → List (Value × Value) → List Char →
    Option (List (Value × Value) × List Char)
  | 0, _, _ => none
  | fuel + 1, before, cs =>
    match readValue fuel cs with
    | some (.text key, rest) =>
      match skipBlanks rest with
      | ':' :: rest =>
        match readValue fuel rest with
        | none => none
        | some (v, rest) =>
          match skipBlanks rest with
          | '\x7d' :: rest => some (putEntry key v before, rest)
          | ',' :: rest => readEntries fuel (putEntry key v before) rest
          | _ => none
      | _ => none
    | _ => none

end

/-- The value that a text stands for. -/
def read? (s : String) : Option Value :=
  match readValue (s.length + 1) s.toList with
  | some (v, rest) => if skipBlanks rest = [] then some v else none
  | none => none

end EventCalendar.Json
