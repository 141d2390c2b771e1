/-
  EventCalendar.Text.Integer

  Reading whole numbers: padding at both ends, a sign, decimal digits of any
  script, and single underscores between two digits.  A number of more than
  4300 digits is refused.
-/

import EventCalendar.Text.Blank
import EventCalendar.Text.Digit
import EventCalendar.Text.Quoted

namespace EventCalendar.Text

/-! ## What can go wrong -/

/-- Why a text is not read as a whole number. -/
inductive IntegerError where
  /-- The text is not a whole number. -/
  | malformed (text : String)
  /-- The bytes do not spell a whole number. -/
  | malformedBytes (bytes : List UInt8)
  /-- The text starts with more digits than are read. -/
  | tooLong (digits : Nat)
  deriving DecidableEq, Repr

/-- The longest number that is read, in digits. -/
def integerDigitLimit : Nat := 4300

/-- The wording of a refusal. -/
def IntegerError.message : IntegerError → String
  | .malformed text => s!"invalid literal for int() with base 10: {quoted text}"
  | .malformedBytes bytes => s!"invalid literal for int() with base 10: {quotedBytes bytes}"
  | .tooLong digits =>
    s!"Exceeds the limit ({integerDigitLimit} digits) for integer string conversion: value has " ++
      s!"{digits} digits; use sys.set_int_max_str_digits() to increase the limit"

/-! ## Reading -/

/-- Blanks that may surround a number: all but the separators U+001C..U+001F. -/
def isPadding (c : Char) : Bool :=
  isBlank c && !(0x1C ≤ c.toNat && c.toNat ≤ 0x1F)

/-- Digits, with at most one underscore between each two of them. -/
def isDigitRun : List Char → Bool
  | [] => false
  | [c] => isDecimal c
  | c :: '_' :: rest => isDecimal c && isDigitRun rest
  | c :: rest => isDecimal c && isDigitRun rest

/-- The number that a row of decimal digits stands for. -/
def decimalNumber (digits : List Nat) : Nat :=
  digits.foldl (fun n d => 10 * n + d) 0

/-- A sign and what follows it. -/
def splitSign : List Char → Bool × List Char
  | '-' :: rest => (true, rest)
  | '+' :: rest => (false, rest)
  | rest => (false, rest)

/-- The whole number that a text stands for. -/
def readInteger (s : String) : Except IntegerError Int :=
  let (negative, body) := splitSign (trimBy isPadding s.toList)
  let run := body.takeWhile fun c => isDecimal c || c == '_'
  let digits := run.filterMap decimalValue?
  if !isDigitRun run then .error (.malformed s)
  else if integerDigitLimit < digits.length then .error (.tooLong digits.length)
  else if run.length < body.length then .error (.malformed s)
  else if negative then .ok (-(decimalNumber digits : Int))
  else .ok (decimalNumber digits)

/-- The whole number that bytes spell in ASCII. -/
def readBytes (bytes : List UInt8) : Except IntegerError Int :=
  match readInteger (String.ofList (bytes.map asciiChar)) with
  | .error (.malformed _) => .error (.malformedBytes bytes)
  | result => result

end EventCalendar.Text
