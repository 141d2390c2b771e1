/-
  EventCalendar.Ics.ContentLine

  The lines of a calendar document: a name, parameters and a value.  Long lines
  are folded over several lines of text, of which all but the first start with
  a blank.  Separators between double quotes do not count.
-/

import EventCalendar.Text.Blank
import EventCalendar.Text.Case
import EventCalendar.Text.Printable
import EventCalendar.Text.Split

namespace EventCalendar.Ics

open EventCalendar.Text

/-! ## Lines of text -/

/-- A line without the carriage return at its end. -/
def chop (line : List Char) : List Char :=
  if line.getLast? = some '\r' then line.dropLast else line

/-- The lines of a text; carriage returns before line ends do not count. -/
def textLines (cs : List Char) : List (List Char) :=
  let lines := splitAt '\n' cs
  lines.dropLast.map chop ++ lines.getLast?.toList

/-- A line, the lines that follow it joined to it as long as they start with a blank. -/
def unfoldFrom (line : List Char) : List (List Char) → List (List Char)
  | [] => [line]
  | (c :: more) :: rest =>
    if c = ' ' || c = '\t' then unfoldFrom (line ++ more) rest
    else line :: unfoldFrom (c :: more) rest
  | [] :: rest => unfoldFrom line rest

/-- The unfolded lines of a text, without the empty ones. -/
def unfold (cs : List Char) : List (List Char) :=
  match textLines cs with
  | [] => []
  | line :: rest => (unfoldFrom line rest).filter (· != [])

/-! ## Quotes -/

/-- The text before the first separator outside double quotes, and the rest from there on. -/
def spanOutside (isSeparator : Char → Bool) : (quoted : Bool) → List Char → List Char × List Char
  | _, [] => ([], [])
  | inside, c :: rest =>
    if !inside && isSeparator c then ([], c :: rest)
    else
      let (before, after) := spanOutside isSeparator (if c = '\x22' then !inside else inside) rest
      (c :: before, after)

/-- The parts of a text between separators outside double quotes. -/
def splitOutside (separator : Char) : (quoted : Bool) → List Char → List (List Char)
  | _, [] => [[]]
  | inside, c :: rest =>
    if !inside && c = separator then [] :: splitOutside separator false rest
    else match splitOutside separator (if c = '\x22' then !inside else inside) rest with
      | [] => [[c]]
      | part :: parts => (c :: part) :: parts

/-! ## Parameters -/

/-- A parameter: its name in capital letters and its values. -/
structure Parameter where
  name : String
  values : List String
  deriving DecidableEq, Repr

/-- A character of a name: a letter, a digit, an underscore, a hyphen or a point. -/
def isNameChar (c : Char) : Bool :=
  c.isAlphanum || c == '_' || c == '-' || c == '.' ||
    (0x80 ≤ c.toNat && isPrintable c && !isBlank c)

/-- A name is not empty. -/
def isName (cs : List Char) : Bool :=
  cs != [] && cs.all isNameChar

/-- A character that no value of a parameter holds. -/
def isControl (c : Char) : Bool :=
  (c.toNat < 0x20 && c != '\t') || c.toNat == 0x7F

/-- The characters that `^n`, `^^` and `^'` stand for. -/
def decodeCarets : List Char → List Char
  | '^' :: 'n' :: rest => '\n' :: decodeCarets rest
  | '^' :: '^' :: rest => '^' :: decodeCarets rest
  | '^' :: '\x27' :: rest => '\x22' :: decodeCarets rest
  | c :: rest => c :: decodeCarets rest
  | [] => []

/-- One value of a parameter, with or without quotes. -/
def parameterValue? (cs : List Char) : Option String :=
  if cs.head? = some '\x22' && cs.getLast? = some '\x22' then
    let inner := trimBy (· == '\x22') cs
    if inner.any fun c => isControl c || c == '\x22' then none
    else some (String.ofList (decodeCarets inner))
  else if cs.any fun c => isControl c || c == '\x22' || c == ',' || c == ':' || c == ';' then none
  else some (String.ofList (decodeCarets cs))

/-- A parameter from `NAME=value,value`. -/
def parameter? (cs : List Char) : Option Parameter :=
  match spanOutside (· == '=') false cs with
  | (_, []) => none
  | (name, _ :: values) =>
    if !isName name then none
    else match (splitOutside ',' false values).mapM parameterValue? with
      | none => none
      | some values => some { name := upper (String.ofList name), values }

/-! ## Content lines -/

/-- A line of a calendar document. -/
structure ContentLine where
  /-- The name in capital letters. -/
  name : String
  params : List Parameter
  value : String
  deriving DecidableEq, Repr

namespace ContentLine

/-- A line from its unfolded text. -/
def read? (cs : List Char) : Option ContentLine :=
  match spanOutside (fun c => c == ':' || c == ';') false cs with
  | (_, []) => none
  | (name, separator :: rest) =>
    if !isName name then none
    else
      let name := upper (String.ofList name)
      if separator = ':' then some { name, params := [], value := String.ofList rest }
      else
        let (params, value) := spanOutside (· == ':') false rest
        if params = [] then none
        else match (splitOutside ';' false params).mapM parameter? with
          | none => none
          | some params => some { name, params, value := String.ofList (value.drop 1) }

/-- The values of a parameter; the last parameter with a name counts. -/
def param? (line : ContentLine) (name : String) : Option (List String) :=
  (line.params.reverse.find? (·.name == name)).map (·.values)

end ContentLine

end EventCalendar.Ics
