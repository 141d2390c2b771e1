/-
  EventCalendar.Value

  Values of configuration files and of loosely typed fields, and their two
  texts: the written form, which shows the kind of a value, and the plain form.
-/

import EventCalendar.Number.Shortest
import EventCalendar.Stamp
import EventCalendar.Text.Integer

namespace EventCalendar

open EventCalendar.Number EventCalendar.Text

/-! ## Values -/

/-- A value of no fixed type. Entries of a map keep their order. -/
inductive Value where
  | null
  | bool (value : Bool)
  | int (value : Int)
  | float (value : Binary64)
  | text (value : String)
  | bytes (value : List UInt8)
  | stamp (value : Stamp)
  | list (items : List Value)
  | map (entries : List (Value × Value))
  deriving Repr

namespace Value

instance : Inhabited Value := ⟨.null⟩

/-! ## Texts -/

/-- Texts with a comma and a space between each two. -/
def commaSeparated (items : List String) : String :=
  String.intercalate ", " items

mutual

/-- The written form: text stands in quotes, and the items of a list or map in brackets. -/
def written : Value → String
  | .null => "None"
  | .bool b => if b then "True" else "False"
  | .int n => toString n
  | .float x => x.written
  | .text s => quoted s
  | .bytes b => quotedBytes b
  | .stamp s => s.written
  | .list items => "[" ++ commaSeparated (writtenItems items) ++ "]"
  | .map entries => "\x7b" ++ commaSeparated (writtenEntries entries) ++ "\x7d"

/-- The written forms of some values. -/
def writtenItems : List Value → List String
  | [] => []
  | v :: rest => v.written :: writtenItems rest

/-- The written forms of some entries. -/
def writtenEntries : List (Value × Value) → List String
  | [] => []
  | (k, v) :: rest => (k.written ++ ": " ++ v.written) :: writtenEntries rest

end

/-- The plain form: text stands as it is, a day or a time as it is read out, and all else as it is
    written. -/
def plain : Value → String
  | .text s => s
  | .stamp s => s.plain
  | v => v.written

mutual

/-- A value has texts only if the whole numbers in it have few enough digits to be written. -/
def isWritable : Value → Bool
  | .int n => n.natAbs < tenTo integerDigitLimit
  | .list items => itemsAreWritable items
  | .map entries => entriesAreWritable entries
  | _ => true

/-- Some values have texts. -/
def itemsAreWritable : List Value → Bool
  | [] => true
  | v :: rest => v.isWritable && itemsAreWritable rest

/-- Some entries have texts. -/
def entriesAreWritable : List (Value × Value) → Bool
  | [] => true
  | (k, v) :: rest => k.isWritable && v.isWritable && entriesAreWritable rest

end

/-! ## Queries -/

/-- A value that counts as true: neither null, false, zero nor empty. -/
def isTruthy : Value → Bool
  | .null => false
  | .bool b => b
  | .int n => n != 0
  | .float x => x.isNonzero
  | .text s => s != ""
  | .bytes b => !b.isEmpty
  | .stamp _ => true
  | .list items => !items.isEmpty
  | .map entries => !entries.isEmpty

/-- The value under a text key. -/
def lookup (key : String) : List (Value × Value) → Option Value
  | [] => none
  | (.text k, v) :: rest => if k == key then some v else lookup key rest
  | _ :: rest => lookup key rest

end Value

end EventCalendar
