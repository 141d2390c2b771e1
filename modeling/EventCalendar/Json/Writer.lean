/-
  EventCalendar.Json.Writer

  Values as JSON text in ASCII: on one line, or indented by two blanks.
-/

import EventCalendar.Value

namespace EventCalendar.Json

open EventCalendar.Text

/-! ## Strings -/

/-- A code point as `\u` escapes: two of them from U+10000 on. -/
def unicodeEscape (n : Nat) : List Char :=
  if n < 0x10000 then '\\' :: 'u' :: hexDigits 4 n
  else
    '\\' :: 'u' :: hexDigits 4 (0xD800 + (n - 0x10000) / 0x400) ++
      '\\' :: 'u' :: hexDigits 4 (0xDC00 + (n - 0x10000) % 0x400)

/-- One character of a string. -/
def escapeChar (c : Char) : List Char :=
  if c == '\x22' || c == '\\' then ['\\', c]
  else if c == '\n' then ['\\', 'n']
  else if c == '\r' then ['\\', 'r']
  else if c == '\t' then ['\\', 't']
  else if c.toNat == 0x08 then ['\\', 'b']
  else if c.toNat == 0x0C then ['\\', 'f']
  else if 0x20 ≤ c.toNat && c.toNat < 0x7F then [c]
  else unicodeEscape c.toNat

/-- A string between double quotes. -/
def string (s : String) : String :=
  String.ofList ('\x22' :: s.toList.flatMap escapeChar ++ ['\x22'])

/-! ## Layout -/

/-- How the parts of a list or an object are set. -/
inductive Layout where
  /-- On one line. -/
  | compact
  /-- Each part on a line of its own, below `depth` levels of indentation. -/
  | indented (depth : Nat)

/-- The layout of the parts inside. -/
def Layout.deeper : Layout → Layout
  | .compact => .compact
  | .indented depth => .indented (depth + 1)

/-- A new line at a level of indentation. -/
def newLine (depth : Nat) : String :=
  String.ofList ('\n' :: List.replicate (2 * depth) ' ')

/-- Parts between two brackets. -/
def bracketed (layout : Layout) (opening closing : String) (parts : List String) : String :=
  match layout, parts with
  | _, [] => opening ++ closing
  | .compact, _ => opening ++ String.intercalate "," parts ++ closing
  | .indented depth, _ =>
    opening ++ newLine (depth + 1) ++ String.intercalate ("," ++ newLine (depth + 1)) parts ++
      newLine depth ++ closing

/-- What stands between a key and its value. -/
def Layout.colon : Layout → String
  | .compact => ":"
  | .indented _ => ": "

/-! ## Values -/

mutual

/-- A value in a layout. -/
def render (layout : Layout) : Value → String
  | .null => "null"
  | .bool b => if b then "true" else "false"
  | .int n => toString n
  | .float x => x.written
  | .text s => string s
  | .bytes b => string (quotedBytes b)
  | .stamp s => string s.plain
  | .list items => bracketed layout "[" "]" (renderItems layout.deeper items)
  | .map entries => bracketed layout "\x7b" "\x7d" (renderEntries layout.deeper entries)

/-- The items of a list. -/
def renderItems (layout : Layout) : List Value → List String
  | [] => []
  | v :: rest => render layout v :: renderItems layout rest

/-- The entries of an object. -/
def renderEntries (layout : Layout) : List (Value × Value) → List String
  | [] => []
  | (k, v) :: rest =>
    (string k.plain ++ layout.colon ++ render layout v) :: renderEntries layout rest

end

/-- A value on one line. -/
def compact (v : Value) : String := render .compact v

/-- A value on as many lines as it has parts. -/
def indented (v : Value) : String := render (.indented 0) v

end EventCalendar.Json
