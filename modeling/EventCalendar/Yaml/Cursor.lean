/-
  EventCalendar.Yaml.Cursor

  Reading a document character by character: the place where reading has come
  to, what lies between tokens, and scalars with and without quotes.
-/

import EventCalendar.Json.Reader

namespace EventCalendar.Yaml

/-! ## Characters -/

/-- A character that ends a line. -/
def isBreak (c : Char) : Bool :=
  c == '\n' || c == '\x85' || c == '\u2028' || c == '\u2029'

/-- A character that parts words. -/
def isGap (c : Char) : Bool := c == ' ' || c == '\t' || isBreak c

/-- Nothing follows, or a character that parts words. -/
def atGap (cs : List Char) : Bool := cs.head?.all isGap

/-- A character that a document may hold. -/
def isPrintable (c : Char) : Bool :=
  let n := c.toNat
  n == 0x09 || n == 0x0A || n == 0x0D || (0x20 ≤ n && n ≤ 0x7E) || n == 0x85 ||
    (0xA0 ≤ n && n ≤ 0xFFFD) || 0x10000 ≤ n

/-- The mark of byte order that a document may start with. -/
def byteOrderMark : Char := '\uFEFF'

/-! ## Places -/

/-- A place in a document: what is not yet read, and where it starts. -/
structure Cursor where
  rest : List Char
  line : Nat
  column : Nat

namespace Cursor

/-- The start of a document. -/
def start (cs : List Char) : Cursor := ⟨cs, 0, 0⟩

/-- The place after some characters of one line. -/
def skip (c : Cursor) (count : Nat) : Cursor :=
  { c with rest := c.rest.drop count, column := c.column + count }

/-- The place after the end of a line. -/
def nextLine (c : Cursor) : Cursor := ⟨c.rest.drop 1, c.line + 1, 0⟩

/-- The place of a mark of three characters that starts or ends a document. -/
def atMark (c : Cursor) (mark : String) : Bool :=
  c.column == 0 && mark.toList.isPrefixOf c.rest && atGap (c.rest.drop 3)

/-- The end of the document. -/
def atEnd (c : Cursor) : Bool := c.rest.isEmpty || c.atMark "---" || c.atMark "..."

/-- The place of a character that is followed by a gap. -/
def atSign (c : Cursor) (sign : Char) : Bool :=
  c.rest.head? == some sign && atGap (c.rest.drop 1)

/-- The next token from a place on: after spaces, comments and ends of lines. -/
def tokenFrom : (comment : Bool) → (line column : Nat) → List Char → Cursor
  | _, line, column, [] => ⟨[], line, column⟩
  | comment, line, column, c :: rest =>
    if isBreak c then tokenFrom false (line + 1) 0 rest
    else if comment || c == ' ' then tokenFrom comment line (column + 1) rest
    else if c == '#' then tokenFrom true line (column + 1) rest
    else ⟨c :: rest, line, column⟩

/-- The next token. -/
def token (c : Cursor) : Cursor := tokenFrom false c.line c.column c.rest

end Cursor

/-! ## Ends of lines in scalars -/

/-- What ends of lines stand for: a single one for a space, of several all but the first for
    themselves. -/
def folded : List Char → List Char
  | [] => []
  | ['\n'] => [' ']
  | '\n' :: more => more
  | others => others

/-- The end of a line as it counts in a scalar. -/
def breakChar (c : Char) : Char := if c == '\x85' then '\n' else c

/-! ## Plain scalars -/

/-- A character that a plain scalar cannot start with. -/
def isIndicator (c : Char) : Bool :=
  "-?:,[]\x7b\x7d#&*!|>'\x22%@\x60".toList.contains c

/-- A plain scalar starts here, inside brackets or outside. -/
def startsPlain (inside : Bool) : List Char → Bool
  | [] => false
  | c :: rest =>
    !(isGap c || isIndicator c) ||
      (!atGap rest && (c == '-' || (!inside && (c == '?' || c == ':'))))

/-- The word at the front, and what follows it. -/
def word (inside : Bool) : List Char → List Char × List Char
  | [] => ([], [])
  | c :: rest =>
    let closesKey := c == ':' &&
      (atGap rest || (inside && rest.head?.any ",[]\x7b\x7d".toList.contains))
    if isGap c || closesKey || (inside && ",?[]\x7b\x7d".toList.contains c) then ([], c :: rest)
    else
      let (more, rest) := word inside rest
      (c :: more, rest)

/-- The ends of lines and the spaces from a place on; a mark of a document stops them. -/
def breaks : (fuel : Nat) → Cursor → List Char × Cursor
  | 0, c => ([], c)
  | fuel + 1, c =>
    if c.atEnd then ([], c)
    else match c.rest with
      | [] => ([], c)
      | ch :: _ =>
        if ch == ' ' then breaks fuel (c.skip 1)
        else if isBreak ch then
          let (more, c) := breaks fuel c.nextLine
          (breakChar ch :: more, c)
        else ([], c)

/-- The gap behind a word of a plain scalar: what it stands for, and the place after it. -/
def plainGap (c : Cursor) : List Char × Cursor :=
  let spaces := c.rest.takeWhile (· == ' ')
  let after := c.skip spaces.length
  match after.rest with
  | [] => (spaces, after)
  | ch :: _ =>
    if isBreak ch then
      let (lines, after) := breaks (after.rest.length + 1) after
      (if after.atEnd then [] else folded lines, after)
    else (spaces, after)

/-- A plain scalar outside brackets goes on only in columns from `least` on. -/
def plain (inside : Bool) (least : Int) : (fuel : Nat) → Cursor → List Char × Cursor
  | 0, c => ([], c)
  | fuel + 1, c =>
    let (first, rest) := word inside c.rest
    if first = [] || c.rest.head? == some '#' then ([], c)
    else
      let (gap, after) := plainGap { c with rest, column := c.column + first.length }
      if gap = [] || after.rest.head? == some '#' || (!inside && (after.column : Int) < least) then
        (first, after)
      else
        let (more, after) := plain inside least fuel after
        (if more = [] then first else first ++ gap ++ more, after)

/-! ## Scalars in quotes -/

/-- The ends of lines and the blanks from a place on; none if a mark of a document follows. -/
def quotedBreaks : (fuel : Nat) → Cursor → Option (List Char × Cursor)
  | 0, _ => none
  | fuel + 1, c =>
    if c.atMark "---" || c.atMark "..." then none
    else match c.rest with
      | [] => some ([], c)
      | ch :: _ =>
        if ch == ' ' || ch == '\t' then quotedBreaks fuel (c.skip 1)
        else if isBreak ch then
          (quotedBreaks fuel c.nextLine).map fun (more, c) => (breakChar ch :: more, c)
        else some ([], c)

/-- The gap between words in quotes. -/
def quotedGap (c : Cursor) : Option (List Char × Cursor) :=
  let blanks := c.rest.takeWhile fun ch => ch == ' ' || ch == '\t'
  let after := c.skip blanks.length
  match after.rest with
  | [] => none
  | ch :: _ =>
    if isBreak ch then
      (quotedBreaks (after.rest.length + 1) after).map fun (lines, after) => (folded lines, after)
    else some (blanks, after)

/-- The characters that escapes of one letter stand for. -/
def escapes : List (Char × Char) :=
  [('0', '\x00'), ('a', '\x07'), ('b', '\x08'), ('t', '\t'), ('\t', '\t'), ('n', '\n'),
   ('v', '\x0B'), ('f', '\x0C'), ('r', '\r'), ('e', '\x1B'), (' ', ' '), ('\x22', '\x22'),
   ('\\', '\\'), ('/', '/'), ('N', '\x85'), ('_', '\xA0'), ('L', '\u2028'), ('P', '\u2029')]

/-- The number of hexadecimal digits behind the letter of an escape. -/
def escapeLengths : List (Char × Nat) := [('x', 2), ('u', 4), ('U', 8)]

/-- The character with a number in hexadecimal digits. -/
def hexChar? (digits : List Char) : Option Char := do
  let n ← digits.foldlM (fun n d => (Json.hexValue? d).map (16 * n + ·)) 0
  if n.isValidChar then some (Char.ofNat n) else none

/-- What the escape after a backslash stands for, and the place after it. -/
def escape? (c : Cursor) : Option (List Char × Cursor) :=
  match c.rest with
  | [] => none
  | letter :: rest =>
    if isBreak letter then quotedBreaks (rest.length + 1) c.nextLine
    else match escapes.lookup letter, escapeLengths.lookup letter with
      | some ch, _ => some ([ch], c.skip 1)
      | none, some count =>
        if (rest.take count).length < count then none
        else (hexChar? (rest.take count)).map fun ch => ([ch], c.skip (1 + count))
      | none, none => none

/-- The text up to the closing quote, and the place after it. -/
def quotedText (quote : Char) : (fuel : Nat) → Cursor → Option (List Char × Cursor)
  | 0, _ => none
  | fuel + 1, c =>
    match c.rest with
    | [] => none
    | ch :: rest =>
      let piece : Option (List Char × Cursor) :=
        if isGap ch then quotedGap c
        else if ch == '\\' && quote == '\x22' then escape? (c.skip 1)
        else if ch == quote then some ([quote], c.skip 2)
        else some ([ch], c.skip 1)
      if ch == quote && (quote == '\x22' || rest.head? != some quote) then some ([], c.skip 1)
      else match piece with
        | none => none
        | some (front, c) => (quotedText quote fuel c).map fun (more, c) => (front ++ more, c)

end EventCalendar.Yaml
