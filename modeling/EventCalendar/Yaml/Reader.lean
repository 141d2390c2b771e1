/-
  EventCalendar.Yaml.Reader

  Reading a document: one value, made of scalars, of lists and maps in
  brackets, and of lists and maps that indentation marks out.  Of two entries
  with one key the last counts, in the place of the first.  Anchors, tags,
  directives, scalars in blocks and keys of several lines are not read, nor are
  numbers that are too long, and days and times that there are not.
-/

import EventCalendar.Yaml.Cursor
import EventCalendar.Yaml.Scalar

namespace EventCalendar.Yaml

/-! ## Entries -/

/-- Two keys that count as one. -/
def sameKey : Value → Value → Bool
  | .null, .null => true
  | .bool a, .bool b => a == b
  | .int a, .int b => a == b
  | .bool a, .int b => (if a then 1 else 0) == b
  | .int a, .bool b => a == (if b then 1 else 0)
  | .float a, .float b => a == b
  | .text a, .text b => a == b
  | .bytes a, .bytes b => a == b
  | .stamp a, .stamp b => a.same b
  | _, _ => false

/-- A value that can be a key. -/
def isKey : Value → Bool
  | .list _ | .map _ => false
  | _ => true

/-- Entries with one more, which replaces the value under its key if there is one. -/
def putEntry (key value : Value) : List (Value × Value) → List (Value × Value)
  | [] => [(key, value)]
  | (k, v) :: rest =>
    if sameKey k key then (k, value) :: rest else (k, v) :: putEntry key value rest

/-! ## Scalars -/

/-- A scalar at a place, inside brackets or outside; a plain one outside brackets goes on only in
    columns from `least` on. -/
def scalar? (inside : Bool) (least : Int) (c : Cursor) : Option (Value × Cursor) :=
  match c.rest with
  | [] => none
  | ch :: rest =>
    if ch == '\x22' || ch == '\'' then
      (quotedText ch (rest.length + 1) (c.skip 1)).map fun (text, c) =>
        (.text (String.ofList text), c)
    else if startsPlain inside c.rest then
      let (text, c) := plain inside least (c.rest.length + 1) c
      if text == ['='] then none else (plainValue (String.ofList text)).map (·, c)
    else none

/-! ## Inside brackets -/

mutual

/-- A value at a place inside brackets. -/
def inner : (fuel : Nat) → Cursor → Option (Value × Cursor)
  | 0, _ => none
  | fuel + 1, c =>
    if c.atEnd then none
    else match c.rest.head? with
      | some '[' => (items fuel [] (c.skip 1)).map fun (vs, c) => (.list vs, c)
      | some '\x7b' => (entries fuel [] (c.skip 1)).map fun (es, c) => (.map es, c)
      | _ => scalar? true 0 c

/-- What follows a value that may be a key: the value behind a colon, if there is one. -/
def behindColon : (fuel : Nat) → (line : Nat) → Cursor → Option (Option Value × Cursor)
  | 0, _, _ => none
  | fuel + 1, line, c =>
    let t := c.token
    if t.rest.head? != some ':' then some (none, t)
    else if t.line != line then none
    else
      let t := (t.skip 1).token
      if t.rest.head?.any ",]\x7d".toList.contains then some (some .null, t)
      else (inner fuel t).map fun (v, c) => (some v, c.token)

/-- The items up to the closing bracket. -/
def items : (fuel : Nat) → List Value → Cursor → Option (List Value × Cursor)
  | 0, _, _ => none
  | fuel + 1, before, c =>
    let t := c.token
    if t.rest.head? == some ']' then some (before, t.skip 1)
    else match inner fuel t with
      | none => none
      | some (v, c) =>
        match behindColon fuel t.line c with
        | none => none
        | some (paired, c) =>
          if paired.isSome && !isKey v then none
          else
            let item := match paired with
              | none => v
              | some w => .map [(v, w)]
            match c.rest.head? with
            | some ',' => items fuel (before ++ [item]) (c.skip 1)
            | some ']' => some (before ++ [item], c.skip 1)
            | _ => none

/-- The entries up to the closing brace. -/
def entries : (fuel : Nat) → List (Value × Value) → Cursor →
    Option (List (Value × Value) × Cursor)
  | 0, _, _ => none
  | fuel + 1, before, c =>
    let t := c.token
    if t.rest.head? == some '\x7d' then some (before, t.skip 1)
    else match inner fuel t with
      | none => none
      | some (k, c) =>
        match behindColon fuel t.line c with
        | none => none
        | some (v, c) =>
          if !isKey k then none
          else
            let after := putEntry k (v.getD .null) before
            match c.rest.head? with
            | some ',' => entries fuel after (c.skip 1)
            | some '\x7d' => some (after, c.skip 1)
            | _ => none

end

/-! ## Indentation -/

/-- A value of one piece at a place: a scalar or one in brackets. -/
def piece (fuel : Nat) (indent : Int) (c : Cursor) : Option (Value × Cursor) :=
  match c.rest.head? with
  | some '[' | some '\x7b' => inner fuel c
  | _ => scalar? false (indent + 1) c

/-- The place behind the colon, if what stands before it, starting on a line, is a key. -/
def keyEnd? (line : Nat) (c : Cursor) : Option Cursor :=
  let t := c.token
  if t.line == line && t.atSign ':' then some (t.skip 1) else none

mutual

/-- The value from a place on, in a list or map with an indentation.  On the line of what stands
    before it a list or map may start only if this is said. -/
def block : (fuel : Nat) → (indent : Int) → (inMap startsHere : Bool) → Cursor →
    Option (Value × Cursor)
  | 0, _, _, _, _ => none
  | fuel + 1, indent, inMap, startsHere, c =>
    let t := c.token
    let below := t.line != c.line
    if t.atEnd || (below && (t.column : Int) < indent) then some (.null, t)
    else if below && (t.column : Int) == indent then
      -- a list may stand under its key without being indented
      if inMap && t.atSign '-' then
        (listed fuel indent true [] t).map fun (vs, c) => (.list vs, c)
      else some (.null, t)
    else if t.atSign '-' then
      if below || startsHere then
        (listed fuel t.column false [] t).map fun (vs, c) => (.list vs, c)
      else none
    else match piece fuel indent t with
      | none => none
      | some (v, c) =>
        match keyEnd? t.line c with
        | none => some (v, c)
        | some c =>
          -- a map cannot start on the line of the key it stands under
          if (below || startsHere) && isKey v then
            (keyed fuel t.column v [] c).map fun (es, c) => (.map es, c)
          else none

/-- The items of a list with an indentation, from a dash on. -/
def listed : (fuel : Nat) → (indent : Int) → (inMap : Bool) → List Value → Cursor →
    Option (List Value × Cursor)
  | 0, _, _, _, _ => none
  | fuel + 1, indent, inMap, before, c =>
    match block fuel indent false true (c.skip 1) with
    | none => none
    | some (v, c) =>
      let t := c.token
      if t.atEnd || (t.column : Int) < indent then some (before ++ [v], t)
      else if (t.column : Int) == indent then
        if t.atSign '-' then listed fuel indent inMap (before ++ [v]) t
        -- the next key of the map around the list
        else if inMap then some (before ++ [v], t)
        else none
      else none

/-- The entries of a map with an indentation, from the colon behind a key on. -/
def keyed : (fuel : Nat) → (indent : Int) → (key : Value) → List (Value × Value) → Cursor →
    Option (List (Value × Value) × Cursor)
  | 0, _, _, _, _ => none
  | fuel + 1, indent, key, before, c =>
    match block fuel indent true false c with
    | none => none
    | some (v, c) =>
      let after := putEntry key v before
      let t := c.token
      if t.atEnd || (t.column : Int) < indent then some (after, t)
      else if (t.column : Int) == indent then
        match piece fuel indent t with
        | none => none
        | some (k, c) =>
          match keyEnd? t.line c with
          | none => none
          | some c => if isKey k then keyed fuel indent k after c else none
      else none

end

/-! ## Documents -/

/-- Nothing but marks of the end follows. -/
def isFinished : (fuel : Nat) → Cursor → Bool
  | 0, _ => false
  | fuel + 1, c =>
    let t := c.token
    t.rest.isEmpty || (t.atMark "..." && isFinished fuel (t.skip 3))

/-- The value of a document; none for a text that is not read. -/
def read? (text : String) : Option Value :=
  let cs := text.toList
  if !cs.all isPrintable then none
  else
    let cs := if cs.head? == some byteOrderMark then cs.drop 1 else cs
    -- a few calls may start at one place, and then one goes on behind it
    let fuel := 4 * cs.length + 8
    let t := (Cursor.start cs).token
    if t.rest.isEmpty then some .null
    else if t.atMark "..." then none
    else
      let marked := t.atMark "---"
      let c := if marked then t.skip 3 else t
      match block fuel (-1) false (!marked) c with
      | none => none
      | some (v, c) => if isFinished fuel c then some v else none

end EventCalendar.Yaml
