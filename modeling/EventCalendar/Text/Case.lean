/-
  EventCalendar.Text.Case

  Capital and small letters of all scripts.  One letter may become several,
  and a capital sigma at the end of a word becomes the final small sigma.
-/

import EventCalendar.Text.CaseTable

namespace EventCalendar.Text

/-! ## Single characters -/

/-- The code point that a table of runs maps a code point to. -/
def shiftCase (runs : Array CaseRun) (n : Nat) : Nat :=
  match runs.find? (·.holds n) with
  | some run => (n + run.shift).toNat
  | none => n

/-- The capital form of a character. -/
def upperChar (c : Char) : List Char :=
  let n := c.toNat
  if n < 0x80 then [c.toUpper]
  else match capitalSequences.lookup n with
    | some letters => letters.map Char.ofNat
    | none => [Char.ofNat (shiftCase capitalRuns n)]

/-- The small form of a character that is not a capital sigma. -/
def lowerChar (c : Char) : List Char :=
  let n := c.toNat
  if n < 0x80 then [c.toLower]
  else if n == 0x130 then ['i', Char.ofNat 0x307]
  else [Char.ofNat (shiftCase smallRuns n)]

/-! ## Sigma -/

/-- A character of a table of ranges. -/
def inRuns (runs : Array (Nat × Nat)) (c : Char) : Bool :=
  runs.any fun (low, high) => low ≤ c.toNat && c.toNat ≤ high

/-- The nearest character that counts is a letter with a case. -/
def meetsCased (neighbours : List Char) : Bool :=
  match neighbours.dropWhile (inRuns caseIgnorableRuns) with
  | [] => false
  | c :: _ => inRuns casedRuns c

/-- The small form of a capital sigma, given what precedes (nearest first) and what follows it. -/
def lowerSigma (before after : List Char) : Char :=
  if meetsCased before && !meetsCased after then Char.ofNat 0x3C2 else Char.ofNat 0x3C3

/-! ## Text -/

/-- Text in capital letters. -/
def upper (s : String) : String :=
  String.ofList (s.toList.flatMap upperChar)

/-- The small form of some characters, given those before them (nearest first). -/
def lowerAfter (before : List Char) : List Char → List Char
  | [] => []
  | c :: rest =>
    (if c.toNat == 0x3A3 then [lowerSigma before rest] else lowerChar c) ++
      lowerAfter (c :: before) rest

/-- Text in small letters. -/
def lower (s : String) : String :=
  String.ofList (lowerAfter [] s.toList)

end EventCalendar.Text
