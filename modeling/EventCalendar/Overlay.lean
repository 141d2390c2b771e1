/-
  EventCalendar.Overlay

  Exceptions laid over the occurrences of a series.  A deletion drops an
  occurrence, a modification changes it; both find it by the key of the start
  that the series gave it.  No exception adds an occurrence: modifications that
  find none are handed back.
-/

import EventCalendar.Occurrence
import EventCalendar.OrderedMap
import EventCalendar.Series
import EventCalendar.Text.Blank
import EventCalendar.Traced

namespace EventCalendar

open EventCalendar.Text EventCalendar.Time

/-! ## Keys -/

/-- What an exception is stored under: a date-time or its key. -/
inductive ExceptionKey where
  | moment (m : Moment)
  | millis (n : Int)
  deriving DecidableEq, Repr

namespace ExceptionKey

/-- The key itself. -/
def key : ExceptionKey → Int
  | .moment m => m.epochKey
  | .millis n => n

/-- Two of them count as one. -/
def same : ExceptionKey → ExceptionKey → Bool
  | .moment a, .moment b => a.same b
  | .millis a, .millis b => a == b
  | _, _ => false

/-- Without those that count as one with an earlier one. -/
def distinct (keys : List ExceptionKey) : List ExceptionKey :=
  keys.foldl (fun kept k => if kept.any (·.same k) then kept else kept ++ [k]) []

end ExceptionKey

/-- The keys of deletions, each once. -/
def deletionKeys (deletions : List ExceptionKey) : List Int :=
  (deletions.map ExceptionKey.key).eraseDups

/-! ## Modifications by key -/

/-- Modifications as they are handed over. -/
inductive Modifications where
  /-- Each is stored under its own original start. -/
  | listed (modifications : List Modification)
  /-- Each is stored under a key of its own. -/
  | keyed (entries : List (ExceptionKey × Modification))
  deriving DecidableEq, Repr

namespace Modifications

/-- No modification. -/
def none : Modifications := .listed []

/-- Entries with one more, which replaces the modification of an entry whose key counts as the
    same. -/
def putSame (key : ExceptionKey) (m : Modification) :
    List (ExceptionKey × Modification) → List (ExceptionKey × Modification)
  | [] => [(key, m)]
  | (k, old) :: rest =>
    if k.same key then (k, m) :: rest else (k, old) :: putSame key m rest

/-- Entries stored one after the other, those whose keys count as the same in one place. -/
def ofPairs (pairs : List (ExceptionKey × Modification)) : Modifications :=
  .keyed (pairs.foldl (fun entries (k, m) => putSame k m entries) [])

/-- The modifications by key. -/
abbrev Index := OrderedMap Int Modification

/-- The entries to be put, in order. -/
def entries : Modifications → List (Int × Modification)
  | .listed ms => ms.map fun m => (m.key, m)
  | .keyed es => es.map fun (k, m) => (k.key, m)

/-- The modifications by key. Of two with one key the last counts, in the place of the first. -/
def index (ms : Modifications) : Index := OrderedMap.ofList ms.entries

/-- A remark for each listed modification whose key has appeared before. -/
def duplicateNotes : (before : List Int) → List Modification → List Note
  | _, [] => []
  | before, m :: rest =>
    (if before.contains m.key then
      [.warning (s!"Duplicate modification for original start {m.originalStart.text}; " ++
        "keeping the last")]
    else []) ++ duplicateNotes (m.key :: before) rest

/-- What the index has to say. -/
def notes : Modifications → List Note
  | .listed ms => duplicateNotes [] ms
  | .keyed _ => []

end Modifications

/-! ## One occurrence -/

/-- A text, unless it is blank. -/
def pickText (given fallback : Option String) : Option String :=
  match given with
  | some s => if isBlankText s then fallback else some s
  | none => fallback

/-- The occurrence that a modification makes of another one.  The end stays unless the start
    moves; then it is guessed. -/
def Occurrence.merge (o : Occurrence) (m : Modification) (s : Option Series) :
    Except CalendarError Occurrence := do
  let start := m.start.getD o.start
  let finish ←
    match m.finish with
    | some finish => .ok finish
    | none =>
      if start.same o.start then .ok o.finish
      else start.guessEnd (s.elim false (·.allDay))
  return {
    start, finish, originalStart := o.originalStart, state := .modified
    title := pickText m.title (s.bind (·.title))
    description := pickText m.description (s.bind (·.description)) }

/-! ## The overlay -/

/-- Occurrences with all exceptions applied, and the modifications that found none. -/
structure Overlay where
  occurrences : List Occurrence
  unmatched : List Modification
  deriving DecidableEq, Repr

namespace Overlay

/-- The name of a series in remarks. -/
def seriesName (s : Option Series) : String := s.elim "?" (·.seriesId)

/-- The state of an overlay on its way: the occurrences kept, the modifications that have not yet
    found theirs, and the number of deletions. -/
structure Progress where
  kept : List Occurrence
  pending : Modifications.Index
  dropped : Nat

/-- Applies the exceptions to some occurrences, one after the other. -/
def applyFrom (deleted : List Int) (s : Option Series) :
    (pending : Modifications.Index) → List Occurrence → Traced CalendarError Progress
  | pending, [] => return { kept := [], pending, dropped := 0 }
  | pending, o :: rest => do
    -- a modification serves one occurrence, even one that is deleted
    let modification := pending.find? o.key
    let pending := pending.erase o.key
    if deleted.contains o.key then
      if modification.isSome then
        Traced.note (.debug (s!"Series {seriesName s}: deletion overrides modification at " ++
          o.originalStart.text))
      let p ← applyFrom deleted s pending rest
      return { p with dropped := p.dropped + 1 }
    else
      let here ← match modification with
        | some m => Traced.ofExcept (o.merge m s)
        | none => pure o
      let p ← applyFrom deleted s pending rest
      return { p with kept := here :: p.kept }

/-- What is said about the exceptions when all occurrences are through. -/
def closingNotes (s : Option Series) (p : Progress) : List Note :=
  let name := seriesName s
  let unmatched := p.pending.values
  (if p.dropped = 0 then []
   else [.debug s!"Series {name}: dropped {p.dropped} deleted occurrence(s)"]) ++
  if unmatched.isEmpty then []
  else
    .info s!"Series {name}: dropped {unmatched.length} unmatched modification(s)" ::
      unmatched.map fun m =>
        .debug (s!"Series {name}: no occurrence generated for modification at " ++
          m.originalStart.text)

/-- Lays deletions and modifications over occurrences. -/
def apply (raw : List Occurrence) (deletions : List ExceptionKey) (modifications : Modifications)
    (s : Option Series) : Traced CalendarError Overlay := do
  Traced.noteAll modifications.notes
  let p ← applyFrom (deletionKeys deletions) s modifications.index raw
  Traced.noteAll (closingNotes s p)
  return { occurrences := p.kept, unmatched := p.pending.values }

end Overlay

end EventCalendar
