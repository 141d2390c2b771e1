/-
  EventCalendar.Record.Import

  The import of a whole calendar document.  Components are taken in the order
  of their raw start texts, so that a series comes before what changes one of
  its occurrences; of several components with one identifier the first taken
  counts.
-/

import EventCalendar.OrderedMap
import EventCalendar.Record.Event

namespace EventCalendar

open EventCalendar.Ics

/-! ## Imports -/

/-- What an import gives. -/
structure Import where
  events : List ImportedEvent
  /-- The identifiers that were met again, once for each time. -/
  duplicates : List String
  /-- Why components gave no event, by identifier. -/
  errors : OrderedMap String RecordError
  /-- The number of components. -/
  total : Nat

namespace Import

/-- The import of nothing yet. -/
def empty (total : Nat) : Import := ⟨[], [], .empty, total⟩

/-- The number of events that recur. -/
def recurringCount (r : Import) : Nat := r.events.countP (·.dates.isRecurrent)

/-- What an import did, in one line. -/
def summary (r : Import) : String :=
  s!"Imported {r.events.length} of {r.total} event(s) ({r.recurringCount} recurring, " ++
    s!"{r.duplicates.length} duplicate, {r.errors.entries.length} failed)"

end Import

/-- Why an import fails as a whole. -/
inductive ImportError where
  | unparseable (cause : Unparseable)
  /-- A component gives no event, and this is not let pass. -/
  | event (cause : EventError)
  deriving DecidableEq, Repr

/-! ## Order and identifiers -/

namespace Ics.Component

/-- The raw text of the start. -/
def startText (c : Component) : String := ((c.date? "DTSTART").map (·.token)).getD ""

/-- The identifier, or one made from a place in the import. -/
def uid (c : Component) (place : Nat) : String :=
  match c.text? "UID" with
  | none => s!"no-uid-{place}"
  | some text => if text = "" then s!"no-uid-{place}" else text

end Ics.Component

/-- Components in the order of import. Components with one start text keep their order. -/
def importOrder (components : List Component) : List Component :=
  components.mergeSort fun a b => decide (a.startText ≤ b.startText)

/-! ## Importing -/

/-- Imports documents. -/
structure Importer where
  interpreter : Interpreter
  /-- The first record that cannot be used ends the import. -/
  strict : Bool
  deriving DecidableEq, Repr

namespace Importer

variable (i : Importer)

/-- The import with an event, or with the reason why there is none. -/
def record (r : Import) (uid : String) (x : Except EventError ImportedEvent) :
    Traced ImportError Import :=
  match x with
  | .ok event => pure { r with events := r.events ++ [event] }
  | .error (.interpretation (.record cause)) =>
    if i.strict then throw (.event (.interpretation (.record cause)))
    else do
      Traced.note (.warning s!"Skipping record {uid}: {cause.message}")
      return { r with errors := r.errors.put uid cause }
  | .error cause => throw (.event cause)

/-- The import with one more component, which stands at a place. -/
def add (state : Import × List String) (entry : Component × Nat) :
    Traced ImportError (Import × List String) := do
  let (r, seen) := state
  let (c, place) := entry
  let uid := c.uid place
  if seen.contains uid then
    Traced.note (.debug s!"Skipping duplicate UID {uid}")
    return ({ r with duplicates := r.duplicates ++ [uid] }, seen)
  else
    let event ← (ImportedEvent.ofComponent i.interpreter uid c).attempt
    return (← i.record r uid event, uid :: seen)

/-- The import of some components. -/
def ofComponents (components : List Component) : Traced ImportError Import := do
  let (r, _) ← (importOrder components).zipIdx.foldlM i.add (.empty components.length, [])
  Traced.note (.info r.summary)
  return r

/-- The import of a document. -/
def ofText (text : String) : Traced ImportError Import := do
  let document ← (Traced.ofExcept (readDocument text)).mapError .unparseable
  i.ofComponents (document.withName eventName)

end Importer

end EventCalendar
