/-
  EventCalendar.Occurrence

  One occurrence of a series, and a modification of one.  Both remember the
  start that the series itself gave the occurrence, and are found by its key.
-/

import EventCalendar.Form
import EventCalendar.Time.EpochKey

namespace EventCalendar

open EventCalendar.Time

/-! ## Occurrences -/

/-- Whether an occurrence is as the series has it. -/
inductive ExceptionState where
  | none
  | modified
  deriving DecidableEq, Repr

namespace ExceptionState

/-- The tag of a state in data. -/
def tag : ExceptionState → String
  | .none => "none"
  | .modified => "modified"

/-- The state with a tag. -/
def ofTag? (s : String) : Option ExceptionState :=
  [ExceptionState.none, .modified].find? (·.tag == s)

end ExceptionState

/-- One occurrence of a series. -/
structure Occurrence where
  start : Moment
  finish : Moment
  /-- The start that the series gave it. -/
  originalStart : Moment
  state : ExceptionState
  title : Option String
  description : Option String
  deriving DecidableEq, Repr

namespace Occurrence

/-- An occurrence as the series has it. -/
def plain (start finish : Moment) : Occurrence :=
  { start, finish, originalStart := start, state := .none, title := none, description := none }

/-- The key by which exceptions find the occurrence. -/
def key (o : Occurrence) : Int := o.originalStart.epochKey

/-- The length of the occurrence in microseconds. -/
def duration (o : Occurrence) : Int := o.finish.since o.start

end Occurrence

/-! ## The form -/

/-- A filled-in form for an occurrence. -/
structure OccurrenceForm where
  start : Entry Moment
  finish : Entry Moment
  originalStart : Option Moment
  state : Entry String
  title : Option String
  description : Option String

namespace OccurrenceForm

/-- The original start that a form gives, by default the start. -/
def checkOriginal (form : OccurrenceForm) : Checked Moment :=
  match form.originalStart, form.start with
  | some m, _ => .ok m
  | none, .given m => .ok m
  | none, _ => .error ⟨"original_start", .notDateTime⟩

/-- The state that a field names. -/
def checkState (entry : Entry String) : Checked ExceptionState :=
  let reason := FieldReason.notOneOf [ExceptionState.none.tag, ExceptionState.modified.tag]
  match entry.orDefault ExceptionState.none.tag "exception" reason with
  | .error fault => .error fault
  | .ok tag =>
    match ExceptionState.ofTag? tag with
    | some state => .ok state
    | none => .error ⟨"exception", reason⟩

/-- The occurrence that a form describes. -/
def occurrence (form : OccurrenceForm) : Except (List FieldFault) Occurrence :=
  let start := form.start.required "start" .notDateTime
  let finish := form.finish.required "end" .notDateTime
  let original := form.checkOriginal
  let state := checkState form.state
  match start, finish, original, state with
  | .ok start, .ok finish, .ok original, .ok state =>
    .ok { start := start.zoned, finish := finish.zoned, originalStart := original.zoned, state
          title := form.title, description := form.description }
  | start, finish, original, state =>
    .error (start.faults ++ finish.faults ++ original.faults ++ state.faults)

end OccurrenceForm

/-! ## Modifications -/

/-- A change to one occurrence. What is not given stays as it is. -/
structure Modification where
  originalStart : Moment
  start : Option Moment
  finish : Option Moment
  title : Option String
  description : Option String
  deriving DecidableEq, Repr

namespace Modification

/-- The modification with all date-times in a zone. -/
def zoned (m : Modification) : Modification :=
  { m with
    originalStart := m.originalStart.zoned
    start := m.start.map Moment.zoned
    finish := m.finish.map Moment.zoned }

/-- The key of the occurrence that is modified. -/
def key (m : Modification) : Int := m.originalStart.epochKey

end Modification

end EventCalendar
