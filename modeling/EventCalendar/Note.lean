/-
  EventCalendar.Note

  Notes: what the library has to say about its work.  A zone name is remarked
  upon only the first time it is looked up, as long as it is remembered.
-/

namespace EventCalendar

/-! ## Severity -/

/-- How much a note matters. -/
inductive Severity where
  | debug
  | info
  | warning
  | error
  deriving DecidableEq, Repr

namespace Severity

/-- The rank of a severity. -/
def rank : Severity → Nat
  | .debug => 10
  | .info => 20
  | .warning => 30
  | .error => 40

/-- The name of a severity. -/
def name : Severity → String
  | .debug => "DEBUG"
  | .info => "INFO"
  | .warning => "WARNING"
  | .error => "ERROR"

end Severity

/-! ## Notes -/

/-- A remark with its severity. -/
structure Remark where
  severity : Severity
  text : String
  deriving DecidableEq, Repr

/-- What is asked of a zone look-up: a name, and a zone to fall back on where one is given. -/
structure ZoneQuery where
  name : Option String
  fallback : Option String
  deriving DecidableEq, Repr

/-- Something noted during work. -/
inductive Note where
  /-- A remark. -/
  | remark (remark : Remark)
  /-- A zone look-up, with the remarks it gives rise to when it is made for the first time. -/
  | lookup (query : ZoneQuery) (remarks : List Remark)
  deriving DecidableEq, Repr

namespace Note

/-- A remark for those who look for faults. -/
def debug (text : String) : Note := .remark ⟨.debug, text⟩

/-- A remark on the course of the work. -/
def info (text : String) : Note := .remark ⟨.info, text⟩

/-- A remark on something doubtful. -/
def warning (text : String) : Note := .remark ⟨.warning, text⟩

/-- A remark on a failure. -/
def error (text : String) : Note := .remark ⟨.error, text⟩

/-- A note as it is heard from a severity on. A look-up is remembered also if it is not heard. -/
def heardFrom (least : Severity) : Note → List Note
  | .remark r => if least.rank ≤ r.severity.rank then [.remark r] else []
  | .lookup query remarks =>
    [.lookup query (remarks.filter (least.rank ≤ ·.severity.rank))]

/-- The number of zone look-ups that are remembered. -/
def rememberedLookups : Nat := 64

/-- The remarks of some notes, given the look-ups that are remembered, the latest first. -/
def remarksAfter (known : List ZoneQuery) : List Note → List Remark
  | [] => []
  | .remark r :: rest => r :: remarksAfter known rest
  | .lookup query remarks :: rest =>
    let said := if known.contains query then [] else remarks
    said ++ remarksAfter ((query :: known.erase query).take rememberedLookups) rest

/-- The remarks of some notes. -/
def remarks (notes : List Note) : List Remark := remarksAfter [] notes

/-- The remarks that matter at least as much as a severity. -/
def remarksFrom (least : Severity) (notes : List Note) : List Remark :=
  (remarks notes).filter (least.rank ≤ ·.severity.rank)

end Note

end EventCalendar
