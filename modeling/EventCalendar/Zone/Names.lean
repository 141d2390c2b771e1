/-
  EventCalendar.Zone.Names

  Names of zones in calendar data: the display names of desktop calendars, old
  names and the names of regions.  A name that is not known stands for a zone
  to fall back on, in the last resort for universal time.
-/

import EventCalendar.Text.Blank
import EventCalendar.Text.Quoted
import EventCalendar.Traced
import EventCalendar.Zone

namespace EventCalendar.Zone

open EventCalendar.Text

/-! ## Tables -/

/-- The zone where nothing else is known. -/
def defaultName : String := "UTC"

/-- The display names that desktop calendars give to zones. -/
def displayNames : List (String × String) :=
  [("Pacific Standard Time", "America/Los_Angeles"),
   ("Mountain Standard Time", "America/Denver"),
   ("Central Standard Time", "America/Chicago"),
   ("Eastern Standard Time", "America/New_York"),
   ("Alaskan Standard Time", "America/Anchorage"),
   ("Hawaiian Standard Time", "Pacific/Honolulu"),
   ("US Mountain Standard Time", "America/Phoenix"),
   ("GMT Standard Time", "Europe/London"),
   ("Central European Standard Time", "Europe/Warsaw"),
   ("W. Europe Standard Time", "Europe/Berlin"),
   ("Romance Standard Time", "Europe/Paris"),
   ("Central Europe Standard Time", "Europe/Budapest"),
   ("E. Europe Standard Time", "Europe/Chisinau"),
   ("GTB Standard Time", "Europe/Bucharest"),
   ("FLE Standard Time", "Europe/Helsinki"),
   ("Russian Standard Time", "Europe/Moscow"),
   ("China Standard Time", "Asia/Shanghai"),
   ("Tokyo Standard Time", "Asia/Tokyo"),
   ("India Standard Time", "Asia/Kolkata"),
   ("Singapore Standard Time", "Asia/Singapore"),
   ("AUS Eastern Standard Time", "Australia/Sydney"),
   ("New Zealand Standard Time", "Pacific/Auckland"),
   ("UTC", "UTC"),
   ("Coordinated Universal Time", "UTC")]

/-- Names that are no longer in use. -/
def oldNames : List (String × String) :=
  [("US/Pacific", "America/Los_Angeles"),
   ("US/Mountain", "America/Denver"),
   ("US/Central", "America/Chicago"),
   ("US/Eastern", "America/New_York"),
   ("GMT", "UTC"),
   ("Etc/UTC", "UTC"),
   ("Etc/GMT", "UTC"),
   ("Zulu", "UTC"),
   ("Z", "UTC")]

/-- The region or `UTC` that a display name stands for. -/
def ofDisplayName? (name : String) : Option String :=
  displayNames.lookup name

/-! ## Canonical names -/

/-- The name of a region, or `UTC`. -/
def isCanonical (name : String) : Bool :=
  name == defaultName || (Region.ofName? name).isSome

/-- A name without blanks and then quotes around it, and in today's form. -/
def currentName (name : String) : String :=
  let bare := String.ofList (trimBy (· == '\x22') (trim name).toList)
  match ofDisplayName? bare with
  | some current => current
  | none => (oldNames.lookup bare).getD bare

/-- The canonical name that a name stands for, if it is known. -/
def canonical? (name : Option String) : Option String :=
  match name with
  | none => none
  | some name =>
    if name = "" then none
    else if isCanonical (currentName name) then some (currentName name) else none

/-- What is remarked when a canonical name is asked for. -/
def canonicalRemarks (name : Option String) : List Remark :=
  match name, canonical? name with
  | some name, none =>
    if name = "" then [] else [⟨.debug, s!"Timezone {quoted name} could not be resolved"⟩]
  | _, _ => []

/-! ## Look-up -/

/-- The zone with a canonical name. -/
def ofCanonical (name : String) : Zone :=
  match Region.ofName? name with
  | some place => .region place
  | none => .utc

/-- The canonical name that a name or else the fallback stands for. -/
def resolvedName (name : Option String) (fallback : String) : String :=
  match canonical? name with
  | some name => name
  | none => (canonical? (some fallback)).getD defaultName

/-- The zone that a name or else the fallback stands for. -/
def resolve (name : Option String) (fallback : String) : Zone :=
  ofCanonical (resolvedName name fallback)

/-- What is remarked when a zone is looked up. -/
def resolveRemarks (name : Option String) (fallback : String) : List Remark :=
  match canonical? name with
  | some _ => []
  | none =>
    let unknown :=
      match name with
      | none => []
      | some name =>
        if name = "" then []
        else [⟨.warning, s!"Unknown timezone {quoted name}; using {fallback}"⟩]
    canonicalRemarks name ++ unknown ++ canonicalRemarks (some fallback)

/-- Looks a zone up. -/
def look {ε : Type} (query : ZoneQuery) : Traced ε Zone :=
  let fallback := query.fallback.getD defaultName
  ⟨[.lookup query (resolveRemarks query.name fallback)], .ok (resolve query.name fallback)⟩

/-- Asks for a canonical name. -/
def askCanonical {ε : Type} (name : Option String) : Traced ε (Option String) :=
  ⟨(canonicalRemarks name).map .remark, .ok (canonical? name)⟩

end EventCalendar.Zone
