/-
  EventCalendar.Ics.Component

  The components of a calendar document.  A component stands between `BEGIN`
  and `END` and holds properties and further components; a document is one
  component.
-/

import EventCalendar.Ics.ContentLine

namespace EventCalendar.Ics

open EventCalendar.Text

/-! ## Components -/

/-- A component with its properties and the components inside it, in order. -/
inductive Component where
  | mk (name : String) (properties : List ContentLine) (children : List Component)
  deriving Repr

namespace Component

/-- The name, in capital letters. -/
def name : Component → String
  | .mk name _ _ => name

/-- The properties in order. -/
def properties : Component → List ContentLine
  | .mk _ properties _ => properties

/-- The component with one more property. -/
def addProperty : Component → ContentLine → Component
  | .mk name properties children, line => .mk name (properties ++ [line]) children

/-- The component with one more component inside. -/
def addChild : Component → (child : Component) → Component
  | .mk name properties children, child => .mk name properties (children ++ [child])

/-- The properties with a name, in order. -/
def named (c : Component) (name : String) : List ContentLine :=
  c.properties.filter (·.name == name)

mutual

/-- The component itself, if it has a name, and all components inside it that have it. -/
def withName (name : String) : Component → List Component
  | .mk own properties children =>
    (if own == name then [.mk own properties children] else []) ++ allWithName name children

/-- The components with a name among some components and inside them. -/
def allWithName (name : String) : List Component → List Component
  | [] => []
  | c :: rest => withName name c ++ allWithName name rest

end

end Component

/-- The name of the components that stand for events. -/
def eventName : String := "VEVENT"

/-! ## Documents -/

/-- A document is not one whole component. -/
structure Unparseable where
  deriving DecidableEq, Repr

/-- The wording of the error. -/
def Unparseable.message (_ : Unparseable) : String := "Unparseable ICS document"

/-- What is read so far: the open components, the innermost first, and the closed ones outside. -/
structure Reading where
  opened : List Component
  closed : List Component

/-- Takes a line that is no content line: an event passes it over, nothing else does. -/
def Reading.passOver (r : Reading) : Except Unparseable Reading :=
  match r.opened with
  | c :: _ => if c.name == eventName then .ok r else .error {}
  | [] => .error {}

/-- Takes the end of the innermost component. -/
def Reading.close (r : Reading) : Except Unparseable Reading :=
  match r.opened with
  | [] => .error {}
  | [c] => .ok { opened := [], closed := r.closed ++ [c] }
  | c :: outer :: rest => .ok { r with opened := outer.addChild c :: rest }

/-- Takes lines one after the other. A comment outside all components ends the document. -/
def Reading.takeLines (r : Reading) : List (List Char) → Except Unparseable Reading
  | [] => .ok r
  | cs :: rest =>
    match ContentLine.read? cs with
    | none => do (← r.passOver).takeLines rest
    | some line =>
      if line.name == "BEGIN" then
        { r with opened := .mk (upper line.value) [] [] :: r.opened : Reading }.takeLines rest
      else if line.name == "END" then do (← r.close).takeLines rest
      else match r.opened with
        | [] => if line.name == "X-COMMENT" then .ok r else .error {}
        | c :: outer =>
          { r with opened := c.addProperty line :: outer : Reading }.takeLines rest

/-- The component that a document consists of. -/
def readDocument (text : String) : Except Unparseable Component := do
  let r ← Reading.takeLines { opened := [], closed := [] } (unfold text.toList)
  match r.closed with
  | [c] => .ok c
  | _ => .error {}

end EventCalendar.Ics
