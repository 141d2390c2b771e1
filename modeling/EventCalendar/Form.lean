/-
  EventCalendar.Form

  Filled-in forms: a field may be absent, empty or given, and each field that
  does not hold what it should is reported with the reason.
-/

import EventCalendar.Text.Quoted
import EventCalendar.Time.Moment

namespace EventCalendar

open EventCalendar.Text EventCalendar.Time

/-! ## Fields -/

/-- What a field of a form holds. -/
inductive Entry (α : Type) where
  | absent
  | null
  | given (value : α)
  deriving DecidableEq, Repr

/-- Why a field is refused. -/
inductive FieldReason where
  | required
  | notDateTime
  | notText
  | notBoolean
  /-- The field does not hold one of these words. -/
  | notOneOf (words : List String)
  /-- The content of the field is refused with this explanation. -/
  | refused (explanation : String)
  deriving DecidableEq, Repr

/-- Words in quotes, with commas between them and `or` before the last. -/
def alternatives : List String → String
  | [] => ""
  | [word] => quoted word
  | [word, last] => quoted word ++ " or " ++ quoted last
  | word :: rest => quoted word ++ ", " ++ alternatives rest

/-- The wording of a reason. -/
def FieldReason.message : FieldReason → String
  | .required => "Field required"
  | .notDateTime => "Input should be a valid datetime"
  | .notText => "Input should be a valid string"
  | .notBoolean => "Input should be a valid boolean"
  | .notOneOf words => "Input should be " ++ alternatives words
  | .refused explanation => "Value error, " ++ explanation

/-- A field that is refused, and why. -/
structure FieldFault where
  field : String
  reason : FieldReason
  deriving DecidableEq, Repr

/-- The wording of a list of faults. -/
def FieldFault.messages (faults : List FieldFault) : String :=
  String.intercalate "; " (faults.map fun f => f.field ++ ": " ++ f.reason.message)

/-! ## Reading fields -/

/-- The content of a field, or what is wrong with it. -/
abbrev Checked (α : Type) := Except FieldFault α

/-- The faults of a field. -/
def Checked.faults {α : Type} : Checked α → List FieldFault
  | .ok _ => []
  | .error fault => [fault]

namespace Entry

variable {α : Type}

/-- The content of a field that may not be left out. -/
def required (field : String) (reason : FieldReason) : Entry α → Checked α
  | .absent => .error ⟨field, .required⟩
  | .null => .error ⟨field, reason⟩
  | .given a => .ok a

/-- The content of a field that has a default. -/
def orDefault (default : α) (field : String) (reason : FieldReason) : Entry α → Checked α
  | .absent => .ok default
  | .null => .error ⟨field, reason⟩
  | .given a => .ok a

end Entry

end EventCalendar
