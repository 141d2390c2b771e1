/-
  EventCalendar.Time.EpochKey

  The key of a date-time: milliseconds since the beginning of 1970, computed
  over binary64 seconds.  The seconds are rounded, their thousandfold is
  rounded once more, and the fraction is dropped.
-/

import EventCalendar.Number.Binary64
import EventCalendar.Time.Moment

namespace EventCalendar.Time

open EventCalendar.Number

/-- The instant at which 1970 begins. -/
def epochMicros : Int := 719162 * microsPerDay

/-- The thousandfold of a binary64 number. -/
def thousandfold (negative : Bool) (mantissa : Nat) (exponent : Int) : Binary64 :=
  let (num, den) := Binary64.magnitude mantissa exponent
  Binary64.ofRatio negative (num * 1000) den

/-- Milliseconds for a number of microseconds, by way of binary64 seconds. -/
def millisOfMicros (micros : Int) : Int :=
  match Binary64.ofRatio (micros < 0) micros.natAbs 1000000 with
  | .finite negative mantissa exponent =>
    match thousandfold negative mantissa exponent with
    | .finite negative mantissa exponent => Binary64.truncate negative mantissa exponent
    | _ => 0
  | _ => 0

/-- The key of a date-time. Without a zone it counts as universal time. -/
def Moment.epochKey (m : Moment) : Int :=
  millisOfMicros (m.zoned.instant - epochMicros)

end EventCalendar.Time
