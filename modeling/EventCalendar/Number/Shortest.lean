/-
  EventCalendar.Number.Shortest

  The shortest decimal text that reads back as the same binary64 number.  Of
  the shortest decimals in the interval of reals that round to the number, the
  nearest one is taken.
-/

import EventCalendar.Number.Binary64

namespace EventCalendar.Number

/-! ## Digits -/

/-- The reals that round to a number, times four: both ends, whether the ends
    belong to it, and the number itself, all over one denominator. -/
structure RoundingInterval where
  low : Nat
  value : Nat
  high : Nat
  den : Nat
  closed : Bool
  deriving Repr

/-- The reals that round to `mantissa * 2 ^ exponent`. -/
def roundingInterval (mantissa : Nat) (exponent : Int) : RoundingInterval :=
  let (num, den) := Binary64.magnitude 1 exponent
  -- just below a power of two the numbers lie twice as close together
  let below := if mantissa == twoTo 52 && Binary64.minExponent < exponent then 1 else 2
  { low := (4 * mantissa - below) * num
    value := 4 * mantissa * num
    high := (4 * mantissa + 2) * num
    den := 4 * den
    closed := mantissa % 2 == 0 }

/-- The power of ten at the first digit of `num / den`. -/
def leadingPower (num den : Nat) : Int :=
  if den ≤ num then (decimalLength (num / den) : Int) - 1
  else -(decimalLength ((den + num - 1) / num - 1) : Int)

/-- The point `q * 10 ^ power` lies in the interval. -/
def RoundingInterval.holds (r : RoundingInterval) (q : Nat) (power : Int) : Bool :=
  let (q, den) :=
    if 0 ≤ power then (q * tenTo power.toNat * r.den, 1) else (q * r.den, tenTo (-power).toNat)
  if r.closed then r.low * den ≤ q && q ≤ r.high * den
  else r.low * den < q && q < r.high * den

/-- The point of the grid `10 ^ power` that lies in the interval and is nearest to
    the number, if one of its two neighbours does. -/
def RoundingInterval.nearest? (r : RoundingInterval) (power : Int) : Option Nat :=
  let (num, den) :=
    if 0 ≤ power then (r.value, r.den * tenTo power.toNat)
    else (r.value * tenTo (-power).toNat, r.den)
  let q := num / den
  match r.holds q power, r.holds (q + 1) power with
  | true, true => some (roundHalfEven num den)
  | true, false => some q
  | false, true => some (q + 1)
  | false, false => none

/-- The coarsest grid with a point in the interval: the point and the grid's power,
    tried from `power` downwards. -/
def RoundingInterval.coarsest (r : RoundingInterval) : (tries : Nat) → (power : Int) → Nat × Int
  | 0, power => ((r.nearest? power).getD 0, power)
  | tries + 1, power =>
    match r.nearest? power with
    | some q => (q, power)
    | none => r.coarsest tries (power - 1)

/-- The digits of a positive number and the power of ten at the first of them. -/
def shortestDigits (mantissa : Nat) (exponent : Int) : List Char × Int :=
  let r := roundingInterval mantissa exponent
  let (q, power) := r.coarsest 16 (leadingPower r.value r.den)
  -- a carry may have left zeros at the end
  let digits := q.repr.toList
  let kept := (digits.reverse.dropWhile (· == '0')).reverse
  (kept, power + digits.length - 1)

/-! ## Notation -/

/-- A power of ten as it follows the digits: a sign and at least two digits. -/
def exponentText (power : Int) : List Char :=
  let size := power.natAbs.repr.toList
  (if power < 0 then '-' else '+') :: (List.replicate (2 - size.length) '0' ++ size)

/-- Digits with the point after the first, and the power of ten. -/
def scientific (digits : List Char) (power : Int) : List Char :=
  digits.take 1 ++ (if digits.length ≤ 1 then [] else '.' :: digits.drop 1) ++
    'e' :: exponentText power

/-- Digits with the point in its place, with at least one digit on both sides of it. -/
def positional (digits : List Char) (power : Int) : List Char :=
  if power < 0 then '0' :: '.' :: (List.replicate ((-power).toNat - 1) '0' ++ digits)
  else
    let whole := power.toNat + 1
    if digits.length ≤ whole then
      digits ++ List.replicate (whole - digits.length) '0' ++ ['.', '0']
    else digits.take whole ++ '.' :: digits.drop whole

/-- The text of a number: positional from `10 ^ -4` up to below `10 ^ 16`. -/
def Binary64.written : Binary64 → String
  | .nan => "nan"
  | .infinite negative => if negative then "-inf" else "inf"
  | .finite negative mantissa exponent =>
    let size :=
      if mantissa = 0 then ['0', '.', '0']
      else
        let (digits, power) := shortestDigits mantissa exponent
        if -4 ≤ power && power < 16 then positional digits power else scientific digits power
    String.ofList (if negative then '-' :: size else size)

end EventCalendar.Number
