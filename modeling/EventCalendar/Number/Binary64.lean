/-
  EventCalendar.Number.Binary64

  Binary floating point with 53 significant bits, in exact arithmetic: a finite
  number is a sign and `mantissa * 2 ^ exponent`.  Quotients are rounded to the
  nearest number, halfway cases to the even mantissa.
-/

namespace EventCalendar.Number

/-! ## Powers -/

/-- A power of two. -/
def twoTo (n : Nat) : Nat := Nat.pow 2 n

/-- A power of ten. -/
def tenTo (n : Nat) : Nat := Nat.pow 10 n

/-! ## Rounding a quotient -/

/-- The whole number nearest to `num / den`; halfway cases go to the even one. -/
def roundHalfEven (num den : Nat) : Nat :=
  let q := num / den
  let r := num % den
  if den < 2 * r || (2 * r == den && q % 2 == 1) then q + 1 else q

/-- The number of decimal digits of a number, none for zero. -/
def decimalLength (n : Nat) : Nat :=
  if n = 0 then 0 else n.repr.length

/-! ## The numbers -/

/-- A binary64 number. -/
inductive Binary64 where
  /-- Not a number. -/
  | nan
  /-- An infinity. -/
  | infinite (negative : Bool)
  /-- The number `mantissa * 2 ^ exponent`, with its sign. -/
  | finite (negative : Bool) (mantissa : Nat) (exponent : Int)
  deriving DecidableEq, Repr

namespace Binary64

/-- The least exponent of a finite number. -/
def minExponent : Int := -1074

/-- The greatest exponent of a finite number. -/
def maxExponent : Int := 971

/-- The quotient `num / (den * 2 ^ e)`, as two whole numbers. -/
def scaleDown (num den : Nat) (e : Int) : Nat × Nat :=
  if 0 ≤ e then (num, den * twoTo e.toNat) else (num * twoTo (-e).toNat, den)

/-- The exponent at which `num / den` has 53 significant bits, or the least one. -/
def exponentOf (num den : Nat) : Int :=
  let e : Int := (num.log2 : Int) - den.log2 - 52
  -- a difference of bit lengths may be one too large
  let (n, d) := scaleDown num den e
  max minExponent (if n / d < twoTo 52 then e - 1 else e)

/-- The number nearest to `num / den`. -/
def ofRatio (negative : Bool) (num den : Nat) : Binary64 :=
  if num = 0 then .finite negative 0 minExponent
  else
    let e := exponentOf num den
    let (n, d) := scaleDown num den e
    let m := roundHalfEven n d
    -- rounding up may carry into one more bit
    let (m, e) := if m = twoTo 53 then (twoTo 52, e + 1) else (m, e)
    if maxExponent < e then .infinite negative else .finite negative m e

/-- The number nearest to `digits * 10 ^ power`. -/
def ofDecimal (negative : Bool) (digits : Nat) (power : Int) : Binary64 :=
  if digits = 0 then .finite negative 0 minExponent
  -- far outside the range the power of ten need not be computed
  else if 310 < (decimalLength digits : Int) + power then .infinite negative
  else if (decimalLength digits : Int) + power < -330 then .finite negative 0 minExponent
  else if 0 ≤ power then ofRatio negative (digits * tenTo power.toNat) 1
  else ofRatio negative digits (tenTo (-power).toNat)

/-- The size of `mantissa * 2 ^ exponent`, as two whole numbers. -/
def magnitude (mantissa : Nat) (exponent : Int) : Nat × Nat :=
  if 0 ≤ exponent then (mantissa * twoTo exponent.toNat, 1) else (mantissa, twoTo (-exponent).toNat)

/-- The whole part of a finite number, without its fraction. -/
def truncate (negative : Bool) (mantissa : Nat) (exponent : Int) : Int :=
  let (num, den) := magnitude mantissa exponent
  if negative then -((num / den : Nat) : Int) else (num / den : Nat)

/-- A number other than zero. -/
def isNonzero : Binary64 → Bool
  | .finite _ 0 _ => false
  | _ => true

end Binary64

end EventCalendar.Number
