/-!
# Double-precision numbers

A finite number is a sign and `mantissa * 2 ^ exponent`, held with the largest mantissa below `2 ^ 53`
that the least exponent allows, so equal numbers of one sign have equal fields. Reading a decimal takes
the nearest number, and the one with the even mantissa of two.
-/

namespace Rulebase

inductive Binary64 where
  | finite (negative : Bool) (mantissa : Nat) (exponent : Int)
  | infinite (negative : Bool)
  | undefined
  deriving DecidableEq, Repr

namespace Binary64

def leastExponent : Int := -1074

def greatestExponent : Int := 971

/-- The quotient rounded to the nearest natural number, a half to the even one. -/
def roundDiv (numerator denominator : Nat) : Nat :=
  let quotient := numerator / denominator
  let twice := 2 * (numerator % denominator)
  if twice < denominator then quotient
  else if denominator < twice then quotient + 1
  else quotient + quotient % 2

def scale (base numerator denominator : Nat) (exponent : Int) : Nat × Nat :=
  if exponent < 0 then (numerator * Nat.pow base exponent.natAbs, denominator)
  else (numerator, denominator * Nat.pow base exponent.natAbs)

/-- The least full mantissa, `2 ^ 52`. -/
def leastFull : Nat := 4503599627370496

/-- The exponent at which a positive fraction has a full mantissa, or the least one. -/
def exponentOf (numerator denominator : Nat) : Int :=
  let guess : Int := (numerator.log2 : Int) - denominator.log2 - 52
  let (top, bottom) := scale 2 numerator denominator guess
  max leastExponent (if top / bottom < leastFull then guess - 1 else guess)

def ofFraction (negative : Bool) (numerator denominator : Nat) : Binary64 :=
  let exponent := exponentOf numerator denominator
  let (top, bottom) := scale 2 numerator denominator exponent
  let mantissa := roundDiv top bottom
  let (mantissa, exponent) :=
    if mantissa = 2 * leastFull then (leastFull, exponent + 1) else (mantissa, exponent)
  if greatestExponent < exponent then .infinite negative
  else if mantissa = 0 then .finite negative 0 leastExponent
  else .finite negative mantissa exponent

def digitCount (n : Nat) : Nat :=
  if n = 0 then 0 else digitCount (n / 10) + 1

def ofDecimal (negative : Bool) (digits : Nat) (exponent : Int) : Binary64 :=
  if digits = 0 then .finite negative 0 leastExponent
  else
    let position := exponent + digitCount digits
    if 310 < position then .infinite negative
    else if position < -330 then .finite negative 0 leastExponent
    else
      let (numerator, denominator) := scale 10 digits 1 (-exponent)
      ofFraction negative numerator denominator

/-- Neither zero of the two signs is a truth. -/
def isZero : Binary64 → Bool
  | finite _ mantissa _ => mantissa == 0
  | _ => false

/-- The order of a number and `mantissa * 2 ^ exponent`; nothing when the number is undefined. -/
def compareDyadic? (x : Binary64) (mantissa exponent : Int) : Option Ordering :=
  match x with
  | .undefined => none
  | .infinite negative => some (if negative then .lt else .gt)
  | .finite negative m q =>
    let signed : Int := if negative then -(m : Int) else m
    let least := min q exponent
    some (compare (signed * Nat.pow 2 (q - least).natAbs) (mantissa * Nat.pow 2 (exponent - least).natAbs))

def compareInt? (x : Binary64) (i : Int) : Option Ordering :=
  x.compareDyadic? i 0

def compare? : Binary64 → Binary64 → Option Ordering
  | x, .finite negative m q => x.compareDyadic? (if negative then -(m : Int) else m) q
  | .undefined, _ | _, .undefined => none
  | .infinite a, .infinite b => some (compare b a)
  | .finite .., .infinite negative => some (if negative then .gt else .lt)

end Binary64

end Rulebase
