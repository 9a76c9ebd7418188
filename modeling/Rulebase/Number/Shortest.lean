import Rulebase.Number.Binary64
import Rulebase.Text.Numeral

/-!
# The shortest decimal

A number is written with the fewest digits that read back as the same number, the nearest of those to
it. On the grid of the multiples of a power of ten only the two neighbours of the number can be
nearest, so the search tries ever finer grids and stops at the first with a neighbour that reads back.
-/

namespace Rulebase.Binary64

open Text

/-- A decimal `digits * 10 ^ exponent`. -/
structure DecimalForm where
  digits : Nat
  exponent : Int
  deriving DecidableEq, Repr

/-- The neighbours below and above a positive fraction on the grid of the multiples of a power of ten,
the nearer first, and of two equally near the one with the even count. -/
def neighbours (numerator denominator : Nat) (exponent : Int) : List DecimalForm :=
  let (top, bottom) := scale 10 numerator denominator exponent
  let below := top / bottom
  let twice := 2 * (top % bottom)
  if twice < bottom ∨ (twice = bottom ∧ below % 2 = 0) then [⟨below, exponent⟩, ⟨below + 1, exponent⟩]
  else [⟨below + 1, exponent⟩, ⟨below, exponent⟩]

/-- The decimal with the fewest digits among those that read back, from a grid down to finer ones. -/
def shortestFrom (numerator denominator : Nat) (x : Binary64) : (tries : Nat) → Int → DecimalForm
  | 0, exponent => ⟨0, exponent⟩
  | tries + 1, exponent =>
    match (neighbours numerator denominator exponent).find?
        fun d => d.digits ≠ 0 ∧ ofDecimal false d.digits d.exponent = x with
    | some d => d
    | none => shortestFrom numerator denominator x tries (exponent - 1)

def shortest (mantissa : Nat) (exponent : Int) : DecimalForm :=
  let (numerator, denominator) := scale 2 mantissa 1 (-exponent)
  let leading : Int :=
    if denominator ≤ numerator then digitCount (numerator / denominator)
    else 1 - digitCount (denominator / numerator)
  shortestFrom numerator denominator (.finite false mantissa exponent) 20 leading

/-- Where positional notation ends: the point stands within this many digits after the first, or
within four zeros before it. -/
def positionalLimit : Int := 16

def trimZeros (d : DecimalForm) : List Char × Int :=
  let figures := Text.digits d.digits
  let kept := (figures.reverse.dropWhile (· = '0')).reverse
  (kept, d.exponent + figures.length)

/-- The digits with a point after the first `point` of them: positional near the point, and with an
exponent of at least two digits elsewhere. -/
def layout (figures : List Char) (point : Int) : List Char :=
  if -4 < point ∧ point ≤ positionalLimit then
    if point ≤ 0 then '0' :: '.' :: List.replicate point.natAbs '0' ++ figures
    else if figures.length ≤ point.natAbs then
      figures ++ List.replicate (point.natAbs - figures.length) '0' ++ ['.', '0']
    else figures.take point.natAbs ++ '.' :: figures.drop point.natAbs
  else
    let fraction := figures.drop 1
    let power := point - 1
    let powerDigits := Text.digits power.natAbs
    figures.take 1 ++ (if fraction = [] then [] else '.' :: fraction) ++
      'e' :: (if power < 0 then '-' else '+') ::
        (if powerDigits.length < 2 then '0' :: powerDigits else powerDigits)

def text : Binary64 → String
  | .undefined => "nan"
  | .infinite negative => if negative then "-inf" else "inf"
  | .finite negative mantissa exponent =>
    let magnitude :=
      if mantissa = 0 then ['0', '.', '0']
      else
        let (figures, point) := trimZeros (shortest mantissa exponent)
        layout figures point
    String.ofList (if negative then '-' :: magnitude else magnitude)

end Rulebase.Binary64
