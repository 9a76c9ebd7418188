import Rulebase.Text.Blank
import Rulebase.Text.Digit
import Rulebase.Text.Quoted

/-!
# Decimal numerals

Natural numbers are written with ASCII digits and read with the decimal digits of any script, blanks
at either end allowed. A numeral longer than the limit is refused, leading zeros counted, and so is a
text with anything else in it, such as a digit without a place value. A number that takes more digits
than the limit is not written either.
-/

namespace Rulebase.Text

def numeralLimit : Nat := 4300

/-- Why a text is not read as a number, or a number not written as a text. -/
inductive NumeralError where
  /-- The text is not a numeral of the base. -/
  | malformed (base : Nat) (text : String)
  /-- The numeral has more digits than the limit. -/
  | tooLong (digits : Nat)
  /-- A number has too many digits to be written. -/
  | tooLarge
  deriving DecidableEq, Repr

/-- The digits of a number, the most significant first. -/
def digits (n : Nat) : List Char :=
  if n < 10 then [Char.ofNat ('0'.toNat + n)]
  else digits (n / 10) ++ [Char.ofNat ('0'.toNat + n % 10)]

def numeral (n : Nat) : String :=
  String.ofList (digits n)

def integer : Int → String
  | .ofNat n => numeral n
  | .negSucc n => "-" ++ numeral (n + 1)

/-- A number takes no more than so many digits. -/
def takesAtMost : (limit : Nat) → Nat → Bool
  | 0, _ => false
  | limit + 1, n => n < 10 || takesAtMost limit (n / 10)

theorem takesAtMost_iff {limit n : Nat} : takesAtMost limit n = true ↔ (digits n).length ≤ limit := by
  induction limit generalizing n with
  | zero =>
    rw [digits]
    split <;> simp [takesAtMost]
  | succ limit ih =>
    rw [digits]
    split <;> rename_i h <;> simp [takesAtMost, h, ih]

/-- An integer within the limit of numerals, its sign left out. -/
def isWritable (i : Int) : Bool :=
  takesAtMost numeralLimit i.natAbs

def place (cs : List Char) : Nat :=
  cs.foldl (fun n c => 10 * n + (decimalValue? c).getD 0) 0

/-- A blank that may stand around a numeral: any but the four ASCII separators. -/
def isNumeralBlank (c : Char) : Bool :=
  isBlank c && !(0x1C ≤ c.toNat && c.toNat ≤ 0x1F)

/-- The number a text denotes: decimal digits of any script between blanks. -/
def readNumeral (text : String) : Except NumeralError Nat :=
  let cs := text.toList.dropWhile isNumeralBlank
  let figures := cs.takeWhile isDecimal
  let rest := (cs.dropWhile isDecimal).dropWhile isNumeralBlank
  if numeralLimit < figures.length then .error (.tooLong figures.length)
  else if figures ≠ [] ∧ rest = [] then .ok (place figures)
  else .error (.malformed 10 text)

def shorten (limit : Nat) (s : String) : String :=
  String.ofList (s.toList.take limit)

def NumeralError.message : NumeralError → String
  | .malformed base text =>
    "invalid literal for int() with base " ++ numeral base ++ ": " ++ shorten 200 (quote text)
  | .tooLong digits =>
    "Exceeds the limit (" ++ numeral numeralLimit ++ " digits) for integer string conversion: value has "
      ++ numeral digits ++ " digits; use sys.set_int_max_str_digits() to increase the limit"
  | .tooLarge =>
    "Exceeds the limit (" ++ numeral numeralLimit ++
      " digits) for integer string conversion; use sys.set_int_max_str_digits() to increase the limit"

end Rulebase.Text
