import Rulebase.Text.Split
import Rulebase.Value

/-!
# Plain scalars

A scalar without quotes is a null, a truth, an integer of base two, eight, ten, sixteen or sixty, a
decimal fraction, or else a text; two signs stand for nothing. Underscores between digits do not count.
-/

namespace Rulebase.Yaml

/-- Why a text is no document: it is not well formed, or a numeral in it cannot be read. -/
inductive YamlError where
  | malformed
  | numeral (cause : Text.NumeralError)
  deriving DecidableEq, Repr

/-- An ASCII digit below a base of at most ten. -/
def isBelow (base : Nat) (c : Char) : Bool :=
  '0'.toNat ≤ c.toNat && c.toNat < '0'.toNat + base

/-- A digit with which a number can start. -/
def isHighest (c : Char) : Bool :=
  isBelow 10 c && c != '0'

def isHex (c : Char) : Bool :=
  isBelow 10 c || ('a' ≤ c && c ≤ 'f') || ('A' ≤ c && c ≤ 'F')

def hexValue (c : Char) : Nat :=
  if isBelow 10 c then c.toNat - '0'.toNat
  else if 'a' ≤ c then c.toNat - 'a'.toNat + 10
  else c.toNat - 'A'.toNat + 10

def placeIn (base : Nat) (cs : List Char) : Nat :=
  cs.foldl (fun n c => base * n + hexValue c) 0

def withoutUnderscores (cs : List Char) : List Char :=
  cs.filter (· ≠ '_')

/-- A non-empty row of digits and underscores. -/
def isRow (digit : Char → Bool) (cs : List Char) : Bool :=
  !cs.isEmpty && cs.all fun c => digit c || c == '_'

def splitSign : List Char → Bool × List Char
  | '-' :: cs => (true, cs)
  | '+' :: cs => (false, cs)
  | cs => (false, cs)

/-- A row of digits read in a base; there must be one besides the underscores. -/
def readIn (base : Nat) (cs : List Char) : Except YamlError Nat :=
  match withoutUnderscores cs with
  | [] => .error (.numeral (.malformed base ""))
  | row => .ok (placeIn base row)

def readDecimal (cs : List Char) : Except YamlError Nat :=
  match Text.readNumeral (String.ofList (withoutUnderscores cs)) with
  | .ok n => .ok n
  | .error cause => .error (.numeral cause)

/-- One or two digits below sixty. -/
def isSixtieth : List Char → Bool
  | [c] => isBelow 10 c
  | [tens, c] => isBelow 6 tens && isBelow 10 c
  | _ => false

/-- The magnitude of an integer of base sixty, with colons between its parts, if the characters are one. -/
def sixty? (cs : List Char) : Option (Except YamlError Nat) :=
  match Text.split ':' cs with
  | whole :: part :: parts =>
    if isRow (isBelow 10) whole && (whole.head?.map isHighest).getD false &&
        (part :: parts).all isSixtieth then
      some ((readDecimal whole).map fun n => (part :: parts).foldl (fun n p => 60 * n + placeIn 10 p) n)
    else none
  | _ => none

def magnitude? (cs : List Char) : Option (Except YamlError Nat) :=
  match cs with
  | '0' :: 'b' :: row => if isRow (isBelow 2) row then some (readIn 2 row) else none
  | '0' :: 'x' :: row => if isRow isHex row then some (readIn 16 row) else none
  | ['0'] => some (.ok 0)
  | '0' :: row => if isRow (isBelow 8) row then some (readIn 8 cs) else none
  | c :: row =>
    if isBelow 10 c && row.all (fun d => isBelow 10 d || d == '_') then some (readDecimal cs) else sixty? cs
  | [] => none

def integer? (cs : List Char) : Option (Except YamlError Value) :=
  let (negative, cs) := splitSign cs
  (magnitude? cs).map fun magnitude =>
    magnitude.map fun (n : Nat) => .int (if negative then -(n : Int) else n)

/-- The exponent behind a fraction, if the characters are one: nothing, or `e` with a sign. -/
def exponent? : List Char → Option Int
  | [] => some 0
  | e :: sign :: row =>
    if (e == 'e' || e == 'E') && !row.isEmpty && row.all (isBelow 10) then
      match sign with
      | '+' => some (placeIn 10 row)
      | '-' => some (-(placeIn 10 row : Int))
      | _ => none
    else none
  | _ => none

/-- The decimal fraction that some characters denote, if they are one. Without a whole part it has no
sign. -/
def fraction? (cs : List Char) : Option Value :=
  let signed := cs
  let (negative, cs) := splitSign cs
  let inRow (c : Char) : Bool := isBelow 10 c || c == '_'
  let whole := cs.takeWhile inRow
  match cs.dropWhile inRow with
  | '.' :: rest =>
    let isOpen := whole.isEmpty && signed == cs && (rest.head?.map (isBelow 10)).getD false
    if isOpen || (whole.head?.map (isBelow 10)).getD false then
      let part := withoutUnderscores (rest.takeWhile inRow)
      (exponent? (rest.dropWhile inRow)).map fun exponent =>
        .real (.ofDecimal negative (placeIn 10 (withoutUnderscores whole ++ part)) (exponent - part.length))
    else none
  | _ => none

/-- The words for what is above every number. -/
def infiniteWords : List String := [".inf", ".Inf", ".INF"]

def undefinedWords : List String := [".nan", ".NaN", ".NAN"]

/-- The signs that stand for nothing: they are read, but have no value. -/
def idleSigns : List String := ["=", "<<"]

def nullWords : List String := ["", "~", "null", "Null", "NULL"]

def trueWords : List String :=
  ["yes", "Yes", "YES", "true", "True", "TRUE", "on", "On", "ON"]

def falseWords : List String :=
  ["no", "No", "NO", "false", "False", "FALSE", "off", "Off", "OFF"]

def scalar (s : String) : Except YamlError Value :=
  if s ∈ nullWords then .ok .null
  else if s ∈ trueWords then .ok (.bool true)
  else if s ∈ falseWords then .ok (.bool false)
  else if s ∈ idleSigns then .error .malformed
  else if s ∈ undefinedWords then .ok (.real .undefined)
  else if String.ofList (splitSign s.toList).2 ∈ infiniteWords then
    .ok (.real (.infinite (splitSign s.toList).1))
  else match fraction? s.toList with
    | some v => .ok v
    | none => (integer? s.toList).getD (.ok (.text s))

end Rulebase.Yaml
