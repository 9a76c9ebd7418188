import Rulebase.Address.Basic
import Rulebase.Text.Numeral
import Rulebase.Text.Split

/-!
# Dotted notation

An address is written as its four octets in decimal, dots between them. Reading takes exactly the
written forms, blanks around them allowed: an octet has no superfluous zero in front and only ASCII
digits.
-/

namespace Rulebase.Address

open Text

/-- The octets of an address, the most significant first. -/
def octets (a : Address) : List Nat :=
  [a.toNat / 16777216 % 256, a.toNat / 65536 % 256, a.toNat / 256 % 256, a.toNat % 256]

def chars (a : Address) : List Char :=
  join '.' (a.octets.map digits)

def text (a : Address) : String :=
  String.ofList a.chars

instance : ToString Address := ⟨text⟩

def isAsciiDigit (c : Char) : Bool :=
  '0'.toNat ≤ c.toNat && c.toNat ≤ '9'.toNat

def octet? (cs : List Char) : Option Nat :=
  if cs ≠ [] ∧ cs.length ≤ 3 ∧ cs.all isAsciiDigit ∧ (cs = ['0'] ∨ cs.head? ≠ some '0') ∧
      place cs ≤ 255 then
    some (place cs)
  else none

def ofOctets (a b c d : Nat) : Address :=
  ofNat (a * 16777216 + b * 65536 + c * 256 + d)

def ofChars? (cs : List Char) : Option Address :=
  match split '.' cs with
  | [a, b, c, d] => do return ofOctets (← octet? a) (← octet? b) (← octet? c) (← octet? d)
  | _ => none

def parse? (s : String) : Option Address :=
  ofChars? (trim s.toList)

end Rulebase.Address
