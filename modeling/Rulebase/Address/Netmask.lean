import Rulebase.Address.Basic

/-!
# Netmasks

A netmask is a run of ones followed by a run of zeros, so its complement is one less than a power of
two. It splits an address into the base of its subnet and the place within it.
-/

namespace Rulebase.Address

def base (a mask : Address) : Address := a &&& mask

def broadcast (a mask : Address) : Address := a ||| ~~~mask

/-- A run of ones followed by a run of zeros. -/
def isNetmask (mask : Address) : Bool :=
  (~~~mask.word) &&& (~~~mask.word + 1) == 0

/-- The mask that starts with a number of ones. -/
def netmask (length : Nat) : Address :=
  ⟨BitVec.allOnes 32 <<< (32 - length)⟩

def maskLength (mask : Address) : Nat :=
  (List.range 32).countP fun i => mask.word.getLsbD i

end Rulebase.Address
