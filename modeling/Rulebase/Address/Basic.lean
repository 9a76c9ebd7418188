/-!
# Addresses

An IPv4 address is a word of 32 bits, ordered by its value. Complement, conjunction and disjunction
act bit by bit.
-/

namespace Rulebase

structure Address where
  word : BitVec 32
  deriving DecidableEq, Repr, Inhabited

namespace Address

def toNat (a : Address) : Nat := a.word.toNat

def ofNat (n : Nat) : Address := ⟨BitVec.ofNat 32 n⟩

/-- The largest value of an address, `2 ^ 32 - 1`. -/
def greatest : Nat := 4294967295

instance : LE Address := ⟨fun a b => a.toNat ≤ b.toNat⟩
instance : LT Address := ⟨fun a b => a.toNat < b.toNat⟩
instance (a b : Address) : Decidable (a ≤ b) := inferInstanceAs (Decidable (a.toNat ≤ b.toNat))
instance (a b : Address) : Decidable (a < b) := inferInstanceAs (Decidable (a.toNat < b.toNat))

instance : AndOp Address := ⟨fun a b => ⟨a.word &&& b.word⟩⟩
instance : OrOp Address := ⟨fun a b => ⟨a.word ||| b.word⟩⟩
instance : Complement Address := ⟨fun a => ⟨~~~a.word⟩⟩

theorem le_iff {a b : Address} : a ≤ b ↔ a.toNat ≤ b.toNat := Iff.rfl

theorem lt_iff {a b : Address} : a < b ↔ a.toNat < b.toNat := Iff.rfl

@[simp] theorem word_and (a b : Address) : (a &&& b).word = a.word &&& b.word := rfl

@[simp] theorem word_or (a b : Address) : (a ||| b).word = a.word ||| b.word := rfl

@[simp] theorem word_complement (a : Address) : (~~~a).word = ~~~a.word := rfl

theorem toNat_inj {a b : Address} : a.toNat = b.toNat ↔ a = b := by
  cases a
  cases b
  simp [toNat, BitVec.toNat_eq]

end Address

end Rulebase
