import Mathlib.Data.Nat.Bitwise
import Rulebase.Address.Netmask

/-!
# Subnets are intervals

The bits that a netmask leaves free are one less than a power of two. A base address is a multiple of that power,
so the addresses with this base are those from the base address to the last address of the subnet.
-/

namespace Rulebase.Address

/-- A number that has no bit in common with the next one is one less than a power of two. -/
theorem exists_two_pow_of_and_succ {n : Nat} (disjoint : n &&& (n + 1) = 0) : ∃ k, n + 1 = 2 ^ k := by
  induction n using Nat.strongRecOn with
  | ind n ih =>
    have halves : n / 2 &&& (n + 1) / 2 = 0 := by rw [← Nat.and_div_two, disjoint]
    rcases Nat.mod_two_eq_zero_or_one n with even | odd
    · -- the next number has the same half, which is therefore zero
      rw [show (n + 1) / 2 = n / 2 by omega, Nat.and_self] at halves
      exact ⟨0, by omega⟩
    · rw [show (n + 1) / 2 = n / 2 + 1 by omega] at halves
      obtain ⟨k, power⟩ := ih (n / 2) (by omega) halves
      exact ⟨k + 1, by rw [Nat.pow_succ]; omega⟩

/-- The bits that a netmask leaves free are one less than a power of two. -/
theorem exists_two_pow_of_isNetmask {mask : Address} (contiguous : mask.isNetmask = true) :
    ∃ k, (~~~mask).toNat + 1 = 2 ^ k := by
  have disjoint : ~~~mask.word &&& (~~~mask.word + 1) = 0 := beq_iff_eq.mp contiguous
  have free : (~~~mask).toNat = (~~~mask.word).toNat := rfl
  rw [free]
  generalize ~~~mask.word = w at disjoint
  have bound := w.isLt
  by_cases all : w.toNat + 1 = 2 ^ 32
  · exact ⟨32, all⟩
  · refine exists_two_pow_of_and_succ ?_
    have next : (w + 1).toNat = w.toNat + 1 := by
      rw [BitVec.toNat_add]
      exact Nat.mod_eq_of_lt (by simp; omega)
    rw [← next, ← BitVec.toNat_and, disjoint]
    rfl

variable {a mask p : Address}

/-- The base of an address and its place within the subnet make up the address. -/
theorem base_add_free (p mask : Address) : (p.base mask).toNat + (p &&& ~~~mask).toNat = p.toNat := by
  have disjoint : (p.word &&& mask.word) &&& (p.word &&& ~~~mask.word) = 0#32 := by
    ext i
    simp only [BitVec.getElem_and, BitVec.getElem_not, BitVec.getElem_zero]
    cases mask.word[i] <;> simp
  have joined : p.word &&& mask.word ||| p.word &&& ~~~mask.word = p.word := by
    ext i
    simp only [BitVec.getElem_or, BitVec.getElem_and, BitVec.getElem_not]
    cases p.word[i] <;> simp
  show (p.word &&& mask.word).toNat + (p.word &&& ~~~mask.word).toNat = p.word.toNat
  rw [← BitVec.toNat_add_of_and_eq_zero disjoint, BitVec.add_eq_or_of_and_eq_zero _ _ disjoint, joined]

/-- A base address has no bit that its mask leaves free. -/
theorem free_of_base (isBase : a.base mask = a) : (a &&& ~~~mask).toNat = 0 := by
  have whole := base_add_free a mask
  rw [isBase] at whole
  omega

/-- The last address of a subnet has all the bits that the mask leaves free. -/
theorem toNat_broadcast (isBase : a.base mask = a) : (a.broadcast mask).toNat = a.toNat + (~~~mask).toNat := by
  have disjoint : a.word &&& ~~~mask.word = 0#32 := BitVec.eq_of_toNat_eq (free_of_base isBase)
  show (a.word ||| ~~~mask.word).toNat = a.word.toNat + (~~~mask.word).toNat
  rw [← BitVec.add_eq_or_of_and_eq_zero _ _ disjoint, BitVec.toNat_add_of_and_eq_zero disjoint]

/-- The addresses with a base are those from the base address to the last address of the subnet. -/
theorem base_eq_iff (contiguous : mask.isNetmask = true) (isBase : a.base mask = a) :
    p.base mask = a ↔ a ≤ p ∧ p ≤ a.broadcast mask := by
  obtain ⟨k, power⟩ := exists_two_pow_of_isNetmask contiguous
  have positive : 0 < 2 ^ k := Nat.two_pow_pos k
  have place (b : Address) : (b &&& ~~~mask).toNat = b.toNat % 2 ^ k := by
    rw [← Nat.and_two_pow_sub_one_eq_mod, ← power, Nat.add_sub_cancel]
    exact BitVec.toNat_and _ _
  have whole := base_add_free p mask
  have aligned := free_of_base isBase
  rw [place] at whole aligned
  rw [← toNat_inj, le_iff, le_iff, toNat_broadcast isBase]
  have within := Nat.mod_lt p.toNat positive
  constructor
  · intro same
    omega
  · rintro ⟨above, below⟩
    have shifted : p.toNat % 2 ^ k = p.toNat - a.toNat := by
      obtain ⟨c, multiple⟩ := Nat.dvd_of_mod_eq_zero aligned
      rw [show p.toNat = 2 ^ k * c + (p.toNat - a.toNat) by omega, Nat.mul_add_mod,
        Nat.mod_eq_of_lt (by omega)]
      omega
    omega

end Rulebase.Address
