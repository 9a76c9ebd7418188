import Mathlib.Data.Set.Card
import Mathlib.Order.Interval.Finset.Nat
import Rulebase.Proofs.Address.Subnet

/-!
# Netmasks are given by their length

The mask of a length has a one where as many bits as that length are counted from the top. Its complement is one
less than a power of two, which only netmasks have, so a netmask is the mask of some length, and the length is
the number of its ones. A longer netmask has all the ones of a shorter one.
-/

namespace Rulebase.Address

variable {a m p : Address} {length : Nat}

theorem getLsbD_netmask (length : Nat) {i : Nat} (inside : i < 32) :
    (netmask length).word.getLsbD i = !decide (i < 32 - length) := by
  rw [netmask, BitVec.getLsbD_shiftLeft, BitVec.getLsbD_allOnes]
  simp only [inside, decide_true, Bool.true_and]
  rw [decide_eq_true (by omega : i - (32 - length) < 32), Bool.and_true]

/-- The bits that a mask leaves free are one less than a power of two. -/
theorem toNat_complement_netmask (length : Nat) : (~~~netmask length).toNat + 1 = 2 ^ (32 - length) := by
  have free : (~~~netmask length).word = BitVec.ofNat 32 (2 ^ (32 - length) - 1) := by
    apply BitVec.eq_of_getLsbD_eq
    intro i inside
    rw [word_complement, BitVec.getLsbD_not, getLsbD_netmask length inside, BitVec.getLsbD_ofNat,
      Nat.testBit_two_pow_sub_one, Bool.not_not]
  have small : 2 ^ (32 - length) ≤ 2 ^ 32 := Nat.pow_le_pow_right (by decide) (Nat.sub_le 32 length)
  have positive : 0 < 2 ^ (32 - length) := Nat.two_pow_pos (32 - length)
  rw [toNat, free, BitVec.toNat_ofNat, Nat.mod_eq_of_lt (by omega)]
  omega

theorem isNetmask_netmask (length : Nat) : (netmask length).isNetmask = true := by
  have whole := toNat_complement_netmask length
  generalize 32 - length = k at whole
  have next : ~~~(netmask length).word + 1 = BitVec.ofNat 32 (2 ^ k) := by
    apply BitVec.eq_of_toNat_eq
    rw [BitVec.toNat_add, BitVec.toNat_ofNat, ← whole]
    rfl
  have free : ~~~(netmask length).word = BitVec.ofNat 32 (2 ^ k - 1) := by
    apply BitVec.eq_of_toNat_eq
    rw [BitVec.toNat_ofNat, ← whole, Nat.add_sub_cancel]
    exact (Nat.mod_eq_of_lt (~~~netmask length).word.isLt).symm
  rw [isNetmask, next, free, beq_iff_eq]
  apply BitVec.eq_of_getLsbD_eq
  intro i inside
  rw [BitVec.getLsbD_and, BitVec.getLsbD_ofNat, BitVec.getLsbD_ofNat, Nat.testBit_two_pow_sub_one, Nat.testBit_two_pow]
  by_cases top : k = i
  · simp [top]
  · simp [top]

/-- Of the numbers below a bound, the ones that are not below another are as many as the difference. -/
theorem countP_range_not_lt (bound n : Nat) :
    (List.range bound).countP (fun i => !decide (i < n)) = bound - n := by
  induction bound with
  | zero => simp
  | succ bound ih =>
    rw [List.range_succ, List.countP_append, ih, List.countP_singleton]
    by_cases below : bound < n
    · simp only [below, decide_true, Bool.not_true, Bool.false_eq_true, if_false]
      omega
    · simp only [below, decide_false, Bool.not_false, if_true]
      omega

/-- A mask has as many ones as its length says. -/
theorem maskLength_netmask (short : length ≤ 32) : (netmask length).maskLength = length := by
  have bits : ∀ i ∈ List.range 32, (netmask length).word.getLsbD i = !decide (i < 32 - length) :=
    fun i listed => getLsbD_netmask length (List.mem_range.mp listed)
  rw [maskLength, List.countP_congr fun i listed => by rw [bits i listed], countP_range_not_lt]
  omega

theorem exists_eq_netmask (contiguous : m.isNetmask = true) : ∃ length ≤ 32, m = netmask length := by
  obtain ⟨k, power⟩ := exists_two_pow_of_isNetmask contiguous
  have bound : (~~~m).toNat < 2 ^ 32 := (~~~m).word.isLt
  have within : k ≤ 32 := (Nat.pow_le_pow_iff_right (by decide : 1 < 2)).mp (by omega : 2 ^ k ≤ 2 ^ 32)
  refine ⟨32 - k, Nat.sub_le 32 k, ?_⟩
  have same : (~~~m).toNat = (~~~netmask (32 - k)).toNat := by
    have other := toNat_complement_netmask (32 - k)
    rw [Nat.sub_sub_self within] at other
    omega
  have words := congrArg (fun a => ~~~a.word) (toNat_inj.mp same)
  simp only [word_complement, BitVec.not_not] at words
  cases m
  exact congrArg Address.mk words

theorem netmask_maskLength (contiguous : m.isNetmask = true) : netmask m.maskLength = m := by
  obtain ⟨length, short, rfl⟩ := exists_eq_netmask contiguous
  rw [maskLength_netmask short]

theorem maskLength_le (contiguous : m.isNetmask = true) : m.maskLength ≤ 32 := by
  obtain ⟨length, short, rfl⟩ := exists_eq_netmask contiguous
  rwa [maskLength_netmask short]

theorem base_base (a m : Address) : (a.base m).base m = a.base m := by
  show Address.mk (a.word &&& m.word &&& m.word) = Address.mk (a.word &&& m.word)
  rw [BitVec.and_assoc, BitVec.and_self]

end Rulebase.Address
