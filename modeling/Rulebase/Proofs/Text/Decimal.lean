import Mathlib.Algebra.Group.Nat.Defs
import Rulebase.Proofs.Text.Legible
import Rulebase.Proofs.Text.Writable

/-!
# Numerals read back

The digits of a number are ASCII digits, and the number they denote is the number they were written for. So a
numeral that is not too long is read as its number.
-/

namespace Rulebase.Text

variable {c : Char}

theorem decimalValue?_figure {k : Nat} (small : k < 10) : decimalValue? (Char.ofNat ('0'.toNat + k)) = some k := by
  decide +revert

theorem digits_ne_nil (n : Nat) : digits n ≠ [] := by
  rw [digits]
  split <;> simp

/-- A number below a power of ten has as many digits as the exponent at most. -/
theorem length_digits_le {n k : Nat} (positive : 0 < k) (small : n < 10 ^ k) : (digits n).length ≤ k := by
  obtain ⟨limit, rfl⟩ := Nat.exists_eq_succ_of_ne_zero (Nat.ne_of_gt positive)
  exact takesAtMost_iff.mp (takesAtMost_succ_iff.mpr small)

theorem place_digits (n : Nat) : place (digits n) = n := by
  induction n using digits.induct with
  | case1 n small =>
    rw [digits, if_pos small, place, List.foldl_cons, List.foldl_nil, decimalValue?_figure small]
    exact Nat.zero_add n
  | case2 n large ih =>
    have value := decimalValue?_figure (Nat.mod_lt n (by decide : 0 < 10))
    rw [digits, if_neg large, place_append_singleton, ih, value, Option.getD_some]
    omega

theorem exists_figure_of_mem_digits {n : Nat} (found : c ∈ digits n) :
    ∃ k < 10, c = Char.ofNat ('0'.toNat + k) := by
  induction n using digits.induct with
  | case1 n small =>
    rw [digits, if_pos small] at found
    exact ⟨n, small, List.mem_singleton.mp found⟩
  | case2 n large ih =>
    rw [digits, if_neg large] at found
    rcases List.mem_append.mp found with front | last
    · exact ih front
    · exact ⟨n % 10, Nat.mod_lt n (by decide), List.mem_singleton.mp last⟩

theorem isDecimal_of_mem_digits {n : Nat} (found : c ∈ digits n) : isDecimal c = true := by
  obtain ⟨k, small, rfl⟩ := exists_figure_of_mem_digits found
  rw [isDecimal, decimalValue?_figure small, Option.isSome_some]

theorem notMem_digits (other : isDecimal c = false) (n : Nat) : c ∉ digits n :=
  fun found => Bool.false_ne_true (other.symm.trans (isDecimal_of_mem_digits found))

theorem isDigits_digits (n : Nat) : isDigits (digits n) = true := by
  simp only [isDigits, Bool.and_eq_true, Bool.not_eq_true', List.isEmpty_eq_false_iff, List.all_eq_true]
  exact ⟨digits_ne_nil n, fun c found => isDigit_of_isDecimal (isDecimal_of_mem_digits found)⟩

/-- A number that can be written is read back from its numeral. -/
theorem readNumeral_digits {n : Nat} (short : (digits n).length ≤ numeralLimit) :
    readNumeral (String.ofList (digits n)) = .ok n := by
  have decimal : ∀ c ∈ digits n, isDecimal c = true := fun c => isDecimal_of_mem_digits
  have solid : (digits n).dropWhile isNumeralBlank = digits n := by
    refine List.dropWhile_eq_self_iff.mpr fun inside => ?_
    simp [isNumeralBlank, isBlank_of_isDecimal (decimal _ (List.getElem_mem inside))]
  have figures : (digits n).takeWhile isDecimal = digits n := List.takeWhile_eq_self_iff.mpr decimal
  have nothing : (digits n).dropWhile isDecimal = [] := List.dropWhile_eq_nil_iff.mpr decimal
  simp only [readNumeral, String.toList_ofList, solid, figures, nothing, List.dropWhile_nil]
  rw [if_neg (Nat.not_lt.mpr short), if_pos ⟨digits_ne_nil n, trivial⟩, place_digits]

end Rulebase.Text
