import Rulebase.Proofs.Text.Decimal
import Rulebase.Proofs.Text.Parts

/-!
# Dotted notation reads back

The four octets of an address are written without superfluous zeros, so each is read as itself, and together they make
up the address again.
-/

namespace Rulebase.Address

open Text

theorem isAsciiDigit_figure {k : Nat} (small : k < 10) : isAsciiDigit (Char.ofNat ('0'.toNat + k)) = true := by
  decide +revert

theorem head?_digits {n : Nat} (positive : 0 < n) : (digits n).head? ≠ some '0' := by
  induction n using digits.induct with
  | case1 n small =>
    rw [digits, if_pos small]
    decide +revert
  | case2 n large ih =>
    rw [digits, if_neg large, List.head?_append_of_ne_nil _ (digits_ne_nil _)]
    exact ih (by omega)

theorem length_digits_octet {n : Nat} (small : n ≤ 255) : (digits n).length ≤ 3 :=
  length_digits_le (by decide) (by omega)

theorem octet?_digits {n : Nat} (small : n ≤ 255) : octet? (digits n) = some n := by
  have ascii : (digits n).all isAsciiDigit = true := by
    refine List.all_eq_true.mpr fun c found => ?_
    obtain ⟨k, small, rfl⟩ := exists_figure_of_mem_digits found
    exact isAsciiDigit_figure small
  have leading : digits n = ['0'] ∨ (digits n).head? ≠ some '0' := by
    rcases Nat.eq_zero_or_pos n with rfl | positive
    · exact Or.inl (by simp [digits])
    · exact Or.inr (head?_digits positive)
  have value := place_digits n
  rw [octet?, if_pos ⟨digits_ne_nil n, length_digits_octet small, ascii, leading, value.symm ▸ small⟩, value]

theorem ofNat_toNat (a : Address) : ofNat a.toNat = a := by
  cases a
  simp [ofNat, toNat]

theorem octets_le (a : Address) : ∀ n ∈ a.octets, n ≤ 255 := by
  simp only [octets, List.forall_mem_cons, List.not_mem_nil, false_implies, implies_true, and_true]
  omega

theorem ofOctets_octets (a : Address) :
    ofOctets (a.toNat / 16777216 % 256) (a.toNat / 65536 % 256) (a.toNat / 256 % 256) (a.toNat % 256) = a := by
  have bound : a.toNat < 2 ^ 32 := a.word.isLt
  rw [ofOctets]
  refine Eq.trans (congrArg ofNat ?_) (ofNat_toNat a)
  omega

theorem isDecimal_or_dot_of_mem_chars {a : Address} {c : Char} (found : c ∈ a.chars) :
    isDecimal c = true ∨ c = '.' := by
  rcases mem_of_mem_join found with dot | ⟨part, listed, inside⟩
  · exact Or.inr dot
  · obtain ⟨n, _, rfl⟩ := List.mem_map.mp listed
    exact Or.inl (isDecimal_of_mem_digits inside)

theorem dot_mem_chars (a : Address) : '.' ∈ a.chars := by
  simp [chars, octets, join]

theorem chars_ne_nil (a : Address) : a.chars ≠ [] :=
  List.ne_nil_of_mem a.dot_mem_chars

theorem split_chars (a : Address) : split '.' a.chars = a.octets.map digits := by
  refine split_join (by simp [octets]) fun part listed => ?_
  obtain ⟨n, _, rfl⟩ := List.mem_map.mp listed
  exact notMem_digits rfl n

theorem ofChars?_chars (a : Address) : ofChars? a.chars = some a := by
  have small := a.octets_le
  simp only [octets, List.forall_mem_cons, List.not_mem_nil, false_implies, implies_true, and_true] at small
  obtain ⟨first, second, third, fourth⟩ := small
  rw [ofChars?, split_chars]
  simp only [octets, List.map_cons, List.map_nil]
  rw [octet?_digits first, octet?_digits second, octet?_digits third, octet?_digits fourth]
  exact congrArg some (ofOctets_octets a)

/-- A character other than a decimal digit and a dot is in no address. -/
theorem notMem_chars {c : Char} (other : isDecimal c = false) (undotted : c ≠ '.') (a : Address) : c ∉ a.chars := by
  intro found
  rcases isDecimal_or_dot_of_mem_chars found with decimal | dot
  · exact Bool.false_ne_true (other.symm.trans decimal)
  · exact undotted dot

theorem isBlank_of_mem_chars {a : Address} {c : Char} (found : c ∈ a.chars) : isBlank c = false := by
  rcases isDecimal_or_dot_of_mem_chars found with decimal | rfl
  · exact isBlank_of_isDecimal decimal
  · rfl

/-- An address is read from its text. -/
theorem parse?_text (a : Address) : parse? a.text = some a := by
  rw [parse?, text, String.toList_ofList, trim_eq_self fun c found => isBlank_of_mem_chars found, ofChars?_chars]

end Rulebase.Address
