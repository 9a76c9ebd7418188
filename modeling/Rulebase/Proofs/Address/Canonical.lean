import Mathlib.Data.List.Induction
import Rulebase.Proofs.Object.Written

/-!
# Dotted notation is canonical

A row of ASCII digits without a superfluous zero in front is the row that its number is written with. So an octet is
read from its own digits only, an address from its own text only, blanks around it apart, and no two addresses have one
text.
-/

namespace Rulebase.Address

open Text

theorem exists_figure_of_isAsciiDigit {c : Char} (digit : isAsciiDigit c = true) :
    ∃ k < 10, decimalValue? c = some k ∧ c = Char.ofNat ('0'.toNat + k) := by
  simp only [isAsciiDigit, Bool.and_eq_true, decide_eq_true_eq] at digit
  have low : 48 ≤ c.toNat := digit.1
  have high : c.toNat ≤ 57 := digit.2
  refine ⟨c.toNat - 48, by omega, ?_, ?_⟩
  · have small : c.toNat < 128 := by omega
    rw [decimalValue?, if_pos small, if_pos digit]
    rfl
  · have whole : '0'.toNat + (c.toNat - 48) = c.toNat := Nat.add_sub_cancel' low
    rw [whole, Char.ofNat_toNat]

/-- A row of ASCII digits without a superfluous zero in front is what its number is written with. -/
theorem digits_place {cs : List Char} (filled : cs ≠ []) (ascii : ∀ c ∈ cs, isAsciiDigit c = true)
    (leading : cs = ['0'] ∨ cs.head? ≠ some '0') : digits (place cs) = cs := by
  induction cs using List.reverseRecOn with
  | nil => exact absurd rfl filled
  | append_singleton front c ih =>
    obtain ⟨earlier, last⟩ := List.forall_mem_append.mp ascii
    obtain ⟨k, small, value, rfl⟩ := exists_figure_of_isAsciiDigit (last c List.mem_cons_self)
    rw [place_append_singleton, value, Option.getD_some]
    cases front with
    | nil =>
      have single : 10 * place [] + k = k := by simp [place]
      rw [single, digits, if_pos small, List.nil_append]
    | cons d front =>
      have first : (d :: front).head? ≠ some '0' := by
        rcases leading with zero | other
        · simp at zero
        · exact other
      have written := ih (List.cons_ne_nil d front) earlier (Or.inr first)
      have positive : 0 < place (d :: front) := by
        refine Nat.pos_of_ne_zero fun zero => first ?_
        rw [← written, zero, digits]
        rfl
      have tens : (10 * place (d :: front) + k) / 10 = place (d :: front) := by omega
      have ones : (10 * place (d :: front) + k) % 10 = k := by omega
      have large : ¬ 10 * place (d :: front) + k < 10 := by omega
      rw [digits, if_neg large, tens, ones, written]

/-- An octet is read from its digits and from nothing else. -/
theorem octet?_eq_some_iff {cs : List Char} {n : Nat} : octet? cs = some n ↔ n ≤ 255 ∧ cs = digits n := by
  constructor
  · intro read
    rw [octet?] at read
    split at read
    next form =>
      obtain ⟨filled, _, ascii, leading, bounded⟩ := form
      cases read
      exact ⟨bounded, (digits_place filled (List.all_eq_true.mp ascii) leading).symm⟩
    next => cases read
  · rintro ⟨small, rfl⟩
    exact octet?_digits small

variable {w x y z : Nat}

theorem toNat_ofOctets (first : w ≤ 255) (second : x ≤ 255) (third : y ≤ 255) (fourth : z ≤ 255) :
    (ofOctets w x y z).toNat = w * 16777216 + x * 65536 + y * 256 + z := by
  rw [ofOctets, ofNat, toNat, BitVec.toNat_ofNat]
  exact Nat.mod_eq_of_lt (by omega)

theorem octets_ofOctets (first : w ≤ 255) (second : x ≤ 255) (third : y ≤ 255) (fourth : z ≤ 255) :
    (ofOctets w x y z).octets = [w, x, y, z] := by
  rw [octets, toNat_ofOctets first second third fourth]
  simp only [List.cons.injEq, and_true]
  omega

/-- The characters of an address are the only ones that it is read from. -/
theorem ofChars?_eq_some_iff {cs : List Char} {a : Address} : ofChars? cs = some a ↔ cs = a.chars := by
  constructor
  · intro read
    unfold ofChars? at read
    split at read
    next p q r s parts =>
      simp only [Option.bind_eq_bind, Option.bind_eq_some_iff] at read
      obtain ⟨w, readFirst, x, readSecond, y, readThird, z, readFourth, made⟩ := read
      obtain ⟨first, rfl⟩ := octet?_eq_some_iff.mp readFirst
      obtain ⟨second, rfl⟩ := octet?_eq_some_iff.mp readSecond
      obtain ⟨third, rfl⟩ := octet?_eq_some_iff.mp readThird
      obtain ⟨fourth, rfl⟩ := octet?_eq_some_iff.mp readFourth
      cases made
      rw [chars, octets_ofOctets first second third fourth, ← join_split '.' cs, parts]
      rfl
    next => cases read
  · rintro rfl
    exact ofChars?_chars a

theorem parse?_eq_some_iff {t : String} {a : Address} : parse? t = some a ↔ strip t = a.text := by
  rw [parse?, ofChars?_eq_some_iff, strip, text, String.ofList_inj]

/-- An address is built from a text just when the text, blanks at its ends left out, is that of the address. -/
theorem build_text_eq_ok_iff {t : String} {a : Address} : build (.text t) = .ok a ↔ strip t = a.text := by
  rw [← parse?_eq_some_iff, build]
  split
  next b read => rw [read]; simp
  next none => rw [none]; simp [refuse]

theorem text_inj {a b : Address} : a.text = b.text ↔ a = b := by
  constructor
  · intro same
    have read := b.parse?_text
    rw [← same, a.parse?_text] at read
    exact Option.some.inj read
  · rintro rfl
    rfl

/-- An address is written as four octets in decimal, dots between them. -/
theorem exists_octets (a : Address) :
    ∃ w x y z, w ≤ 255 ∧ x ≤ 255 ∧ y ≤ 255 ∧ z ≤ 255 ∧
      a.toNat = w * 16777216 + x * 65536 + y * 256 + z ∧
      a.text = numeral w ++ "." ++ numeral x ++ "." ++ numeral y ++ "." ++ numeral z := by
  have bound : a.toNat < 2 ^ 32 := a.word.isLt
  refine ⟨a.toNat / 16777216 % 256, a.toNat / 65536 % 256, a.toNat / 256 % 256, a.toNat % 256, by omega, by omega,
    by omega, by omega, by omega, String.toList_inj.mp ?_⟩
  simp [text, chars, octets, join, numeral]

/-- The text of an address is four octets in decimal with dots between them. A text, blanks at its ends left out, is
read as the address whose text it is, and refused when it is the text of none. So each address is read from its own
text, and no two addresses have one text. -/
theorem text_canonical :
    (∀ a : Address, ∃ w x y z, w ≤ 255 ∧ x ≤ 255 ∧ y ≤ 255 ∧ z ≤ 255 ∧
      a.toNat = w * 16777216 + x * 65536 + y * 256 + z ∧
      a.text = numeral w ++ "." ++ numeral x ++ "." ++ numeral y ++ "." ++ numeral z) ∧
    (∀ (t : String) (a : Address), build (.text t) = .ok a ↔ strip t = a.text) ∧
    (∀ t : String, (∃ a : Address, strip t = a.text) ∨
      build (.text t) = .error (.invalid (.malformedAddress (.text t)))) ∧
    (∀ a : Address, build (.text a.text) = .ok a) ∧
    ∀ a b : Address, a.text = b.text ↔ a = b := by
  refine ⟨exists_octets, fun t a => build_text_eq_ok_iff, fun t => ?_, build_text, fun a b => text_inj⟩
  cases read : parse? t with
  | some a => exact Or.inl ⟨a, parse?_eq_some_iff.mp read⟩
  | none => exact Or.inr (by rw [build, read]; rfl)

end Rulebase.Address
