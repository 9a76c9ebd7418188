import Mathlib.Algebra.Group.Int.Defs
import Mathlib.Algebra.Group.Nat.Defs
import Mathlib.Data.List.Induction
import Rulebase.Value

/-!
# Numbers that can be written

A number that was read from a numeral within the limit can be written again, since its digits are no more than
those of the numeral. Of a value that can be written every part can be written.
-/

namespace Rulebase

namespace Text

theorem decimalValue_lt (c : Char) : (decimalValue? c).getD 0 < 10 := by
  unfold decimalValue?
  split
  · split
    next inside =>
      have below : c.toNat ≤ 0x39 := inside.2
      show c.toNat - 0x30 < 10
      omega
    next => simp
  · cases found : decimalZeros.find? fun start => start ≤ c.toNat && c.toNat ≤ start + 9 with
    | none => simp
    | some start =>
      have inside := List.find?_some found
      simp only [Bool.and_eq_true, decide_eq_true_eq] at inside
      simp only [Option.map_some, Option.getD_some]
      omega

theorem takesAtMost_mono {limit greater n : Nat} (takes : takesAtMost limit n = true) (le : limit ≤ greater) :
    takesAtMost greater n = true :=
  takesAtMost_iff.mpr (Nat.le_trans (takesAtMost_iff.mp takes) le)

/-- The numbers of so many digits are those below the power of ten. -/
theorem takesAtMost_succ_iff {limit n : Nat} : takesAtMost (limit + 1) n = true ↔ n < 10 ^ (limit + 1) := by
  induction limit generalizing n with
  | zero => simp [takesAtMost]
  | succ limit ih =>
    have tenth : n / 10 < 10 ^ (limit + 1) ↔ n < 10 ^ (limit + 1) * 10 := Nat.div_lt_iff_lt_mul (by decide)
    have least : 10 ≤ 10 ^ (limit + 1) * 10 := Nat.le_mul_of_pos_left 10 (Nat.pow_pos (by decide))
    rw [takesAtMost, Bool.or_eq_true, decide_eq_true_iff, ih, tenth, Nat.pow_succ 10 (limit + 1)]
    exact or_iff_right_of_imp fun small => Nat.lt_of_lt_of_le small least

theorem place_append_singleton (cs : List Char) (c : Char) :
    place (cs ++ [c]) = 10 * place cs + (decimalValue? c).getD 0 := by
  simp [place]

/-- The number of a row of digits takes no more digits than the row has. -/
theorem takesAtMost_place {cs : List Char} (some : cs ≠ []) : takesAtMost cs.length (place cs) = true := by
  induction cs using List.reverseRecOn with
  | nil => exact absurd rfl some
  | append_singleton cs c ih =>
    have figure := decimalValue_lt c
    rw [List.length_append, List.length_singleton, takesAtMost, Bool.or_eq_true, decide_eq_true_iff,
      place_append_singleton]
    by_cases front : cs = []
    · subst front
      simp only [place, List.foldl_nil]
      omega
    · have tens : (10 * place cs + (decimalValue? c).getD 0) / 10 = place cs := by omega
      rw [tens]
      exact Or.inr (ih front)

/-- A number that was read can be written. -/
theorem isWritable_of_read {s : String} {n : Nat} (read : readNumeral s = .ok n) : isWritable n = true := by
  simp only [readNumeral] at read
  split at read
  · cases read
  next short =>
    split at read
    next figures =>
      cases read
      exact takesAtMost_mono (takesAtMost_place figures.1) (Nat.le_of_not_lt short)
    next => cases read

end Text

namespace Value

theorem isWritable_list {items : List Value} :
    (list items).isWritable = true ↔ ∀ v ∈ items, v.isWritable = true := by
  rw [isWritable]
  induction items with
  | nil => simp [itemsWritable]
  | cons v rest ih => simp [itemsWritable, ih]

theorem isWritable_mapping {entries : List (Value × Value)} : (mapping entries).isWritable = true ↔
    ∀ entry ∈ entries, entry.1.isWritable = true ∧ entry.2.isWritable = true := by
  rw [isWritable]
  induction entries with
  | nil => simp [entriesWritable]
  | cons entry rest ih => simp [entriesWritable, ih]

/-- What stands under a key of a mapping that can be written can be written. -/
theorem isWritable_of_get? {entries : List (Value × Value)} (writable : (mapping entries).isWritable = true)
    {key : String} {v : Value} (found : get? entries key = some v) : v.isWritable = true := by
  obtain ⟨⟨k, w⟩, listed, taken⟩ := List.exists_of_findSome?_eq_some found
  have parts := isWritable_mapping.mp writable _ listed
  cases k with
  | text k =>
    obtain ⟨_, same⟩ := Option.ite_none_right_eq_some.mp taken
    exact Option.some.inj same ▸ parts.2
  | _ => cases taken

end Value

end Rulebase
