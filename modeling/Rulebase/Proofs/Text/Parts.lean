import Rulebase.Text.Split

/-!
# Parts between separators

Joining undoes splitting, so a text that splits in some parts is these parts with the separator between them. A
separator in no part lets the text split again into the parts that it was joined from.
-/

namespace Rulebase.Text

variable {separator c : Char} {cs : List Char}

/-- A character of joined parts is the separator, or one of a part. -/
theorem mem_of_mem_join {parts : List (List Char)} (found : c ∈ join separator parts) :
    c = separator ∨ ∃ part ∈ parts, c ∈ part := by
  induction parts using join.induct with
  | case1 => cases found
  | case2 part => exact Or.inr ⟨part, List.mem_singleton_self part, found⟩
  | case3 part parts several ih =>
    rw [join] at found
    · rcases List.mem_append.mp found with here | later
      · exact Or.inr ⟨part, List.mem_cons_self, here⟩
      · rcases List.mem_cons.mp later with same | later
        · exact Or.inl same
        · rcases ih later with same | ⟨other, listed, inside⟩
          · exact Or.inl same
          · exact Or.inr ⟨other, List.mem_cons_of_mem _ listed, inside⟩
    · exact several

/-- A text that splits in two is its parts with the separator between them. -/
theorem eq_of_split_eq_pair {left right : List Char} (parts : split separator cs = [left, right]) :
    cs = left ++ separator :: right := by
  rw [← join_split separator cs, parts]
  rfl

theorem eq_of_split_eq_singleton {part : List Char} (parts : split separator cs = [part]) : cs = part := by
  rw [← join_split separator cs, parts]
  rfl

theorem split_of_notMem (free : separator ∉ cs) : split separator cs = [cs] := by
  induction cs with
  | nil => rfl
  | cons c cs ih =>
    rw [List.mem_cons, not_or] at free
    obtain ⟨other, free⟩ := free
    rw [split, if_neg (Ne.symm other), ih free]

theorem split_append_cons (free : separator ∉ cs) (rest : List Char) :
    split separator (cs ++ separator :: rest) = cs :: split separator rest := by
  induction cs with
  | nil => rw [List.nil_append, split, if_pos rfl]
  | cons c cs ih =>
    rw [List.mem_cons, not_or] at free
    obtain ⟨other, free⟩ := free
    rw [List.cons_append, split, if_neg (Ne.symm other), ih free]

theorem takeWhile_append_cons (free : separator ∉ cs) (rest : List Char) :
    (cs ++ separator :: rest).takeWhile (· ≠ separator) = cs := by
  have other : ∀ c ∈ cs, decide (c ≠ separator) = true := fun c found => decide_eq_true fun same => free (same ▸ found)
  rw [List.takeWhile_append_of_pos other, List.takeWhile_cons_of_neg (by simp), List.append_nil]

theorem dropWhile_append_cons (free : separator ∉ cs) (rest : List Char) :
    (cs ++ separator :: rest).dropWhile (· ≠ separator) = separator :: rest := by
  have other : ∀ c ∈ cs, decide (c ≠ separator) = true := fun c found => decide_eq_true fun same => free (same ▸ found)
  rw [List.dropWhile_append_of_pos other, List.dropWhile_cons_of_neg (by simp)]

/-- Splitting undoes joining. -/
theorem split_join {parts : List (List Char)} (some : parts ≠ []) (free : ∀ part ∈ parts, separator ∉ part) :
    split separator (join separator parts) = parts := by
  induction parts using join.induct with
  | case1 => exact absurd rfl some
  | case2 part => exact split_of_notMem (free part List.mem_cons_self)
  | case3 part parts several ih =>
    obtain ⟨here, later⟩ := List.forall_mem_cons.mp free
    rw [join, split_append_cons here, ih several later]
    exact several

end Rulebase.Text
