import Mathlib.Data.List.DropRight
import Mathlib.Data.List.TakeWhile
import Rulebase.Object.Build

/-!
# Digits that numerals have

The test for a row of digits lets some characters pass that no numeral has: digits without a decimal value,
and blanks that are trimmed from a text but not skipped by the reader of numerals. A row of digits without
such characters is read as a number, unless it is too long. The plain text of a value that is no text itself
never leads there: as a row of digits it is made of ASCII digits.
-/

namespace Rulebase.Text

/-- A character that passes for a digit or for a blank, while numerals do not have it. -/
def isUnread (c : Char) : Bool :=
  isDigit c && !isDecimal c || isBlank c && !isNumeralBlank c

/-- Every character that passes for a digit or a blank is one to the reader of numerals. -/
def Legible (cs : List Char) : Prop :=
  ∀ c ∈ cs, isUnread c = false

/-- A numeral has too many digits to be read, as a text that is long enough does. -/
def NumeralError.IsLimit (long : Nat → Prop) : NumeralError → Prop
  | .tooLong digits => numeralLimit < digits ∧ long digits
  | .malformed _ _ | .tooLarge => False

/-- No run of ten digits meets a range of blanks. -/
theorem decimalZeros_apart :
    ∀ first ∈ decimalZeros, ∀ range ∈ blankRanges, first + 9 < range.1 ∨ range.2 < first := by
  decide

theorem CodeRanges.has_eq_false {ranges : CodeRanges} {c : Char}
    (outside : ∀ range ∈ ranges, c.toNat < range.1 ∨ range.2 < c.toNat) : ranges.has c = false := by
  simp only [has, List.any_eq_false, Bool.and_eq_true, decide_eq_true_eq]
  intro range listed between
  have := outside range listed
  omega

theorem isBlank_of_isDecimal {c : Char} (decimal : isDecimal c = true) : isBlank c = false := by
  refine CodeRanges.has_eq_false fun range listed => ?_
  unfold isDecimal decimalValue? at decimal
  split at decimal
  · have between : 0x30 ≤ c.toNat ∧ c.toNat ≤ 0x39 := by
      split at decimal
      next inside => exact inside
      next => simp at decimal
    have clear : ∀ range ∈ blankRanges, 0x39 < range.1 ∨ range.2 < 0x30 := by decide
    have := clear range listed
    omega
  · rw [Option.isSome_map, List.find?_isSome] at decimal
    obtain ⟨first, found, inside⟩ := decimal
    simp only [Bool.and_eq_true, decide_eq_true_eq] at inside
    have := decimalZeros_apart first found range listed
    omega

theorem Legible.isDecimal_of_isDigit {cs : List Char} (legible : Legible cs) {c : Char} (found : c ∈ cs)
    (digit : isDigit c = true) : isDecimal c = true := by
  have read := legible c found
  simp [isUnread, digit] at read
  exact read.1

theorem Legible.isNumeralBlank_eq {cs : List Char} (legible : Legible cs) {c : Char} (found : c ∈ cs) :
    isNumeralBlank c = isBlank c := by
  have read := legible c found
  cases blank : isBlank c with
  | false => simp [isNumeralBlank, blank]
  | true =>
    simp [isUnread, blank] at read
    exact read.2

theorem Legible.mono {cs ds : List Char} (legible : Legible cs) (part : ds ⊆ cs) : Legible ds :=
  fun c found => legible c (part found)

theorem trim_sublist (cs : List Char) : (trim cs).Sublist cs :=
  (List.rdropWhile_prefix _ _).sublist.trans (List.dropWhile_sublist _)

/-- Without the blanks in front, a text is its trimmed form and blanks. -/
theorem exists_dropWhile_isBlank_eq (cs : List Char) :
    ∃ blanks, cs.dropWhile isBlank = trim cs ++ blanks ∧ ∀ c ∈ blanks, isBlank c = true := by
  refine ⟨(cs.dropWhile isBlank).rtakeWhile isBlank, ?_, fun c found => List.mem_rtakeWhile_imp found⟩
  exact List.rdropWhile_append_rtakeWhile.symm

/-- In a legible text the reader of numerals skips the same blanks in front as trimming. -/
theorem Legible.dropWhile_isNumeralBlank {cs : List Char} (legible : Legible cs) :
    cs.dropWhile isNumeralBlank = cs.dropWhile isBlank := by
  induction cs with
  | nil => rfl
  | cons c cs ih =>
    rw [List.dropWhile_cons, List.dropWhile_cons, legible.isNumeralBlank_eq List.mem_cons_self,
      ih (legible.mono (List.subset_cons_self c cs))]

/-- A row of legible digits between blanks is read as a number, or is too long. -/
theorem readNumeral_of_legible {s : String} (legible : Legible s.toList)
    (digits : isDigits (trim s.toList) = true) :
    (∃ n, readNumeral s = .ok n) ∨
      ∃ n, readNumeral s = .error (.tooLong n) ∧ numeralLimit < n ∧ n ≤ s.toList.length := by
  obtain ⟨blanks, split, blank⟩ := exists_dropWhile_isBlank_eq s.toList
  simp only [isDigits, Bool.and_eq_true, Bool.not_eq_true', List.isEmpty_eq_false_iff, List.all_eq_true] at digits
  have within : Legible (trim s.toList ++ blanks) := by
    rw [← split]
    exact legible.mono (List.dropWhile_subset _)
  have decimal : ∀ c ∈ trim s.toList, isDecimal c = true := fun c found =>
    within.isDecimal_of_isDigit (List.mem_append_left _ found) (digits.2 c found)
  have skipped : blanks.dropWhile isNumeralBlank = [] := by
    refine List.dropWhile_eq_nil_iff.mpr fun c found => ?_
    rw [within.isNumeralBlank_eq (List.mem_append_right _ found)]
    exact blank c found
  have figures : (trim s.toList ++ blanks).takeWhile isDecimal = trim s.toList ∧
      (trim s.toList ++ blanks).dropWhile isDecimal = blanks := by
    rw [List.takeWhile_append_of_pos decimal, List.dropWhile_append_of_pos decimal]
    cases blanks with
    | nil => simp
    | cons b bs =>
      have other : ¬ isDecimal b = true := fun decimal => by
        simpa [isBlank_of_isDecimal decimal] using blank b List.mem_cons_self
      rw [List.takeWhile_cons_of_neg other, List.dropWhile_cons_of_neg other]
      simp
  simp only [readNumeral, legible.dropWhile_isNumeralBlank, split, figures, skipped]
  by_cases long : numeralLimit < (trim s.toList).length
  · exact Or.inr ⟨_, if_pos long, long, (trim_sublist s.toList).length_le⟩
  · exact Or.inl ⟨_, by rw [if_neg long, if_pos ⟨digits.1, trivial⟩]⟩

theorem trim_eq_self {cs : List Char} (solid : ∀ c ∈ cs, isBlank c = false) : trim cs = cs := by
  have solid (c : Char) (found : c ∈ cs) : ¬ isBlank c = true := by simp [solid c found]
  have front : cs.dropWhile isBlank = cs :=
    List.dropWhile_eq_self_iff.mpr fun inside => solid _ (List.getElem_mem inside)
  rw [trim, front]
  exact List.rdropWhile_eq_self_iff.mpr fun some => solid _ (List.getLast_mem some)

theorem Legible.trim_eq_self {cs : List Char} (legible : Legible cs) (digits : isDigits cs = true) :
    trim cs = cs := by
  simp only [isDigits, Bool.and_eq_true, Bool.not_eq_true', List.isEmpty_eq_false_iff, List.all_eq_true] at digits
  exact Text.trim_eq_self fun c found =>
    isBlank_of_isDecimal (legible.isDecimal_of_isDigit found (digits.2 c found))

def Visible (cs : List Char) : Prop :=
  ∀ c ∈ cs, 0x21 ≤ c.toNat ∧ c.toNat ≤ 0x7E

instance (cs : List Char) : Decidable (Visible cs) :=
  List.decidableBAll (fun c : Char => 0x21 ≤ c.toNat ∧ c.toNat ≤ 0x7E) cs

theorem Visible.legible {cs : List Char} (visible : Visible cs) : Legible cs := by
  intro c found
  have ⟨low, high⟩ := visible c found
  have digit : otherDigits.has c = false := by
    have clear : ∀ range ∈ otherDigits, 0x7E < range.1 := by decide
    exact CodeRanges.has_eq_false fun range listed => Or.inl (Nat.lt_of_le_of_lt high (clear range listed))
  have blank : isBlank c = false := by
    have clear : ∀ range ∈ blankRanges, 0x7E < range.1 ∨ range.2 < 0x21 := by decide
    refine CodeRanges.has_eq_false fun range listed => ?_
    have := clear range listed
    omega
  simp [isUnread, isDigit, digit, blank]

theorem Visible.mono {cs ds : List Char} (visible : Visible cs) (part : ds ⊆ cs) : Visible ds :=
  fun c found => visible c (part found)

@[simp] theorem visible_append {cs ds : List Char} : Visible (cs ++ ds) ↔ Visible cs ∧ Visible ds :=
  List.forall_mem_append

@[simp] theorem visible_cons {c : Char} {cs : List Char} :
    Visible (c :: cs) ↔ (0x21 ≤ c.toNat ∧ c.toNat ≤ 0x7E) ∧ Visible cs :=
  List.forall_mem_cons

@[simp] theorem visible_nil : Visible [] := by
  decide

theorem visible_digits (n : Nat) : Visible (digits n) := by
  have figure (k : Nat) (small : k < 10) : Visible [Char.ofNat ('0'.toNat + k)] := by
    decide +revert
  induction n using digits.induct with
  | case1 n small =>
    rw [digits, if_pos small]
    exact figure n small
  | case2 n large ih =>
    rw [digits, if_neg large]
    exact visible_append.mpr ⟨ih, figure (n % 10) (Nat.mod_lt n (by decide))⟩

end Rulebase.Text

namespace Rulebase

open Text

namespace Binary64

/-- Visible figures are laid out with visible characters. -/
theorem visible_layout {figures : List Char} (visible : Visible figures) (point : Int) :
    Visible (layout figures point) := by
  have noughts (n : Nat) : Visible (List.replicate n '0') := fun c found => by
    rw [List.eq_of_mem_replicate found]
    decide
  have first (n : Nat) : Visible (figures.take n) := visible.mono (List.take_subset n figures)
  have later (n : Nat) : Visible (figures.drop n) := visible.mono (List.drop_subset n figures)
  have tail : Visible figures.tail := visible.mono (List.tail_sublist figures).subset
  have power := visible_digits (point - 1).natAbs
  unfold layout
  dsimp only
  split_ifs <;> simp [*]

theorem visible_text (x : Binary64) : Visible x.text.toList := by
  cases x with
  | undefined => decide
  | infinite negative => cases negative <;> decide
  | finite negative mantissa exponent =>
    have figures : Visible (trimZeros (shortest mantissa exponent)).1 := by
      refine (visible_digits (shortest mantissa exponent).digits).mono fun c found => ?_
      exact List.mem_reverse.mp (List.dropWhile_subset _ (List.mem_reverse.mp found))
    have laid := visible_layout figures (trimZeros (shortest mantissa exponent)).2
    simp only [text, String.toList_ofList]
    split_ifs <;> simp [*]

end Binary64

theorem Text.visible_integer (i : Int) : Visible (integer i).toList := by
  cases i with
  | ofNat n => simpa [integer, numeral] using visible_digits n
  | negSucc n =>
    simpa [integer, numeral] using visible_digits (n + 1)

/-- A value that is no text has a plain text of visible characters, or one that ends in a bracket. -/
theorem Value.visible_or_bracket {v : Value} (other : ∀ s, v ≠ .text s) :
    Visible v.plain.toList ∨ ∃ cs, ∃ c ∈ [']', '\x7d'], v.plain.toList = cs ++ [c] := by
  cases v with
  | text s => exact absurd rfl (other s)
  | null => exact Or.inl (by decide)
  | bool b => exact Or.inl (by cases b <;> decide)
  | int i => exact Or.inl (visible_integer i)
  | real x => exact Or.inl x.visible_text
  | list items => exact Or.inr ⟨_, ']', by simp, by simp only [plain, literal, String.toList_append]; rfl⟩
  | mapping entries =>
    exact Or.inr ⟨_, '\x7d', by simp, by simp only [plain, literal, String.toList_append]; rfl⟩

theorem Text.exists_trim_concat (cs : List Char) {c : Char} (solid : isBlank c = false) :
    ∃ ds, trim (cs ++ [c]) = ds ++ [c] := by
  have ended : ∃ ds, (cs ++ [c]).dropWhile isBlank = ds ++ [c] := by
    rw [List.dropWhile_append]
    split
    · exact ⟨[], by simp [solid]⟩
    · exact ⟨_, rfl⟩
  obtain ⟨ds, same⟩ := ended
  refine ⟨ds, ?_⟩
  rw [trim, same]
  exact List.rdropWhile_concat_neg isBlank ds c (by simp [solid])

/-- A row of digits at the end of what a value is written as is legible, if every text among the values is:
no row of digits ends in a bracket. -/
theorem Value.legible_of_suffix {v : Value} (texts : ∀ s, v = .text s → Legible s.toList) {written cs : List Char}
    (shown : written = v.plain.toList ∨ written = trim v.plain.toList) (ending : cs <:+ written)
    (digits : isDigits cs = true) : Legible cs := by
  have part : cs ⊆ v.plain.toList := by
    rcases shown with rfl | rfl
    · exact ending.subset
    · exact List.Subset.trans ending.subset (trim_sublist _).subset
  by_cases text : ∃ s, v = .text s
  · obtain ⟨s, rfl⟩ := text
    exact (texts s rfl).mono part
  rcases visible_or_bracket (v := v) (fun s same => text ⟨s, same⟩) with visible | ⟨front, c, bracket, same⟩
  · exact (visible.mono part).legible
  · have other : isBlank c = false ∧ isDigit c = false := by
      rcases List.mem_pair.mp bracket with rfl | rfl <;> decide
    have ended : ∃ ds, written = ds ++ [c] := by
      rcases shown with rfl | rfl
      · exact ⟨front, same⟩
      · rw [same]
        exact exists_trim_concat front other.1
    obtain ⟨ds, rfl⟩ := ended
    simp only [isDigits, Bool.and_eq_true, Bool.not_eq_true', List.isEmpty_eq_false_iff, List.all_eq_true] at digits
    rcases List.suffix_concat_iff.mp ending with rfl | ⟨es, rfl, _⟩
    · exact absurd rfl digits.1
    · simpa [other.2] using digits.2 c (List.mem_append_right _ List.mem_cons_self)

end Rulebase
