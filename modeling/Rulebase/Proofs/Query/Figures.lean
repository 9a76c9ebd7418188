import Rulebase.Proofs.Policy.Reading
import Rulebase.Proofs.Text.Parts
import Rulebase.Query.Literal

/-!
# What literals fail with

Where a form of a literal lets a numeral stand, it lets decimal digits stand only. So when an object is built from
the parts of a literal, a part may be wrong, but no numeral is refused unless it has more digits than the limit.
-/

namespace Rulebase

namespace Text

variable {cs : List Char}

theorem legible_of_isDecimal (decimal : ∀ c ∈ cs, isDecimal c = true) : Legible cs := by
  intro c found
  simp [isUnread, decimal c found, isBlank_of_isDecimal (decimal c found)]

end Text

open Text

namespace Query

variable {cs : List Char}

theorem isDecimal_of_isFigures (figures : isFigures cs = true) : ∀ c ∈ cs, isDecimal c = true := by
  simp only [isFigures, Bool.and_eq_true, List.all_eq_true] at figures
  exact figures.2

theorem isDecimal_or_dot_of_isQuad (quad : isQuad cs = true) : ∀ c ∈ cs, isDecimal c = true ∨ c = '.' := by
  intro c found
  unfold isQuad at quad
  split at quad
  next a b d e parts =>
    simp only [isOctet, Bool.and_eq_true, and_assoc] at quad
    obtain ⟨one, _, two, _, three, _, four, _⟩ := quad
    rw [← join_split '.' cs, parts] at found
    refine (mem_of_mem_join found).symm.imp_left ?_
    rintro ⟨part, listed, inside⟩
    simp only [List.mem_cons, List.not_mem_nil, or_false] at listed
    rcases listed with rfl | rfl | rfl | rfl
    · exact isDecimal_of_isFigures one c inside
    · exact isDecimal_of_isFigures two c inside
    · exact isDecimal_of_isFigures three c inside
    · exact isDecimal_of_isFigures four c inside
  · cases quad

/-- What a literal fails with: a part that is wrong, or a numeral beyond the limit that is no longer than the text. -/
abbrev FailsAsLiteral {α : Type} (length : Nat) (built : Built α) : Prop :=
  FailsWith (BuildError.Of True (· ≤ length)) built

variable {length : Nat}

theorem fails_portNumber {number : List Char} (figures : isFigures number = true) (within : number.length ≤ length) :
    FailsAsLiteral length (buildPortNumber (part number)) := by
  refine fails_buildPortNumber (fun _ => by simp [part, Value.isWritable]) (fun n short => ?_) fun _ s same => ?_
  · simp only [part, Value.plain, String.toList_ofList] at short
    exact short.trans within
  · cases same
    rw [String.toList_ofList]
    exact legible_of_isDecimal (isDecimal_of_isFigures figures)

/-- A network has digits behind its slash that numerals have: in front of it there are a quad and the slash itself. -/
theorem fails_network {left right : List Char} (parts : split '/' cs = [left, right]) (quad : isQuad left = true)
    (figures : isFigures right = true) (label : Label) :
    FailsAsLiteral cs.length (Network.ofCidr label (String.ofList cs)) := by
  have decimal : ∀ c ∈ cs, isDigit c = true → isDecimal c = true := by
    intro c found digit
    rw [eq_of_split_eq_pair parts] at found
    rcases List.mem_append.mp found with before | behind
    · rcases isDecimal_or_dot_of_isQuad quad c before with decimal | rfl
      · exact decimal
      · exact absurd digit (by decide)
    · rcases List.mem_cons.mp behind with rfl | behind
      · exact absurd digit (by decide)
      · exact isDecimal_of_isFigures figures c behind
  refine fails_networkOfCidr label (fun n within => ?_) fun _ ds ending digits => ?_
  · rwa [String.toList_ofList] at within
  · rw [String.toList_ofList] at ending
    simp only [isDigits, Bool.and_eq_true, List.all_eq_true] at digits
    refine legible_of_isDecimal fun c found => decimal c ?_ (digits.2 c found)
    exact (trim_sublist cs).subset (ending.subset found)

theorem fails_portRange {first last : List Char} (protocol : List Char) (firstFigures : isFigures first = true)
    (lastFigures : isFigures last = true) (within : (first ++ '-' :: last).length ≤ length) (label : Label) :
    FailsAsLiteral length (PortRange.build label (part first) (part last) (part protocol)) := by
  rw [List.length_append, List.length_cons] at within
  refine (fails_portNumber firstFigures (by omega)).bind fun first _ => ?_
  refine (fails_portNumber lastFigures (by omega)).bind fun last _ => ?_
  refine (fails_buildProtocol _).bind fun protocol _ => ?_
  split
  · exact .ok _
  · exact fails_refuse fun _ => rfl

/-- What stands behind a slash is built as a port, as a range of ports or not at all. -/
theorem fails_ofService {protocol numbers : List Char} (within : numbers.length ≤ length) :
    FailsAsLiteral length (Literal.ofService cs protocol numbers).build := by
  unfold Literal.ofService
  split
  next number parts =>
    split
    next figures =>
      rw [eq_of_split_eq_singleton parts] at within
      refine FailsWith.bind ((fails_portNumber figures within).bind fun number _ => ?_) fun _ _ => .ok _
      exact (fails_buildProtocol _).bind fun _ _ => .ok _
    · exact .ok _
  next first last parts =>
    split
    next figures =>
      rw [Bool.and_eq_true] at figures
      rw [eq_of_split_eq_pair parts] at within
      exact (fails_portRange protocol figures.1 figures.2 within _).bind fun _ _ => .ok _
    · exact .ok _
  · exact .ok _

/-- Two addresses with a dash between them are built as a range, and other texts not at all. -/
theorem fails_ofPlain : FailsAsLiteral length (Literal.ofPlain cs).build := by
  unfold Literal.ofPlain
  split
  · split
    · exact (fails_buildRange _ _ _).bind fun _ _ => .ok _
    · exact .ok _
  · exact .ok _

/-- Whatever its form, a literal is refused because a part is wrong, or because a numeral in it is beyond the limit. -/
theorem fails_literal (cs : List Char) : FailsAsLiteral cs.length (Literal.ofChars cs).build := by
  unfold Literal.ofChars
  split
  · exact FailsWith.bind ((fails_buildAddress _).bind fun _ _ => .ok _) fun _ _ => .ok _
  · split
    next left right parts =>
      have within : right.length ≤ cs.length := by
        rw [eq_of_split_eq_pair parts, List.length_append, List.length_cons]
        omega
      split
      next forms =>
        rw [Bool.and_eq_true] at forms
        exact (fails_network parts forms.1 forms.2 _).bind fun _ _ => .ok _
      · split
        · exact fails_ofService within
        · exact .ok _
    · exact fails_ofPlain

end Query

end Rulebase
