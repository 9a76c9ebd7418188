import Rulebase.Proofs.Query.Figures

/-!
# The forms of literals exclude one another

There are four forms that are not names: a quad, a quad with a length, two quads, and letters with one or two numbers.
Each is a pattern of its own, and the pattern that a literal is classified by is the one that its text matches. As there
is one at most, the patterns can be tried in any order.
-/

namespace Rulebase.Query

open Text

variable {cs left right first last : List Char}

def Figures (cs : List Char) : Prop :=
  cs ≠ [] ∧ ∀ c ∈ cs, isDecimal c = true

def Letters (cs : List Char) : Prop :=
  cs ≠ [] ∧ ∀ c ∈ cs, c.isAlpha = true

def Quad (cs : List Char) : Prop :=
  ∃ a b c d, cs = a ++ '.' :: (b ++ '.' :: (c ++ '.' :: d)) ∧ ∀ part ∈ [a, b, c, d], Figures part ∧ part.length ≤ 3

/-- The patterns that literals other than names match. -/
inductive Pattern where
  | host
  | network
  | range
  | service
  deriving DecidableEq, Repr

def Pattern.Matches : Pattern → List Char → Prop
  | host, cs => Quad cs
  | network, cs => ∃ address length, cs = address ++ '/' :: length ∧ Quad address ∧ Figures length
  | range, cs => ∃ first last, cs = first ++ '-' :: last ∧ Quad first ∧ Quad last
  | service, cs => ∃ protocol numbers, cs = protocol ++ '/' :: numbers ∧ Letters protocol ∧
      (Figures numbers ∨ ∃ first last, numbers = first ++ '-' :: last ∧ Figures first ∧ Figures last)

/-- The pattern of a literal that is no name. -/
def Literal.pattern? : Literal → Option Pattern
  | host _ => some .host
  | network _ => some .network
  | range _ _ => some .range
  | port _ _ | portRange _ _ _ => some .service
  | name _ => none

theorem isFigures_iff : isFigures cs = true ↔ Figures cs := by
  simp only [isFigures, Figures, Bool.and_eq_true, Bool.not_eq_true', List.isEmpty_eq_false_iff, List.all_eq_true]

theorem isLetters_iff : isLetters cs = true ↔ Letters cs := by
  simp only [isLetters, Letters, Bool.and_eq_true, Bool.not_eq_true', List.isEmpty_eq_false_iff, List.all_eq_true]

theorem Figures.notMem {c : Char} (figures : Figures cs) (other : isDecimal c = false) : c ∉ cs :=
  fun found => Bool.false_ne_true (other.symm.trans (figures.2 c found))

theorem Letters.notMem {c : Char} (letters : Letters cs) (other : c.isAlpha = false) : c ∉ cs :=
  fun found => Bool.false_ne_true (other.symm.trans (letters.2 c found))

theorem isQuad_iff : isQuad cs = true ↔ Quad cs := by
  constructor
  · intro quad
    unfold isQuad at quad
    split at quad
    next a b c d parts =>
      refine ⟨a, b, c, d, ?_, ?_⟩
      · rw [← join_split '.' cs, parts]
        rfl
      · simpa [isOctet, isFigures_iff, and_assoc] using quad
    · cases quad
  · rintro ⟨a, b, c, d, rfl, octets⟩
    have free : ∀ part ∈ [a, b, c, d], '.' ∉ part := fun part listed => (octets part listed).1.notMem rfl
    have parts : split '.' (a ++ '.' :: (b ++ '.' :: (c ++ '.' :: d))) = [a, b, c, d] :=
      split_join (List.cons_ne_nil a [b, c, d]) free
    simpa [isQuad, parts, isOctet, isFigures_iff, and_assoc] using octets

/-- A character other than a decimal digit and a dot is in no quad. -/
theorem Quad.notMem {c : Char} (quad : Quad cs) (other : isDecimal c = false) (undotted : c ≠ '.') : c ∉ cs := by
  intro found
  rcases isDecimal_or_dot_of_isQuad (isQuad_iff.mpr quad) c found with decimal | dot
  · exact Bool.false_ne_true (other.symm.trans decimal)
  · exact undotted dot

theorem not_isQuad {c : Char} (found : c ∈ cs) (other : isDecimal c = false) (undotted : c ≠ '.') :
    isQuad cs = false :=
  Bool.eq_false_iff.mpr fun quad => (isQuad_iff.mp quad).notMem other undotted found

theorem Letters.not_isQuad (letters : Letters cs) : isQuad cs = false := by
  refine Bool.eq_false_iff.mpr fun quad => ?_
  obtain ⟨a, b, c, d, rfl, _⟩ := isQuad_iff.mp quad
  exact letters.notMem (c := '.') (by decide) (by simp)

section Classification

theorem ofChars_host (quad : Quad cs) : Literal.ofChars cs = .host cs :=
  if_pos (isQuad_iff.mpr quad)

theorem ofChars_slash (slashless : '/' ∉ left) (slashlessToo : '/' ∉ right) :
    Literal.ofChars (left ++ '/' :: right) =
      if isQuad left && isFigures right then .network (left ++ '/' :: right)
      else if isLetters left then Literal.ofService (left ++ '/' :: right) left right
      else .name (left ++ '/' :: right) := by
  have parts : split '/' (left ++ '/' :: right) = [left, right] := by
    rw [split_append_cons slashless, split_of_notMem slashlessToo]
  have other : isQuad (left ++ '/' :: right) = false := not_isQuad (c := '/') (by simp) rfl (by decide)
  simp only [Literal.ofChars, other, parts, Bool.false_eq_true, if_false]

theorem ofChars_network (quad : Quad left) (figures : Figures right) :
    Literal.ofChars (left ++ '/' :: right) = .network (left ++ '/' :: right) := by
  rw [ofChars_slash (quad.notMem rfl (by decide)) (figures.notMem rfl), isQuad_iff.mpr quad, isFigures_iff.mpr figures]
  rfl

theorem ofChars_range (quad : Quad first) (quadToo : Quad last) :
    Literal.ofChars (first ++ '-' :: last) = .range first last := by
  have other : isQuad (first ++ '-' :: last) = false := not_isQuad (c := '-') (by simp) rfl (by decide)
  have slashless : '/' ∉ first ++ '-' :: last := by
    simp [quad.notMem (c := '/') rfl (by decide), quadToo.notMem (c := '/') rfl (by decide)]
  have parts : split '-' (first ++ '-' :: last) = [first, last] := by
    rw [split_append_cons (quad.notMem rfl (by decide)), split_of_notMem (quadToo.notMem rfl (by decide))]
  simp only [Literal.ofChars, other, split_of_notMem slashless, Literal.ofPlain, parts, isQuad_iff.mpr quad,
    isQuad_iff.mpr quadToo]
  rfl

theorem ofChars_service (letters : Letters left) (slashless : '/' ∉ right) :
    Literal.ofChars (left ++ '/' :: right) = Literal.ofService (left ++ '/' :: right) left right := by
  rw [ofChars_slash (letters.notMem rfl) slashless, letters.not_isQuad, isLetters_iff.mpr letters]
  rfl

theorem ofChars_port (letters : Letters left) (figures : Figures right) :
    Literal.ofChars (left ++ '/' :: right) = .port left right := by
  rw [ofChars_service letters (figures.notMem rfl)]
  simp only [Literal.ofService, split_of_notMem (figures.notMem (c := '-') rfl), isFigures_iff.mpr figures]
  rfl

theorem ofChars_portRange (letters : Letters left) (figures : Figures first) (figuresToo : Figures last) :
    Literal.ofChars (left ++ '/' :: (first ++ '-' :: last)) = .portRange left first last := by
  have slashless : '/' ∉ first ++ '-' :: last := by
    simp [figures.notMem (c := '/') rfl, figuresToo.notMem (c := '/') rfl]
  have parts : split '-' (first ++ '-' :: last) = [first, last] := by
    rw [split_append_cons (figures.notMem rfl), split_of_notMem (figuresToo.notMem rfl)]
  rw [ofChars_service letters slashless]
  simp only [Literal.ofService, parts, isFigures_iff.mpr figures, isFigures_iff.mpr figuresToo]
  rfl

end Classification

variable {p q : Pattern}

theorem Pattern.Matches.pattern?_eq (matched : p.Matches cs) : (Literal.ofChars cs).pattern? = some p := by
  cases p with
  | host => rw [ofChars_host matched]; rfl
  | network =>
    obtain ⟨address, length, rfl, quad, figures⟩ := matched
    rw [ofChars_network quad figures]
    rfl
  | range =>
    obtain ⟨first, last, rfl, quad, quadToo⟩ := matched
    rw [ofChars_range quad quadToo]
    rfl
  | service =>
    obtain ⟨protocol, numbers, rfl, letters, figures | ⟨first, last, rfl, figures, figuresToo⟩⟩ := matched
    · rw [ofChars_port letters figures]
      rfl
    · rw [ofChars_portRange letters figures figuresToo]
      rfl

/-- A text matches one pattern at most. -/
theorem Pattern.Matches.unique (left : p.Matches cs) (right : q.Matches cs) : p = q :=
  Option.some.inj (left.pattern?_eq.symm.trans right.pattern?_eq)

/-- What stands behind the slash of a service is one number or two. -/
theorem matches_of_ofService (classified : (Literal.ofService cs left right).pattern? = some p) :
    p = .service ∧ (Figures right ∨ ∃ first last, right = first ++ '-' :: last ∧ Figures first ∧ Figures last) := by
  unfold Literal.ofService at classified
  split at classified
  next number parts =>
    split at classified
    next figures =>
      cases classified
      rw [eq_of_split_eq_singleton parts]
      exact ⟨rfl, Or.inl (isFigures_iff.mp figures)⟩
    · cases classified
  next first last parts =>
    split at classified
    next figures =>
      rw [Bool.and_eq_true, isFigures_iff, isFigures_iff] at figures
      cases classified
      exact ⟨rfl, Or.inr ⟨first, last, eq_of_split_eq_pair parts, figures⟩⟩
    · cases classified
  · cases classified

theorem matches_of_ofPlain (classified : (Literal.ofPlain cs).pattern? = some p) : p.Matches cs := by
  unfold Literal.ofPlain at classified
  split at classified
  next first last parts =>
    split at classified
    next quads =>
      rw [Bool.and_eq_true, isQuad_iff, isQuad_iff] at quads
      cases classified
      exact ⟨first, last, eq_of_split_eq_pair parts, quads⟩
    · cases classified
  · cases classified

theorem matches_of_ofChars (classified : (Literal.ofChars cs).pattern? = some p) : p.Matches cs := by
  unfold Literal.ofChars at classified
  split at classified
  next quad =>
    cases classified
    exact isQuad_iff.mp quad
  · split at classified
    next left right parts =>
      have whole := eq_of_split_eq_pair parts
      split at classified
      next forms =>
        rw [Bool.and_eq_true, isQuad_iff, isFigures_iff] at forms
        cases classified
        exact ⟨left, right, whole, forms⟩
      · split at classified
        next letters =>
          obtain ⟨rfl, numbers⟩ := matches_of_ofService classified
          exact ⟨left, right, whole, isLetters_iff.mp letters, numbers⟩
        · cases classified
    · exact matches_of_ofPlain classified

/-- A literal is classified by the pattern that its text matches. -/
theorem pattern?_ofChars_iff : (Literal.ofChars cs).pattern? = some p ↔ p.Matches cs :=
  ⟨matches_of_ofChars, Pattern.Matches.pattern?_eq⟩

instance (p : Pattern) (cs : List Char) : Decidable (p.Matches cs) :=
  decidable_of_iff _ pattern?_ofChars_iff

/-- In whatever order the patterns are tried, the first that matches is the one by which the literal is classified. -/
theorem find?_matches {order : List Pattern} (complete : ∀ p, p ∈ order) (cs : List Char) :
    order.find? (fun p => p.Matches cs) = (Literal.ofChars cs).pattern? := by
  cases tried : order.find? (fun p => decide (p.Matches cs)) with
  | none =>
    rw [List.find?_eq_none] at tried
    refine (Option.eq_none_iff_forall_ne_some.mpr fun p classified => ?_).symm
    exact tried p (complete p) (decide_eq_true (matches_of_ofChars classified))
  | some p =>
    have matched := List.find?_some (p := fun q : Pattern => decide (q.Matches cs)) tried
    exact (of_decide_eq_true matched).pattern?_eq.symm

end Rulebase.Query
