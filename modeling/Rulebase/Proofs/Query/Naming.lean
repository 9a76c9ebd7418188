import Rulebase.Proofs.Query.Embedding
import Rulebase.Proofs.Query.Readback
import Rulebase.Proofs.Query.Shape

/-!
# Groups named in queries

A text denotes the group of its name if it has no quotes in it and no blanks around it, and matches no pattern of the
other literals. A group that a catalog has under such a name is tested by every query that is written for the name, on
each side where the group can stand. No query tests a group that the catalog has under other names only, or not at all.
-/

namespace Rulebase

open Text

theorem Text.trim_trim (cs : List Char) : trim (trim cs) = trim cs := by
  obtain ⟨blanks, split, blank⟩ := exists_dropWhile_isBlank_eq cs
  have front : ∀ c ∈ cs.takeWhile isBlank, isBlank c = true := fun c found => List.mem_takeWhile_imp found
  have whole : cs.takeWhile isBlank ++ trim cs ++ blanks = cs := by
    rw [List.append_assoc, ← split, List.takeWhile_append_dropWhile]
  rw [← trim_append_blanks front blank, whole]

namespace Query

/-- A name can be written between quotes so that it is read as that name. -/
structure IsName (name : String) : Prop where
  quoteless : '"' ∉ name.toList
  trimmed : trim name.toList = name.toList
  nonempty : name.toList ≠ []
  unmatched : ∀ pattern : Pattern, ¬ pattern.Matches name.toList

section Literals

variable {cs found : List Char} {catalog : Catalog} {name literal : String} {g : Group}

theorem eq_of_ofChars (classified : Literal.ofChars cs = .name found) : found = cs := by
  unfold Literal.ofChars Literal.ofPlain Literal.ofService at classified
  grind

theorem ofChars_eq_name_iff : Literal.ofChars cs = .name cs ↔ ∀ pattern : Pattern, ¬ pattern.Matches cs := by
  constructor
  · intro classified pattern matched
    have other := matched.pattern?_eq
    rw [classified] at other
    cases other
  · intro unmatched
    cases classified : Literal.ofChars cs with
    | name found => rw [eq_of_ofChars classified]
    | host | network | range | port | portRange =>
      exact absurd (matches_of_ofChars (congrArg Literal.pattern? classified)) (unmatched _)

instance (name : String) : Decidable (IsName name) :=
  decidable_of_iff ('"' ∉ name.toList ∧ trim name.toList = name.toList ∧ name.toList ≠ [] ∧
      Literal.ofChars name.toList = .name name.toList)
    ⟨fun ⟨quoteless, trimmed, nonempty, named⟩ => ⟨quoteless, trimmed, nonempty, ofChars_eq_name_iff.mp named⟩,
      fun named => ⟨named.quoteless, named.trimmed, named.nonempty, ofChars_eq_name_iff.mpr named.unmatched⟩⟩

/-- A name denotes what the catalog has under it. -/
theorem IsName.object?_eq (named : IsName name) : object? (some catalog) name = catalog name := by
  simp only [object?, named.trimmed, ofChars_eq_name_iff.mpr named.unmatched, if_neg named.nonempty]
  exact congrArg catalog String.ofList_toList

-- A blank inside a name is part of it, one at an end is not, and a port is no name.
example : IsName "web servers" ∧ ¬ IsName " web" ∧ ¬ IsName "tcp/443" := by
  decide

theorem eq_name_of_build {x : Literal} (built : x.build = .ok (.inr name)) : x = .name name.toList := by
  cases x with
  | name cs =>
    cases built
    rw [String.toList_ofList]
  | host | network | range | port | portRange =>
    obtain ⟨leaf, _, same⟩ := bind_eq_ok_iff.mp built
    cases same

/-- A literal without quotes that denotes a group is a name of it in the catalog, with blanks around it perhaps. -/
theorem exists_name_of_object? (quoteless : '"' ∉ literal.toList)
    (denotes : object? (some catalog) literal = some (.group g)) :
    ∃ name, IsName name ∧ catalog name = some (.group g) := by
  simp only [object?] at denotes
  split at denotes
  · cases denotes
  next nonempty =>
    split at denotes
    · cases denotes
    next name built =>
      have classified := eq_name_of_build built
      have same := eq_of_ofChars classified
      rw [← same] at classified nonempty
      have trimmed : trim name.toList = name.toList := by rw [same, trim_trim]
      have quoteless : '"' ∉ name.toList := fun inside => quoteless ((trim_sublist _).subset (same ▸ inside))
      exact ⟨name, ⟨quoteless, trimmed, nonempty, ofChars_eq_name_iff.mp classified⟩, denotes⟩
    · cases denotes

end Literals

section Tests

variable {catalog : Catalog} {name literal text : String} {object : Object} {g : Group} {verb : Verb}
  {selection : Selection} {side : Side}

/-- However a test of a name is written, it is a test of what the catalog has under the name. -/
theorem IsName.parse_eq (named : IsName name) (listed : catalog name = some object)
    (names : selection.Names object side) (renders : (Sentence.test verb name selection).Renders text) :
    parse (some catalog) text = .ok (.test (verb.atom object side)) := by
  have found : object? (some catalog) name = some object := named.object?_eq.trans listed
  have quoteless : ∀ literal ∈ (Sentence.test verb name selection).literals, '"' ∉ literal.toList :=
    List.forall_mem_singleton.mpr named.quoteless
  obtain ⟨padded, pads, reads⟩ := renders.reads ⟨object, side, found, names⟩ quoteless
  exact parse_of_reads reads (pads.denotes (.test found names))

/-- What follows the first of its kind. -/
theorem tail_eq_of_first {α : Type} {x : α} {tail front rest : List α} (same : x :: tail = front ++ x :: rest)
    (first : x ∉ front) : tail = rest := by
  cases front with
  | nil => exact (List.cons.inj same).2
  | cons y front =>
    obtain ⟨rfl, _⟩ := List.cons.inj same
    exact absurd List.mem_cons_self first

theorem Paired.quoteless {cs : List Char} {ts : List Token} (paired : Paired cs ts) {front rest : List Lexeme}
    (written : significant ts = front ++ .quote :: .parameter literal :: rest) (first : .quote ∉ front) :
    '"' ∉ literal.toList := by
  induction paired generalizing front with
  | nil => simp [significant] at written
  | other unquoted _ ih =>
    rw [significant_cons] at written
    split at written
    · exact ih written first
    · cases front with
      | nil => exact absurd (List.cons.inj written).1 unquoted.1
      | cons lexeme front => exact ih (List.cons.inj written).2 fun inside => first (List.mem_cons_of_mem _ inside)
  | @quoted _ _ _ inner ts plain =>
    have after : .parameter inner :: .quote :: significant ts = .parameter literal :: rest :=
      tail_eq_of_first written first
    cases after
    exact plain
  | unclosed =>
    have after : [.fault .unclosedQuote] = .parameter literal :: rest := tail_eq_of_first written first
    cases after

theorem Reads.quoteless (reads : Reads text (.test verb literal selection)) : '"' ∉ literal.toList := by
  obtain ⟨found, whole, _, shape⟩ := tokenize_shape text
  have same : tokens text = found := List.append_cancel_right whole
  have written : significant found = [.leftParen, .keyword verb.word] ++
      .quote :: .parameter literal :: (.quote :: (selection.lexemes ++ [.rightParen])) := by
    rw [← same, reads_iff.mp reads]
    simp [Sentence.lexemes]
  exact shape.quotes.quoteless written (by simp)

theorem Verb.atom_inj {v w : Verb} {x y : Object} {a b : Side} :
    v.atom x a = w.atom y b ↔ v = w ∧ x = y ∧ a = b := by
  cases v <;> cases w <;> simp [atom]

/-- A group is tested by some query just when the catalog has it under a name that can be written. -/
theorem exists_parse_group_iff :
    (∃ text side, ∃ verb : Verb, parse (some catalog) text = .ok (.test (verb.atom (.group g) side))) ↔
      ∃ name, IsName name ∧ catalog name = some (.group g) := by
  constructor
  · rintro ⟨text, side, verb, parsed⟩
    obtain ⟨s, reads, denotes⟩ := reads_of_parse parsed
    generalize tested : Condition.test (verb.atom (.group g) side) = condition at denotes
    cases denotes with
    | test found names =>
      obtain ⟨_, rfl, _⟩ := Verb.atom_inj.mp (Condition.test.inj tested)
      exact exists_name_of_object? reads.quoteless found
    | @joined junction => cases junction <;> cases tested
    | negated => cases tested
  · rintro ⟨name, named, listed⟩
    obtain ⟨word, side, known, fits⟩ :
        ∃ word side, side? word = some side ∧ (g.family = .service ↔ side = .service) := by
      cases g.family with
      | address => exact ⟨"src", .source, rfl, by decide⟩
      | service => exact ⟨"svc", .service, rfl, by decide⟩
    obtain ⟨some, proper⟩ := side_word_proper known
    refine ⟨_, side, .has, parse_of_reads (reads_testText .has named.quoteless some proper) ?_⟩
    exact .test (named.object?_eq.trans listed) ⟨known, fits⟩

end Tests

end Query

end Rulebase
