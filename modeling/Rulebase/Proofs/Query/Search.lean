import Rulebase.Proofs.Order.Pure
import Rulebase.Proofs.Query.Embedding
import Rulebase.Proofs.Rule.Indistinct
import Rulebase.Report

/-!
# Searches compose

A search finds rules just when its query is written as a valid sentence and has an answer on every stored rule, and it
finds the stored rules on which the answer is true. So searches are composed by writing their queries into a larger
one: behind `not` it finds the other rules, and fails when the search does; behind `and` and `or`, the rules that all
of the searches find and those that some of them finds.
-/

namespace Rulebase

theorem exists_error_iff {ε α : Type} {x : Except ε α} :
    (∃ cause, x = .error cause) ↔ ¬ ∃ a, x = .ok a := by
  cases x <;> simp

namespace Condition

variable {ε α : Type} {run : α → Except ε Bool} {c : Condition α} {cs : List (Condition α)}

theorem eval_not_eq_ok_iff {answer : Bool} : eval run (.not c) = .ok (!answer) ↔ eval run c = .ok answer := by
  rw [eval]
  cases eval run c with
  | error cause => exact ⟨fun failed => (by cases failed), fun failed => (by cases failed)⟩
  | ok given =>
    show Except.ok (!given) = Except.ok (!answer) ↔ Except.ok given = Except.ok answer
    simp

/-- Conditions that all have a value have one together. -/
theorem evalAll_of_ok (total : ∀ c ∈ cs, ∃ answer, eval run c = .ok answer) :
    ∃ answer, evalAll run cs = .ok answer ∧ (answer = true ↔ ∀ c ∈ cs, eval run c = .ok true) := by
  induction cs with
  | nil => exact ⟨true, rfl, by simp⟩
  | cons c cs ih =>
    obtain ⟨⟨here, given⟩, others⟩ := List.forall_mem_cons.mp total
    obtain ⟨rest, givenRest, meant⟩ := ih others
    rw [evalAll, given]
    cases here with
    | true => exact ⟨rest, givenRest, by simp [given, meant]⟩
    | false => exact ⟨false, rfl, by simp [given]⟩

theorem evalAny_of_ok (total : ∀ c ∈ cs, ∃ answer, eval run c = .ok answer) :
    ∃ answer, evalAny run cs = .ok answer ∧ (answer = true ↔ ∃ c ∈ cs, eval run c = .ok true) := by
  induction cs with
  | nil => exact ⟨false, rfl, by simp⟩
  | cons c cs ih =>
    obtain ⟨⟨here, given⟩, others⟩ := List.forall_mem_cons.mp total
    obtain ⟨rest, givenRest, meant⟩ := ih others
    rw [evalAny, given]
    cases here with
    | true => exact ⟨true, rfl, by simp [given]⟩
    | false => exact ⟨rest, givenRest, by simp [given, meant]⟩

end Condition

namespace Inventory

open Query

variable {inventory : Inventory} {registry : Registry} {text : String} {found : List Rule} {s : Sentence}
  {condition : Condition Atom} {conditions : List (Condition Atom)}

def Answers (inventory : Inventory) (registry : Registry) (condition : Condition Atom) : Prop :=
  ∀ rule ∈ inventory.rules.values, ∃ answer, holds registry rule condition = .ok answer

open scoped Classical in
/-- The stored rules on which a condition is true. -/
noncomputable def satisfying (inventory : Inventory) (registry : Registry) (condition : Condition Atom) : List Rule :=
  inventory.rules.values.filter fun rule => holds registry rule condition = .ok true

theorem mem_satisfying {rule : Rule} :
    rule ∈ inventory.satisfying registry condition ↔
      rule ∈ inventory.rules.values ∧ holds registry rule condition = .ok true := by
  simp [satisfying]

/-- To be true on a rule may be said in another way, as long as it comes to the same for stored rules. -/
theorem satisfying_eq_filter {p : Rule → Prop} [DecidablePred p]
    (same : ∀ rule ∈ inventory.rules.values, holds registry rule condition = .ok true ↔ p rule) :
    inventory.satisfying registry condition = inventory.rules.values.filter fun rule => p rule := by
  apply List.filter_congr
  intro rule stored
  simp [same rule stored]

theorem select_of_answers (answers : inventory.Answers registry condition) :
    inventory.select registry condition = .ok (inventory.satisfying registry condition) := by
  apply filterM_eq_pure
  intro rule stored
  obtain ⟨answer, given⟩ := answers rule stored
  rw [given]
  cases answer <;> simp [pure, Except.pure]

theorem select_eq_ok_iff :
    inventory.select registry condition = .ok found ↔
      inventory.Answers registry condition ∧ found = inventory.satisfying registry condition := by
  constructor
  · intro selected
    have answers : inventory.Answers registry condition := exists_ok_of_filterM selected
    exact ⟨answers, Except.ok.inj (selected.symm.trans (select_of_answers answers))⟩
  · rintro ⟨answers, rfl⟩
    exact select_of_answers answers

/-- A search finds rules when its query is written as a sentence that stands for a condition with a value on every
stored rule, and then those on which it is true. -/
theorem search_eq_ok_iff :
    inventory.search registry text = .ok found ↔
      ∃ s condition, Reads text s ∧ Denotes (some inventory.catalog) s condition ∧
        inventory.Answers registry condition ∧ found = inventory.satisfying registry condition := by
  simp only [← select_eq_ok_iff]
  constructor
  · intro searched
    unfold search at searched
    cases parsed : parse (some inventory.catalog) text with
    | error cause =>
      rw [parsed] at searched
      cases searched
    | ok condition =>
      obtain ⟨s, reads, denotes⟩ := reads_of_parse parsed
      refine ⟨s, condition, reads, denotes, ?_⟩
      rw [parsed] at searched
      dsimp only at searched
      cases selected : inventory.select registry condition with
      | error cause =>
        rw [selected] at searched
        cases searched
      | ok rules =>
        rw [selected] at searched
        cases searched
        rfl
  · rintro ⟨s, condition, reads, denotes, selected⟩
    unfold search
    rw [parse_of_reads reads denotes]
    dsimp only
    rw [selected]
    rfl

theorem answers_not_iff : inventory.Answers registry (.not condition) ↔ inventory.Answers registry condition := by
  refine forall₂_congr fun rule _ => ?_
  constructor
  · rintro ⟨answer, given⟩
    exact ⟨!answer, Condition.eval_not_eq_ok_iff.mp (by rwa [Bool.not_not])⟩
  · rintro ⟨answer, given⟩
    exact ⟨!answer, Condition.eval_not_eq_ok_iff.mpr given⟩

/-- A search with `not` finds the stored rules on which a condition with a value everywhere is not true. -/
theorem search_not_eq_ok_iff :
    inventory.search registry (enclose "not" text) = .ok found ↔
      ∃ s condition, Reads text s ∧ Denotes (some inventory.catalog) s condition ∧
        inventory.Answers registry condition ∧ found = inventory.satisfying registry (.not condition) := by
  rw [search_eq_ok_iff]
  constructor
  · rintro ⟨t, _, reads, denotes, answers, rfl⟩
    obtain ⟨s, rfl, inner⟩ := reads_enclose_not.mp reads
    cases denotes with
    | negated denotes => exact ⟨s, _, inner, denotes, answers_not_iff.mp answers, rfl⟩
  · rintro ⟨s, condition, reads, denotes, answers, rfl⟩
    exact ⟨.negated s, _, reads_enclose_not.mpr ⟨s, rfl, reads⟩, .negated denotes, answers_not_iff.mpr answers, rfl⟩

/-- A search with `not` succeeds just when the search without does. -/
theorem search_not_succeeds_iff :
    (∃ found, inventory.search registry (enclose "not" text) = .ok found) ↔
      ∃ found, inventory.search registry text = .ok found := by
  constructor
  · rintro ⟨_, searched⟩
    obtain ⟨s, condition, reads, denotes, answers, _⟩ := search_not_eq_ok_iff.mp searched
    exact ⟨_, search_eq_ok_iff.mpr ⟨s, condition, reads, denotes, answers, rfl⟩⟩
  · rintro ⟨_, searched⟩
    obtain ⟨s, condition, reads, denotes, answers, _⟩ := search_eq_ok_iff.mp searched
    exact ⟨_, search_not_eq_ok_iff.mpr ⟨s, condition, reads, denotes, answers, rfl⟩⟩

/-- Queries of searches that find rules are written as sentences for conditions with a value on every stored rule. -/
theorem exists_of_searches {texts : List String} {founds : List (List Rule)}
    (searched : List.Forall₂ (fun text found => inventory.search registry text = .ok found) texts founds) :
    ∃ ss conditions, List.Forall₂ Reads texts ss ∧ AllDenote (some inventory.catalog) ss conditions ∧
      (∀ condition ∈ conditions, inventory.Answers registry condition) ∧
      founds = conditions.map (inventory.satisfying registry) := by
  induction searched with
  | nil => exact ⟨[], [], .nil, .nil, List.forall_mem_nil _, rfl⟩
  | cons here _ ih =>
    obtain ⟨s, condition, reads, denotes, answers, rfl⟩ := search_eq_ok_iff.mp here
    obtain ⟨ss, conditions, more, denote, others, rfl⟩ := ih
    exact ⟨s :: ss, condition :: conditions, .cons reads more, .cons denotes denote,
      List.forall_mem_cons.mpr ⟨answers, others⟩, rfl⟩

/-- On a stored rule a junction of conditions with a value everywhere has the value that joins theirs. -/
theorem exists_holds_all {rule : Rule} (stored : rule ∈ inventory.rules.values)
    (answers : ∀ condition ∈ conditions, inventory.Answers registry condition) :
    ∃ answer, holds registry rule (.all conditions) = .ok answer ∧
      (answer = true ↔ ∀ condition ∈ conditions, holds registry rule condition = .ok true) :=
  Condition.evalAll_of_ok fun condition listed => answers condition listed rule stored

theorem exists_holds_any {rule : Rule} (stored : rule ∈ inventory.rules.values)
    (answers : ∀ condition ∈ conditions, inventory.Answers registry condition) :
    ∃ answer, holds registry rule (.any conditions) = .ok answer ∧
      (answer = true ↔ ∃ condition ∈ conditions, holds registry rule condition = .ok true) :=
  Condition.evalAny_of_ok fun condition listed => answers condition listed rule stored

/-- A search with `and` or `or` finds the stored rules on which the conditions are true, joined. -/
theorem search_junction (junction : Junction) {texts : List String} {ss : List Sentence}
    (reads : Reads text s) (more : List.Forall₂ Reads texts ss)
    (denotes : Denotes (some inventory.catalog) s condition)
    (denote : AllDenote (some inventory.catalog) ss conditions)
    (answers : inventory.Answers registry (junction.condition (condition :: conditions))) :
    inventory.search registry (enclose junction.word (" ".intercalate (text :: texts))) =
      .ok (inventory.satisfying registry (junction.condition (condition :: conditions))) :=
  search_eq_ok_iff.mpr ⟨_, _, reads_enclose_junction junction reads more, .joined denotes denote, answers, rfl⟩

theorem enclose_not (text : String) : enclose "not" text = "(not " ++ text ++ ")" := by
  rw [enclose, show "(" ++ "not" ++ " " = "(not " from rfl]

open scoped Classical in
/-- Searches compose. With a text behind `not`, a search fails just when it fails with the text, and
otherwise finds the stored rules that it does not find with the text. With texts behind `and` or `or`, where
it finds rules with each, it finds the stored rules that it finds with all of them, or with some of them. -/
theorem search_composes (inventory : Inventory) (registry : Registry) :
    (∀ text,
      ((∃ cause, inventory.search registry ("(not " ++ text ++ ")") = .error cause) ↔
        ∃ cause, inventory.search registry text = .error cause) ∧
      ∀ found, inventory.search registry text = .ok found →
        inventory.search registry ("(not " ++ text ++ ")") =
          .ok (inventory.rules.values.filter fun rule => rule ∉ found)) ∧
    ∀ texts founds, texts ≠ [] →
      List.Forall₂ (fun text found => inventory.search registry text = .ok found) texts founds →
        inventory.search registry ("(and " ++ " ".intercalate texts ++ ")") =
          .ok (inventory.rules.values.filter fun rule => ∀ found ∈ founds, rule ∈ found) ∧
        inventory.search registry ("(or " ++ " ".intercalate texts ++ ")") =
          .ok (inventory.rules.values.filter fun rule => ∃ found ∈ founds, rule ∈ found) := by
  constructor
  · intro text
    rw [← enclose_not]
    constructor
    · rw [exists_error_iff, exists_error_iff, search_not_succeeds_iff]
    · intro found searched
      obtain ⟨s, condition, reads, denotes, answers, rfl⟩ := search_eq_ok_iff.mp searched
      rw [search_not_eq_ok_iff.mpr ⟨s, condition, reads, denotes, answers, rfl⟩]
      refine congrArg Except.ok (satisfying_eq_filter fun rule stored => ?_)
      obtain ⟨answer, given⟩ := answers rule stored
      have negated : holds registry rule (.not condition) = .ok (!answer) := Condition.eval_not_eq_ok_iff.mpr given
      simp [mem_satisfying, stored, given, negated]
  · intro texts founds some searched
    obtain ⟨ss, conditions, reads, denote, answers, rfl⟩ := exists_of_searches searched
    cases reads with
    | nil => exact absurd rfl some
    | @cons text s texts ss read more =>
      cases denote with
      | @cons _ _ condition conditions denotes denote =>
        constructor
        · have joined {rule : Rule} (stored : rule ∈ inventory.rules.values) := exists_holds_all stored answers
          have all : inventory.search registry _ = _ := search_junction .all read more denotes denote
            fun rule stored => (joined stored).imp fun _ => And.left
          rw [show "(and " = "(" ++ Junction.all.word ++ " " from rfl]
          refine all.trans (congrArg Except.ok (satisfying_eq_filter fun rule stored => ?_))
          obtain ⟨answer, given, meant⟩ := joined stored
          rw [Junction.condition, given, Except.ok.injEq, meant]
          simp [mem_satisfying, stored]
        · have joined {rule : Rule} (stored : rule ∈ inventory.rules.values) := exists_holds_any stored answers
          have any : inventory.search registry _ = _ := search_junction .any read more denotes denote
            fun rule stored => (joined stored).imp fun _ => And.left
          rw [show "(or " = "(" ++ Junction.any.word ++ " " from rfl]
          refine any.trans (congrArg Except.ok (satisfying_eq_filter fun rule stored => ?_))
          obtain ⟨answer, given, meant⟩ := joined stored
          rw [Junction.condition, given, Except.ok.injEq, meant]
          simp [mem_satisfying, stored]

def nowhere : Group where
  name := "nowhere"
  serial := 6
  family := .address

def outgoing : Rule :=
  { original with destination := nowhere, destinationFamily := rfl }

def incoming : Rule :=
  { original with number := .int 20, source := nowhere, sourceFamily := rfl }

def bothWays : Inventory where
  rules := { kind := .rule, entries := [(.drawn 1, outgoing), (.drawn 2, incoming)] }

/-- Of the two rules, one has an address in its source and the other one in its destination; the search for
either address finds both rules, and behind `not` the search for the first finds the second. -/
theorem bothWays_search :
    bothWays.search Heap.nestedPair.registry "(has \"10.0.0.2\" in src)" = .ok [outgoing] ∧
      bothWays.search Heap.nestedPair.registry "(has \"10.0.0.1\" in dst)" = .ok [incoming] ∧
      bothWays.search Heap.nestedPair.registry
        "(or (has \"10.0.0.2\" in src) (has \"10.0.0.1\" in dst))" = .ok [outgoing, incoming] ∧
      bothWays.search Heap.nestedPair.registry "(not (has \"10.0.0.2\" in src))" = .ok [incoming] := by
  have sourceReads : Reads "(has \"10.0.0.2\" in src)" (.test .has "10.0.0.2" (.bare "src")) := by
    unfold Reads
    decide
  have destinationReads : Reads "(has \"10.0.0.1\" in dst)" (.test .has "10.0.0.1" (.bare "dst")) := by
    unfold Reads
    decide
  have source :
      bothWays.search Heap.nestedPair.registry "(has \"10.0.0.2\" in src)" = .ok [outgoing] := by
    have parsed : parse (some bothWays.catalog) _ = .ok (.test (.has (hostAt 167772162) .source)) :=
      parse_of_reads sourceReads (.test rfl ⟨rfl, by decide⟩)
    rw [search, parsed]
    cbv
  have destination :
      bothWays.search Heap.nestedPair.registry "(has \"10.0.0.1\" in dst)" = .ok [incoming] := by
    have parsed : parse (some bothWays.catalog) _ = .ok (.test (.has (hostAt 167772161) .destination)) :=
      parse_of_reads destinationReads (.test rfl ⟨rfl, by decide⟩)
    rw [search, parsed]
    cbv
  have distinct : incoming ≠ outgoing := fun same =>
    absurd (Value.int.inj (congrArg Rule.number same)) (by decide)
  obtain ⟨negated, joined⟩ := search_composes bothWays Heap.nestedPair.registry
  have either := (joined ["(has \"10.0.0.2\" in src)", "(has \"10.0.0.1\" in dst)"]
    [[outgoing], [incoming]] (List.cons_ne_nil _ _) (.cons source (.cons destination .nil))).2
  have other := (negated "(has \"10.0.0.2\" in src)").2 [outgoing] source
  refine ⟨source, destination, either.trans ?_, other.trans ?_⟩
  · simp [bothWays, Store.values]
  · simp [bothWays, Store.values, distinct]

end Inventory

end Rulebase
