import Rulebase.Proofs.Query.Meaning
import Rulebase.Proofs.Rule.Sides

/-!
# Rules that no query tells apart

Two rules are twins when their groups match side by side. Whatever one of them offers on a side has a match
that the other offers there, so every test has the same outcome on both, and with the tests every query, in
whatever shapes the two rules share or copy their nested groups.
-/

namespace Rulebase

/-- Two rules whose groups match side by side. -/
structure Rule.Twins (registry : Registry) (rule other : Rule) : Prop where
  source : registry.Matches (.group rule.source) (.group other.source)
  destination : registry.Matches (.group rule.destination) (.group other.destination)
  service : registry.Matches (.group rule.service) (.group other.service)

theorem Rule.Twins.symm {registry : Registry} {rule other : Rule} (twins : rule.Twins registry other) :
    other.Twins registry rule :=
  ⟨twins.source.symm, twins.destination.symm, twins.service.symm⟩

namespace Heap

variable {heap : Heap} {rule other : Rule} {side : Side} {x m : Object}

/-- Rules are twins when their groups are found to match. -/
theorem Closed.twins (closed : heap.Closed) (here : heap.HasRule rule) (there : heap.HasRule other)
    (source : heap.registry.sameGroup rule.source other.source = true)
    (destination : heap.registry.sameGroup rule.destination other.destination = true)
    (service : heap.registry.sameGroup rule.service other.service = true) :
    rule.Twins heap.registry other where
  source := closed.matches_of_sameGroup here.source there.source source
  destination := closed.matches_of_sameGroup here.destination there.destination destination
  service := closed.matches_of_sameGroup here.service there.service service

end Heap

namespace Query

variable {catalog : Option Catalog} {registry : Registry} {rule other : Rule}

/-- Every test of what a literal denotes has the same outcome on two rules. -/
def TestsAgree (catalog : Option Catalog) (registry : Registry) (rule other : Rule) : Prop :=
  ∀ (verb : Verb) (literal : String) (x : Object) (side : Side), object? catalog literal = some x →
    (verb.Passes registry rule x side ↔ verb.Passes registry other x side)

mutual

/-- A sentence says the same of two rules when every test does, and so its evaluation comes to the same tests. -/
theorem Sentence.alike (agree : TestsAgree catalog registry rule other) (s : Sentence) :
    (s.Holds catalog registry rule ↔ s.Holds catalog registry other) ∧
      (s.AsksBoth catalog registry rule ↔ s.AsksBoth catalog registry other) := by
  match s with
  | .test verb literal selection =>
    refine ⟨?_, Iff.rfl⟩
    simp only [Sentence.Holds]
    refine exists_congr fun x => exists_congr fun side => and_congr_right fun found =>
      and_congr_right fun _ => ?_
    exact agree verb literal x side found
  | .joined .all first rest =>
    obtain ⟨holds, asks⟩ := first.alike agree
    obtain ⟨holdsAll, asksAll⟩ := all_alike agree rest
    simp only [Sentence.Holds, Sentence.AsksBoth]
    exact ⟨and_congr holds holdsAll, or_congr asks (and_congr holds asksAll)⟩
  | .joined .any first rest =>
    obtain ⟨holds, asks⟩ := first.alike agree
    obtain ⟨holdsAny, asksAny⟩ := any_alike agree rest
    simp only [Sentence.Holds, Sentence.AsksBoth]
    exact ⟨or_congr holds holdsAny, or_congr asks (and_congr (not_congr holds) asksAny)⟩
  | .negated inner =>
    obtain ⟨holds, asks⟩ := inner.alike agree
    simp only [Sentence.Holds, Sentence.AsksBoth]
    exact ⟨not_congr holds, asks⟩

theorem all_alike (agree : TestsAgree catalog registry rule other) (ss : List Sentence) :
    (AllHold catalog registry rule ss ↔ AllHold catalog registry other ss) ∧
      (AllAskBoth catalog registry rule ss ↔ AllAskBoth catalog registry other ss) := by
  match ss with
  | [] => exact ⟨Iff.rfl, Iff.rfl⟩
  | s :: rest =>
    obtain ⟨holds, asks⟩ := s.alike agree
    obtain ⟨holdsAll, asksAll⟩ := all_alike agree rest
    simp only [AllHold, AllAskBoth]
    exact ⟨and_congr holds holdsAll, or_congr asks (and_congr holds asksAll)⟩

theorem any_alike (agree : TestsAgree catalog registry rule other) (ss : List Sentence) :
    (AnyHolds catalog registry rule ss ↔ AnyHolds catalog registry other ss) ∧
      (AnyAsksBoth catalog registry rule ss ↔ AnyAsksBoth catalog registry other ss) := by
  match ss with
  | [] => exact ⟨Iff.rfl, Iff.rfl⟩
  | s :: rest =>
    obtain ⟨holds, asks⟩ := s.alike agree
    obtain ⟨holdsAny, asksAny⟩ := any_alike agree rest
    simp only [AnyHolds, AnyAsksBoth]
    exact ⟨or_congr holds holdsAny, or_congr asks (and_congr (not_congr holds) asksAny)⟩

end

/-- A query gives an answer on a rule; only when the number of the rule cannot be written, it may fail for that
instead. -/
def Gives (registry : Registry) (rule : Rule) (condition : Condition Atom) (answer : Bool) : Prop :=
  (rule.number.isWritable = true → holds registry rule condition = .ok answer) ∧
    (rule.number.isWritable = false →
      holds registry rule condition = .ok answer ∨ holds registry rule condition = .error (.numeral .tooLarge))

open scoped Classical in
theorem Tells.gives {condition : Condition Atom} {asks holds : Prop}
    (tells : Tells rule asks holds (Query.holds registry rule condition)) :
    Gives registry rule condition (decide holds) := by
  generalize evaluated : Query.holds registry rule condition = outcome at tells
  cases tells with
  | @answers answer _ meant =>
    have right : answer = decide holds := Bool.eq_iff_iff.mpr (by simpa using meant)
    exact ⟨fun _ => right ▸ evaluated, fun _ => Or.inl (right ▸ evaluated)⟩
  | fails unwritable _ =>
    exact ⟨fun writable => by simp [unwritable] at writable, fun _ => Or.inr evaluated⟩

def duplicate : Rule :=
  { original with
    number := .int 20
    source := everythingCopy
    destination := serversCopy
    action := .bool false
    comment := "copied"
    sourceFamily := rfl
    destinationFamily := rfl }

end Query

end Rulebase
