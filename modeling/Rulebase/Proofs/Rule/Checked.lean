import Rulebase.Proofs.Group.Uniform
import Rulebase.Proofs.Rule.Indistinct
import Rulebase.Rule.Mixed

/-!
# Queries that parse do not fail

A test can fail only where a group is asked for what is not of its family. The parser lets a literal stand
with a side of its family only, and below the group of a side there are only groups of that family, also
where both ends of a rule are gathered. So even when every group met is checked, a query that parses has a
value on every rule whose number can be written, and on the others it fails for the number or not at all.
-/

namespace Rulebase

namespace Heap

variable {heap : Heap} {rule : Rule} {side : Side} {g : Group} {x : Object} {after : Registry}

/-- What was known is known when both ends of a rule are gathered. -/
theorem Knows.gathered (known : heap.Knows x) (rule : Rule) (label : Label) : (rule.gathered label heap).Knows x := by
  cases x with
  | leaf l => trivial
  | group g => exact known.imp_left (List.mem_append_left _)

end Heap

theorem mapError_bind {ε ε' α β : Type} (h : ε → ε') (x : Except ε α) (f : α → Except ε β) :
    (x >>= f).mapError h = (x.mapError h >>= fun a => (f a).mapError h) := by
  cases x <;> rfl

namespace Query

variable {catalog : Option Catalog} {registry : MixedRegistry} {rule : Rule}

/-- Every test of what a literal denotes comes to the same whether groups are checked or trusted. -/
def ChecksPass (catalog : Option Catalog) (registry : MixedRegistry) (rule : Rule) : Prop :=
  ∀ (verb : Verb) (literal : String) (x : Object) (side : Side), object? catalog literal = some x →
    (verb.atom x side).check registry rule =
      ((verb.atom x side).holds registry.toRegistry rule).mapError TestError.mixed

mutual

/-- What a sentence stands for comes to the same whether groups are checked or trusted. -/
theorem Denotes.eval_check (pass : ChecksPass catalog registry rule) {s : Sentence}
    {condition : Condition Atom} (denotes : Denotes catalog s condition) :
    condition.eval (Atom.check registry rule) =
      (holds registry.toRegistry rule condition).mapError TestError.mixed := by
  match s, denotes with
  | .test verb literal _, .test found named => exact pass verb literal _ _ found
  | .joined .all _ _, .joined first others => exact AllDenote.evalAll_check pass (.cons first others)
  | .joined .any _ _, .joined first others => exact AllDenote.evalAny_check pass (.cons first others)
  | .negated _, .negated inner =>
    rw [holds, Condition.eval, Condition.eval, inner.eval_check pass, mapError_bind]
    rfl

theorem AllDenote.evalAll_check (pass : ChecksPass catalog registry rule) {ss : List Sentence}
    {conditions : List (Condition Atom)} (denote : AllDenote catalog ss conditions) :
    Condition.evalAll (Atom.check registry rule) conditions =
      (Condition.evalAll (Atom.holds registry.toRegistry rule) conditions).mapError TestError.mixed := by
  match ss, denote with
  | _, .nil => rfl
  | _, .cons first others =>
    rw [Condition.evalAll, Condition.evalAll, first.eval_check pass, mapError_bind]
    refine bind_congr fun answer => ?_
    cases answer with
    | true => exact others.evalAll_check pass
    | false => rfl

theorem AllDenote.evalAny_check (pass : ChecksPass catalog registry rule) {ss : List Sentence}
    {conditions : List (Condition Atom)} (denote : AllDenote catalog ss conditions) :
    Condition.evalAny (Atom.check registry rule) conditions =
      (Condition.evalAny (Atom.holds registry.toRegistry rule) conditions).mapError TestError.mixed := by
  match ss, denote with
  | _, .nil => rfl
  | _, .cons first others =>
    rw [Condition.evalAny, Condition.evalAny, first.eval_check pass, mapError_bind]
    refine bind_congr fun answer => ?_
    cases answer with
    | true => rfl
    | false => exact others.evalAny_check pass

end

end Query

end Rulebase
