/-!
# Conditions

Tests joined by conjunction, disjunction and negation. They are evaluated from left to right, and what
cannot change the outcome any more is not evaluated, which shows where tests have effects of their own
or fail.
-/

namespace Rulebase

inductive Condition (α : Type) where
  | test (a : α)
  | all (conditions : List (Condition α))
  | any (conditions : List (Condition α))
  | not (condition : Condition α)
  deriving Repr

namespace Condition

variable {α : Type} {m : Type → Type} [Monad m]

mutual

def eval (run : α → m Bool) : Condition α → m Bool
  | test a => run a
  | all conditions => evalAll run conditions
  | any conditions => evalAny run conditions
  | not condition => do return !(← eval run condition)

/-- True when every condition is; the first false one ends it. -/
def evalAll (run : α → m Bool) : List (Condition α) → m Bool
  | [] => pure true
  | condition :: rest => do
    if ← eval run condition then evalAll run rest else pure false

/-- True when some condition is; the first true one ends it. -/
def evalAny (run : α → m Bool) : List (Condition α) → m Bool
  | [] => pure false
  | condition :: rest => do
    if ← eval run condition then pure true else evalAny run rest

end

end Condition

end Rulebase
