import Mathlib.Control.Lawful
import Rulebase.Condition

/-!
# Laws of conditions

A condition turned into its dual, with conjunctions for disjunctions and every test negated, does what its negation
does, and the operands of a conjunction or disjunction can be bracketed in blocks anywhere in a condition. Both hold
whatever the tests do besides giving a value. For tests that are noted when they are asked and may fail, this says that the
outcome is the same, a failure included, and that the same tests are asked in the same order; and what that outcome and
that order are can be told rule by rule.
-/

namespace Rulebase.Condition

variable {α : Type}

mutual

/-- The condition with conjunctions and disjunctions exchanged and every test negated. -/
def dual : Condition α → Condition α
  | test a => not (test a)
  | all conditions => any (dualAll conditions)
  | any conditions => all (dualAll conditions)
  | not condition => not condition.dual

def dualAll : List (Condition α) → List (Condition α)
  | [] => []
  | condition :: rest => condition.dual :: dualAll rest

end

/-- A condition is another one with the operands of one conjunction or disjunction in it bracketed in blocks. -/
inductive Brackets : Condition α → Condition α → Prop where
  | all (blocks : List (List (Condition α))) : Brackets (.all blocks.flatten) (.all (blocks.map .all))
  | any (blocks : List (List (Condition α))) : Brackets (.any blocks.flatten) (.any (blocks.map .any))
  | inAll {c d : Condition α} (front back : List (Condition α)) (inner : Brackets c d) :
      Brackets (.all (front ++ c :: back)) (.all (front ++ d :: back))
  | inAny {c d : Condition α} (front back : List (Condition α)) (inner : Brackets c d) :
      Brackets (.any (front ++ c :: back)) (.any (front ++ d :: back))
  | inNot {c d : Condition α} (inner : Brackets c d) : Brackets (.not c) (.not d)

section Laws

variable {m : Type → Type} [Monad m] [LawfulMonad m] (run : α → m Bool)

theorem eval_not (c : Condition α) : eval run (.not c) = (!·) <$> eval run c := by
  rw [eval, map_eq_pure_bind]

mutual

theorem eval_dual (c : Condition α) : eval run c.dual = eval run (.not c) := by
  match c with
  | test a => rw [dual]
  | all conditions =>
    rw [dual, eval_not, eval, eval]
    exact evalAny_dualAll conditions
  | any conditions =>
    rw [dual, eval_not, eval, eval]
    exact evalAll_dualAll conditions
  | not condition => rw [dual, eval_not, eval_dual condition, eval_not run (.not condition)]

/-- Duals are tried as alternatives as long as the conditions are true. -/
theorem evalAny_dualAll (cs : List (Condition α)) : evalAny run (dualAll cs) = (!·) <$> evalAll run cs := by
  match cs with
  | [] => simp [dualAll, evalAny, evalAll]
  | c :: rest =>
    rw [dualAll, evalAny, evalAll, eval_dual c, eval_not, bind_map_left, map_bind]
    refine congrArg (eval run c >>= ·) (funext fun value => ?_)
    cases value with
    | false => simp
    | true => simpa using evalAny_dualAll rest

/-- Duals are required one after another as long as the conditions are false. -/
theorem evalAll_dualAll (cs : List (Condition α)) : evalAll run (dualAll cs) = (!·) <$> evalAny run cs := by
  match cs with
  | [] => simp [dualAll, evalAny, evalAll]
  | c :: rest =>
    rw [dualAll, evalAll, evalAny, eval_dual c, eval_not, bind_map_left, map_bind]
    refine congrArg (eval run c >>= ·) (funext fun value => ?_)
    cases value with
    | false => simpa using evalAll_dualAll rest
    | true => simp

end

theorem evalAll_append (cs ds : List (Condition α)) :
    evalAll run (cs ++ ds) = (do if ← evalAll run cs then evalAll run ds else pure false) := by
  induction cs with
  | nil => simp [evalAll]
  | cons c cs ih =>
    rw [List.cons_append, evalAll, evalAll, bind_assoc, ih]
    refine congrArg (eval run c >>= ·) (funext fun value => ?_)
    cases value <;> simp

theorem evalAny_append (cs ds : List (Condition α)) :
    evalAny run (cs ++ ds) = (do if ← evalAny run cs then pure true else evalAny run ds) := by
  induction cs with
  | nil => simp [evalAny]
  | cons c cs ih =>
    rw [List.cons_append, evalAny, evalAny, bind_assoc, ih]
    refine congrArg (eval run c >>= ·) (funext fun value => ?_)
    cases value <;> simp

theorem evalAll_flatten (blocks : List (List (Condition α))) :
    evalAll run blocks.flatten = evalAll run (blocks.map .all) := by
  induction blocks with
  | nil => rfl
  | cons block blocks ih => rw [List.flatten_cons, evalAll_append, ih, List.map_cons, evalAll, eval]

theorem evalAny_flatten (blocks : List (List (Condition α))) :
    evalAny run blocks.flatten = evalAny run (blocks.map .any) := by
  induction blocks with
  | nil => rfl
  | cons block blocks ih => rw [List.flatten_cons, evalAny_append, ih, List.map_cons, evalAny, eval]

/-- Brackets change nothing of what a condition does. -/
theorem Brackets.eval_eq {c d : Condition α} (brackets : Brackets c d) : eval run c = eval run d := by
  induction brackets with
  | all blocks => exact evalAll_flatten run blocks
  | any blocks => exact evalAny_flatten run blocks
  | inAll front back _ ih => rw [eval, eval, evalAll_append, evalAll_append, evalAll, evalAll, ih]
  | inAny front back _ ih => rw [eval, eval, evalAny_append, evalAny_append, evalAny, evalAny, ih]
  | inNot _ ih => rw [eval_not, eval_not, ih]

end Laws

section Observation

variable {ε : Type}

/-- A test is noted when it is asked, and then gives its value or fails. -/
def ask (outcome : α → Except ε Bool) (a : α) : ExceptT ε (StateM (List α)) Bool := do
  modify (· ++ [a])
  ExceptT.mk (pure (outcome a))

/-- What comes of a condition, and the tests that were asked, in order. -/
def observe (outcome : α → Except ε Bool) (c : Condition α) : Except ε Bool × List α :=
  (eval (ask outcome) c).run.run []

/-- What comes of a condition and which tests are asked, told rule by rule. The conditions of a conjunction are taken
from the left as long as they are true, and those of a disjunction as long as they are false. -/
inductive Comes (outcome : α → Except ε Bool) : Condition α → Except ε Bool → List α → Prop where
  | test (a : α) : Comes outcome (.test a) (outcome a) [a]
  | allDone : Comes outcome (.all []) (.ok true) []
  | allNext {c : Condition α} {rest : List (Condition α)} {value : Except ε Bool} {first later : List α}
      (here : Comes outcome c (.ok true) first) (more : Comes outcome (.all rest) value later) :
      Comes outcome (.all (c :: rest)) value (first ++ later)
  | allStop {c : Condition α} {rest : List (Condition α)} {value : Except ε Bool} {first : List α}
      (here : Comes outcome c value first) (ends : value ≠ .ok true) : Comes outcome (.all (c :: rest)) value first
  | anyDone : Comes outcome (.any []) (.ok false) []
  | anyNext {c : Condition α} {rest : List (Condition α)} {value : Except ε Bool} {first later : List α}
      (here : Comes outcome c (.ok false) first) (more : Comes outcome (.any rest) value later) :
      Comes outcome (.any (c :: rest)) value (first ++ later)
  | anyStop {c : Condition α} {rest : List (Condition α)} {value : Except ε Bool} {first : List α}
      (here : Comes outcome c value first) (ends : value ≠ .ok false) : Comes outcome (.any (c :: rest)) value first
  | not {c : Condition α} {value : Except ε Bool} {asked : List α} (inner : Comes outcome c value asked) :
      Comes outcome (.not c) (value.map (!·)) asked

section Run

variable {x : ExceptT ε (StateM (List α)) Bool} {next : Bool → ExceptT ε (StateM (List α)) Bool} {before after : List α}

theorem run_bind_ok {b : Bool} (ran : x.run.run before = (.ok b, after)) :
    (x >>= next).run.run before = (next b).run.run after := by
  rw [ExceptT.run_bind, StateT.run_bind, ran]
  rfl

theorem run_bind_error {e : ε} (ran : x.run.run before = (.error e, after)) :
    (x >>= next).run.run before = (.error e, after) := by
  rw [ExceptT.run_bind, StateT.run_bind, ran]
  rfl

end Run

variable {outcome : α → Except ε Bool} {c : Condition α} {value : Except ε Bool} {asked : List α}

/-- What the rules tell is what the evaluation does, whatever was asked before. -/
theorem Comes.run_eq (comes : Comes outcome c value asked) (before : List α) :
    (eval (ask outcome) c).run.run before = (value, before ++ asked) := by
  induction comes generalizing before with
  | test a => rfl
  | allDone => rw [eval, evalAll, List.append_nil]; rfl
  | allNext _ _ ihHere ihMore =>
    rw [eval] at ihMore ⊢
    rw [evalAll, run_bind_ok (ihHere before), if_pos rfl, ihMore, List.append_assoc]
  | @allStop c rest value first _ ends ih =>
    rw [eval, evalAll]
    cases value with
    | error e => exact run_bind_error (ih before)
    | ok b =>
      cases b with
      | false => exact run_bind_ok (ih before)
      | true => exact absurd rfl ends
  | anyDone => rw [eval, evalAny, List.append_nil]; rfl
  | anyNext _ _ ihHere ihMore =>
    rw [eval] at ihMore ⊢
    rw [evalAny, run_bind_ok (ihHere before), if_neg Bool.false_ne_true, ihMore, List.append_assoc]
  | @anyStop c rest value first _ ends ih =>
    rw [eval, evalAny]
    cases value with
    | error e => exact run_bind_error (ih before)
    | ok b =>
      cases b with
      | false => exact absurd rfl ends
      | true => exact run_bind_ok (ih before)
  | @not c value _ _ ih =>
    rw [eval]
    cases value with
    | error e => exact run_bind_error (ih before)
    | ok b => exact run_bind_ok (ih before)

/-- What comes of a condition is the same when the tests are not noted. -/
theorem Comes.eval_eq (comes : Comes outcome c value asked) : eval outcome c = value := by
  induction comes with
  | test a => rfl
  | allDone => rfl
  | allNext _ _ ihHere ihMore =>
    rw [eval, evalAll, ihHere]
    exact ihMore
  | @allStop c rest value first _ ends ih =>
    rw [eval, evalAll, ih]
    cases value with
    | error e => rfl
    | ok b =>
      cases b with
      | false => rfl
      | true => exact absurd rfl ends
  | anyDone => rfl
  | anyNext _ _ ihHere ihMore =>
    rw [eval, evalAny, ihHere]
    exact ihMore
  | @anyStop c rest value first _ ends ih =>
    rw [eval, evalAny, ih]
    cases value with
    | error e => rfl
    | ok b =>
      cases b with
      | false => exact absurd rfl ends
      | true => rfl
  | @not c value _ _ ih =>
    rw [eval, ih]
    cases value <;> rfl

mutual

theorem exists_comes (outcome : α → Except ε Bool) (c : Condition α) : ∃ value asked, Comes outcome c value asked := by
  match c with
  | test a => exact ⟨_, _, .test a⟩
  | all conditions => exact exists_comes_all outcome conditions
  | any conditions => exact exists_comes_any outcome conditions
  | not condition =>
    obtain ⟨value, asked, comes⟩ := exists_comes outcome condition
    exact ⟨_, _, .not comes⟩

theorem exists_comes_all (outcome : α → Except ε Bool) (cs : List (Condition α)) :
    ∃ value asked, Comes outcome (.all cs) value asked := by
  match cs with
  | [] => exact ⟨_, _, .allDone⟩
  | c :: rest =>
    obtain ⟨value, asked, here⟩ := exists_comes outcome c
    obtain ⟨last, later, more⟩ := exists_comes_all outcome rest
    cases value with
    | error e => exact ⟨_, _, .allStop here nofun⟩
    | ok b =>
      cases b with
      | false => exact ⟨_, _, .allStop here nofun⟩
      | true => exact ⟨_, _, .allNext here more⟩

theorem exists_comes_any (outcome : α → Except ε Bool) (cs : List (Condition α)) :
    ∃ value asked, Comes outcome (.any cs) value asked := by
  match cs with
  | [] => exact ⟨_, _, .anyDone⟩
  | c :: rest =>
    obtain ⟨value, asked, here⟩ := exists_comes outcome c
    obtain ⟨last, later, more⟩ := exists_comes_any outcome rest
    cases value with
    | error e => exact ⟨_, _, .anyStop here nofun⟩
    | ok b =>
      cases b with
      | false => exact ⟨_, _, .anyNext here more⟩
      | true => exact ⟨_, _, .anyStop here nofun⟩

end

/-- An observation is what the rules tell. -/
theorem observe_eq_iff : observe outcome c = (value, asked) ↔ Comes outcome c value asked := by
  constructor
  · intro observed
    obtain ⟨told, order, comes⟩ := exists_comes outcome c
    have same : observe outcome c = (told, order) := comes.run_eq []
    rw [observed, Prod.mk.injEq] at same
    obtain ⟨rfl, rfl⟩ := same
    exact comes
  · intro comes
    exact comes.run_eq []

/-- Whatever the tests give, and whichever of them fail: conditions are evaluated from the left and no further than
needed, as the rules tell, and noting the tests does not change what comes of it; a condition behind `not` and its dual
come to the same value or the same failure and ask the same tests in the same order; and so does a condition with
operands bracketed in blocks. -/
theorem observe_dual_and_brackets (outcome : α → Except ε Bool) :
    (∀ c value asked, observe outcome c = (value, asked) ↔ Comes outcome c value asked) ∧
      (∀ c, (observe outcome c).1 = eval outcome c) ∧
      (∀ c, observe outcome (.not c) = observe outcome c.dual) ∧
      ∀ c d, Brackets c d → observe outcome c = observe outcome d := by
  refine ⟨fun c value asked => observe_eq_iff, fun c => ?_, fun c => ?_, fun c d brackets => ?_⟩
  · exact (Comes.eval_eq (observe_eq_iff.mp rfl)).symm
  · rw [observe, observe, eval_dual]
  · rw [observe, observe, brackets.eval_eq]

/-- A disjunction fails where the second of its conditions does, after a conjunction that is false before its last test;
so does its dual, and so it does with the conjunction bracketed. -/
theorem observe_brackets_failing :
    let outcome : Nat → Except String Bool := fun n => if n < 2 then .ok (n == 1) else .error "boom"
    let plain : Condition Nat := .any [.all [.test 1, .test 0, .test 2], .test 2, .test 1]
    let bracketed : Condition Nat := .any [.all [.all [.test 1], .all [], .all [.test 0, .test 2]], .test 2, .test 1]
    Brackets plain bracketed ∧ observe outcome bracketed = (.error "boom", [1, 0, 2]) ∧
      observe outcome plain.dual = (.error "boom", [1, 0, 2]) := by
  intro outcome plain bracketed
  obtain ⟨_, _, negated, alike⟩ := observe_dual_and_brackets outcome
  have brackets : Brackets plain bracketed := .inAny [] _ (.all [[.test 1], [], [.test 0, .test 2]])
  have observed : observe outcome plain = (.error "boom", [1, 0, 2]) := rfl
  exact ⟨brackets, (alike plain bracketed brackets).symm.trans observed, (negated plain).symm.trans rfl⟩

end Observation

end Rulebase.Condition
