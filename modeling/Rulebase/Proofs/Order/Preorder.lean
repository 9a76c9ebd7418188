import Mathlib.Logic.Relation
import Rulebase.Order.Traversal

/-!
# The traversal is the recursive descent

The recursive descent takes a vertex, then all that it leads to, and then the vertices behind it, where whatever was
taken is marked. A stack is a row of descents still to be made: what is met from a stack is what is met from its front,
and then what is met from the rest with the marks of the front. So the traversal meets the vertices in the order of the
descent, though a vertex is marked only when it leaves the stack. As a loop, which puts neighbours on the stack in
reverse and takes the last vertex of it, the traversal comes to an end, and by then it has met what the descent meets.
-/

namespace Rulebase.Order

namespace Graph

variable {α κ : Type} [DecidableEq κ] {graph : Graph α κ} {seen : List κ}

theorem length_unmarked_le (graph : Graph α κ) {more : List κ} (marked : seen ⊆ more) :
    (graph.unmarked more).length ≤ (graph.unmarked seen).length := by
  rw [unmarked, unmarked, ← List.countP_eq_length_filter, ← List.countP_eq_length_filter]
  refine List.countP_mono_left fun k _ fresh => ?_
  exact decide_eq_true fun found => of_decide_eq_true fresh (marked found)

/-- With no mark less and fewer vertices to go, less is to be done. -/
theorem less_of_shorter (graph : Graph α κ) {more : List κ} {vertices others : List α} (marked : seen ⊆ more)
    (shorter : others.length < vertices.length) :
    Prod.Lex (· < ·) (· < ·) ((graph.unmarked more).length, others.length)
      ((graph.unmarked seen).length, vertices.length) := by
  rw [Prod.lex_def]
  rcases Nat.lt_or_eq_of_le (graph.length_unmarked_le marked) with less | equal
  · exact Or.inl less
  · exact Or.inr ⟨equal, shorter⟩

/-- The vertices met by descending from vertices one after another, past those already marked: a vertex, then all that
it leads to, then what the vertices behind it lead to. -/
def preorder (graph : Graph α κ) (seen : List κ) (vertices : List α) : List α :=
  match vertices with
  | [] => []
  | a :: rest =>
    if graph.key a ∈ seen then graph.preorder seen rest
    else
      let below := graph.preorder (graph.key a :: seen) (graph.next a)
      a :: (below ++ graph.preorder (below.map graph.key ++ graph.key a :: seen) rest)
termination_by ((graph.unmarked seen).length, vertices.length)
decreasing_by
  · exact graph.less_of_shorter (List.Subset.refl seen) (Nat.lt_succ_self _)
  · rename_i fresh
    by_cases known : graph.key a ∈ graph.keys
    · exact Prod.Lex.left _ _ (length_filter_cons_lt known fresh)
    · rw [graph.next_eq_nil a known]
      exact graph.less_of_shorter (List.subset_cons_self _ seen) (Nat.succ_pos _)
  · have marked := List.subset_append_of_subset_right (below.map graph.key) (List.subset_cons_self (graph.key a) seen)
    exact graph.less_of_shorter marked (Nat.lt_succ_self _)

/-- What is met depends on what is marked, and not on the order of the marks. -/
theorem visit_eq_of_marks {other : List κ} (stack : List α) (same : ∀ k, k ∈ seen ↔ k ∈ other) :
    graph.visit seen stack = graph.visit other stack := by
  fun_induction visit graph seen stack generalizing other with
  | case1 seen => exact (graph.visit_nil other).symm
  | case2 seen a rest marked ih =>
    rw [visit_cons, if_pos ((same _).mp marked)]
    exact ih same
  | case3 seen a rest fresh ih =>
    rw [visit_cons, if_neg fun marked => fresh ((same _).mpr marked)]
    refine congrArg (a :: ·) (ih fun k => ?_)
    rw [List.mem_cons, List.mem_cons, same]

/-- From a stack is met what is met from its front, and then what is met from the rest past that. -/
theorem visit_append (seen : List κ) (front rest : List α) :
    graph.visit seen (front ++ rest) =
      graph.visit seen front ++ graph.visit ((graph.visit seen front).map graph.key ++ seen) rest := by
  fun_induction visit graph seen front with
  | case1 seen => rfl
  | case2 seen a front marked ih =>
    rw [List.cons_append, visit_cons, if_pos marked]
    exact ih
  | case3 seen a front fresh ih =>
    rw [List.cons_append, visit_cons, if_neg fresh, ← List.append_assoc, ih, List.cons_append]
    refine congrArg (a :: _ ++ ·) (visit_eq_of_marks rest fun k => ?_)
    simp only [List.map_cons, List.cons_append, List.mem_append, List.mem_cons]
    exact or_left_comm

/-- The traversal from a stack meets what the descents from its vertices meet, in their order. -/
theorem visit_eq_preorder (graph : Graph α κ) (seen : List κ) (stack : List α) :
    graph.visit seen stack = graph.preorder seen stack := by
  fun_induction preorder graph seen stack with
  | case1 seen => exact graph.visit_nil seen
  | case2 seen a rest marked ih => rw [visit_cons, if_pos marked, ih]
  | case3 seen a rest fresh below ihBelow ihRest =>
    rw [visit_cons, if_neg fresh, visit_append, ihBelow, ihRest]

end Graph

/-- How far a traversal has come: the marks, the stack with its top at the end, and what was met so far. -/
structure Traversal (α κ : Type) where
  seen : List κ := []
  stack : List α
  met : List α := []

namespace Traversal

variable {α κ : Type} [DecidableEq κ] {graph : Graph α κ}

/-- One turn of the traversal: it takes the last vertex from the stack and, unless the vertex is marked, marks it, meets
it and puts its neighbours on the stack in reverse. With nothing on the stack there is no turn. -/
def turn (graph : Graph α κ) (t : Traversal α κ) : Option (Traversal α κ) :=
  match t.stack.getLast? with
  | none => none
  | some a =>
    if graph.key a ∈ t.seen then some { t with stack := t.stack.dropLast }
    else some
      { seen := graph.key a :: t.seen
        stack := t.stack.dropLast ++ (graph.next a).reverse
        met := t.met ++ [a] }

/-- One state of a traversal comes after another some turns later. -/
def Leads (graph : Graph α κ) : Traversal α κ → Traversal α κ → Prop :=
  Relation.ReflTransGen fun t u => t.turn graph = some u

theorem turn_eq_none_iff {t : Traversal α κ} : t.turn graph = none ↔ t.stack = [] := by
  unfold turn
  split
  next none => simpa using none
  next a last =>
    have some : t.stack ≠ [] := fun empty => by simp [empty] at last
    split <;> simp [some]

/-- The loop comes to an end and has met by then what the traversal meets from the stack. -/
theorem leads_visit (graph : Graph α κ) (seen : List κ) (stack met : List α) :
    ∃ marks, Leads graph ⟨seen, stack.reverse, met⟩ ⟨marks, [], met ++ graph.visit seen stack⟩ := by
  fun_induction Graph.visit graph seen stack generalizing met with
  | case1 seen => exact ⟨seen, by rw [List.append_nil]; exact .refl⟩
  | case2 seen a rest marked ih =>
    obtain ⟨marks, leads⟩ := ih met
    have turned : turn graph ⟨seen, (a :: rest).reverse, met⟩ = some ⟨seen, rest.reverse, met⟩ := by
      simp [turn, marked]
    exact ⟨marks, .head turned leads⟩
  | case3 seen a rest fresh ih =>
    obtain ⟨marks, leads⟩ := ih (met ++ [a])
    have turned : turn graph ⟨seen, (a :: rest).reverse, met⟩ =
        some ⟨graph.key a :: seen, (graph.next a ++ rest).reverse, met ++ [a]⟩ := by
      simp [turn, fresh]
    rw [List.append_assoc, List.singleton_append] at leads
    exact ⟨marks, .head turned leads⟩

end Traversal

end Rulebase.Order
