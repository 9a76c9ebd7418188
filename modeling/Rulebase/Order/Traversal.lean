/-!
# Depth-first traversal

The vertices reachable from some vertex, each once and in the order of a depth-first descent. A vertex
is marked when it is taken from the stack, not when it is put there, so it may wait on the stack more
than once. Every vertex with neighbours has one of finitely many keys, so what it can put on the stack
while some of them are unmarked comes to a number of steps, and every step of the traversal leaves fewer.
-/

namespace Rulebase.Order

/-- A graph of which only finitely many vertices, known by their keys, have neighbours. -/
structure Graph (α κ : Type) where
  key : α → κ
  next : α → List α
  keys : List κ
  next_eq_nil : ∀ a, key a ∉ keys → next a = []

namespace Graph

variable {α κ : Type}

/-- The most steps that a vertex can cause while so many keys are unmarked. -/
def cost (graph : Graph α κ) : (unmarked : Nat) → α → Nat
  | 0, _ => 1
  | unmarked + 1, a => (graph.next a).foldr (fun b steps => graph.cost unmarked b + steps) 1

theorem foldr_add_eq (f : α → Nat) (xs : List α) (n : Nat) :
    xs.foldr (fun a steps => f a + steps) n = xs.foldr (fun a steps => f a + steps) 0 + n := by
  induction xs with
  | nil => exact (Nat.zero_add n).symm
  | cons a rest ih => rw [List.foldr_cons, List.foldr_cons, ih, Nat.add_assoc]

theorem foldr_add_mono {f g : α → Nat} (le : ∀ a, f a ≤ g a) (xs : List α) (n : Nat) :
    xs.foldr (fun a steps => f a + steps) n ≤ xs.foldr (fun a steps => g a + steps) n := by
  induction xs with
  | nil => exact Nat.le_refl n
  | cons a rest ih => exact Nat.add_le_add (le a) ih

theorem cost_succ (graph : Graph α κ) (unmarked : Nat) (a : α) :
    graph.cost (unmarked + 1) a = (graph.next a).foldr (fun b steps => graph.cost unmarked b + steps) 0 + 1 :=
  foldr_add_eq _ _ 1

theorem cost_pos (graph : Graph α κ) (unmarked : Nat) (a : α) : 0 < graph.cost unmarked a := by
  cases unmarked with
  | zero => exact Nat.one_pos
  | succ unmarked => exact cost_succ graph unmarked a ▸ Nat.succ_pos _

theorem cost_le_succ (graph : Graph α κ) (unmarked : Nat) (a : α) :
    graph.cost unmarked a ≤ graph.cost (unmarked + 1) a := by
  induction unmarked generalizing a with
  | zero => exact graph.cost_pos 1 a
  | succ unmarked ih => exact foldr_add_mono ih (graph.next a) 1

theorem cost_mono (graph : Graph α κ) {m n : Nat} (le : m ≤ n) (a : α) : graph.cost m a ≤ graph.cost n a := by
  induction le with
  | refl => exact Nat.le_refl _
  | step _ ih => exact Nat.le_trans ih (graph.cost_le_succ _ a)

variable [DecidableEq κ]

def unmarked (graph : Graph α κ) (seen : List κ) : List κ :=
  graph.keys.filter (· ∉ seen)

theorem length_filter_cons_le (keys seen : List κ) (k : κ) :
    (keys.filter (· ∉ k :: seen)).length ≤ (keys.filter (· ∉ seen)).length := by
  rw [← List.countP_eq_length_filter, ← List.countP_eq_length_filter]
  apply List.countP_mono_left
  intro x _ h
  have away : x ∉ k :: seen := of_decide_eq_true h
  exact decide_eq_true fun isSeen => away (List.mem_cons_of_mem k isSeen)

theorem length_filter_cons_lt {keys seen : List κ} {k : κ} (known : k ∈ keys) (fresh : k ∉ seen) :
    (keys.filter (· ∉ k :: seen)).length < (keys.filter (· ∉ seen)).length := by
  obtain ⟨before, after, rfl⟩ := List.append_of_mem known
  have here : decide (k ∉ k :: seen) = false := decide_eq_false fun h => h List.mem_cons_self
  have there : decide (k ∉ seen) = true := decide_eq_true fresh
  have left := length_filter_cons_le before seen k
  have right := length_filter_cons_le after seen k
  simp only [List.filter_append, List.filter_cons, here, there, Bool.false_eq_true, if_false, if_true,
    List.length_append, List.length_cons]
  omega

/-- The most steps that a stack can cause. -/
def work (graph : Graph α κ) (seen : List κ) (stack : List α) : Nat :=
  stack.foldr (fun a steps => graph.cost (graph.unmarked seen).length a + steps) 0

theorem work_skip (graph : Graph α κ) (seen : List κ) (a : α) (rest : List α) :
    graph.work seen rest < graph.work seen (a :: rest) :=
  Nat.lt_add_of_pos_left (graph.cost_pos _ a)

/-- Marking a vertex leaves less work, also with its neighbours on the stack. -/
theorem work_mark (graph : Graph α κ) {seen : List κ} {a : α} (fresh : graph.key a ∉ seen) (rest : List α) :
    graph.work (graph.key a :: seen) (graph.next a ++ rest) < graph.work seen (a :: rest) := by
  have fewer : (graph.unmarked (graph.key a :: seen)).length ≤ (graph.unmarked seen).length :=
    length_filter_cons_le graph.keys seen (graph.key a)
  have behind : graph.work (graph.key a :: seen) rest ≤ graph.work seen rest :=
    foldr_add_mono (graph.cost_mono fewer) rest 0
  have below : graph.work (graph.key a :: seen) (graph.next a) < graph.cost (graph.unmarked seen).length a := by
    by_cases known : graph.key a ∈ graph.keys
    · refine Nat.lt_of_succ_le (Nat.le_trans (Nat.le_of_eq ?_) (graph.cost_mono (length_filter_cons_lt known fresh) a))
      exact (graph.cost_succ _ a).symm
    · rw [graph.next_eq_nil a known]
      exact graph.cost_pos _ a
  rw [work, List.foldr_append, foldr_add_eq]
  exact Nat.add_lt_add_of_lt_of_le below behind

/-- The vertices met from a stack on, past those already marked. -/
def visit (graph : Graph α κ) (seen : List κ) (stack : List α) : List α :=
  match stack with
  | [] => []
  | a :: rest =>
    if graph.key a ∈ seen then graph.visit seen rest
    else a :: graph.visit (graph.key a :: seen) (graph.next a ++ rest)
-- One number for the unmarked keys and the stack together: the kernel can then evaluate the traversal.
termination_by graph.work seen stack
decreasing_by
  · exact graph.work_skip seen a rest
  · rename_i fresh
    exact graph.work_mark fresh rest

def reach (graph : Graph α κ) (a : α) : List α :=
  graph.visit [] [a]

@[simp] theorem visit_nil (graph : Graph α κ) (seen : List κ) : graph.visit seen [] = [] := by
  rw [visit]

theorem visit_cons (graph : Graph α κ) (seen : List κ) (a : α) (rest : List α) :
    graph.visit seen (a :: rest) =
      if graph.key a ∈ seen then graph.visit seen rest
      else a :: graph.visit (graph.key a :: seen) (graph.next a ++ rest) := by
  rw [visit]

end Graph

end Rulebase.Order
