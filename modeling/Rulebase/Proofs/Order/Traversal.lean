import Mathlib.Data.List.Forall2
import Mathlib.Data.List.Nodup
import Mathlib.Logic.Relation
import Rulebase.Order.Traversal

/-!
# The traversal meets what is reachable

Every vertex that the traversal meets is reachable, and the keys that it meets are closed under taking
neighbours. No vertex is met twice. Where reachable vertices have different keys, it therefore meets exactly what is
reachable, each once. What is out of reach has no influence on it, and graphs whose vertices correspond are
traversed alike.
-/

namespace Rulebase.Order.Graph

variable {α κ : Type} {graph : Graph α κ}

/-- A vertex can be reached from another by going from neighbour to neighbour. -/
def Reaches (graph : Graph α κ) : α → α → Prop :=
  Relation.ReflTransGen fun a b => b ∈ graph.next a

variable [DecidableEq κ]

theorem reaches_of_mem_visit {seen : List κ} {stack : List α} {b : α}
    (met : b ∈ graph.visit seen stack) : ∃ a ∈ stack, graph.Reaches a b := by
  fun_induction visit graph seen stack with
  | case1 seen => cases met
  | case2 seen a rest marked ih =>
    obtain ⟨c, waiting, reaches⟩ := ih met
    exact ⟨c, List.mem_cons_of_mem a waiting, reaches⟩
  | case3 seen a rest fresh ih =>
    rcases List.mem_cons.mp met with rfl | later
    · exact ⟨b, List.mem_cons_self, .refl⟩
    · obtain ⟨c, waiting, reaches⟩ := ih later
      rcases List.mem_append.mp waiting with below | waiting
      · exact ⟨a, List.mem_cons_self, .head below reaches⟩
      · exact ⟨c, List.mem_cons_of_mem a waiting, reaches⟩

/-- The key of whatever waits on the stack is marked before or met. -/
theorem key_of_mem_stack {seen : List κ} {stack : List α} {a : α} (waiting : a ∈ stack) :
    graph.key a ∈ seen ∨ graph.key a ∈ (graph.visit seen stack).map graph.key := by
  fun_induction visit graph seen stack with
  | case1 seen => cases waiting
  | case2 seen b rest marked ih =>
    rcases List.mem_cons.mp waiting with rfl | waiting
    · exact Or.inl marked
    · exact ih waiting
  | case3 seen b rest fresh ih =>
    rcases List.mem_cons.mp waiting with rfl | waiting
    · exact Or.inr List.mem_cons_self
    · rcases ih (List.mem_append_right _ waiting) with marked | met
      · rcases List.mem_cons.mp marked with same | marked
        · rw [same]
          exact Or.inr List.mem_cons_self
        · exact Or.inl marked
      · exact Or.inr (List.mem_cons_of_mem _ met)

/-- The key of a neighbour of whatever is met is marked before or met. -/
theorem key_of_next {seen : List κ} {stack : List α} {a b : α} (met : a ∈ graph.visit seen stack)
    (below : b ∈ graph.next a) :
    graph.key b ∈ seen ∨ graph.key b ∈ (graph.visit seen stack).map graph.key := by
  fun_induction visit graph seen stack with
  | case1 seen => cases met
  | case2 seen c rest marked ih => exact ih met
  | case3 seen c rest fresh ih =>
    have later : graph.key b ∈ graph.key c :: seen ∨
        graph.key b ∈ (graph.visit (graph.key c :: seen) (graph.next c ++ rest)).map graph.key := by
      rcases List.mem_cons.mp met with rfl | later
      · exact key_of_mem_stack (List.mem_append_left rest below)
      · exact ih later
    rcases later with marked | met
    · rcases List.mem_cons.mp marked with same | marked
      · rw [same]
        exact Or.inr List.mem_cons_self
      · exact Or.inl marked
    · exact Or.inr (List.mem_cons_of_mem _ met)

/-- What the traversal from a vertex meets is reachable from it. -/
theorem reaches_of_mem_reach {a b : α} (met : b ∈ graph.reach a) : graph.Reaches a b := by
  obtain ⟨c, waiting, reaches⟩ := reaches_of_mem_visit met
  rwa [List.mem_singleton.mp waiting] at reaches

/-- The traversal from a vertex meets exactly what is reachable from it, where no two such vertices
have one key. -/
theorem mem_reach_iff {a b : α}
    (apart : ∀ c d, graph.Reaches a c → graph.Reaches a d → graph.key c = graph.key d → c = d) :
    b ∈ graph.reach a ↔ graph.Reaches a b := by
  -- A key that is met belongs to the one reachable vertex with this key.
  have complete : ∀ c, graph.Reaches a c → (graph.key c ∈ ([] : List κ) ∨
      graph.key c ∈ (graph.reach a).map graph.key) → c ∈ graph.reach a := by
    intro c reaches found
    rcases found with marked | found
    · cases marked
    · obtain ⟨d, met, same⟩ := List.mem_map.mp found
      rwa [apart c d reaches (reaches_of_mem_reach met) same.symm]
  refine ⟨reaches_of_mem_reach, fun reaches => ?_⟩
  induction reaches with
  | refl => exact complete a .refl (key_of_mem_stack (List.mem_singleton.mpr rfl))
  | tail reaches below ih => exact complete _ (.tail reaches below) (key_of_next ih below)

/-- No marked vertex is met, and none twice. -/
theorem keys_visit_nodup (seen : List κ) (stack : List α) :
    (∀ k ∈ seen, k ∉ (graph.visit seen stack).map graph.key) ∧
      ((graph.visit seen stack).map graph.key).Nodup := by
  fun_induction visit graph seen stack with
  | case1 seen => simp
  | case2 seen a rest marked ih => exact ih
  | case3 seen a rest fresh ih =>
    refine ⟨fun k marked met => ?_, List.nodup_cons.mpr ⟨ih.1 _ List.mem_cons_self, ih.2⟩⟩
    rcases List.mem_cons.mp met with rfl | later
    · exact fresh marked
    · exact ih.1 k (List.mem_cons_of_mem _ marked) later

theorem nodup_reach (graph : Graph α κ) (a : α) : (graph.reach a).Nodup :=
  (keys_visit_nodup [] [a]).2.of_map

/-- What is met from a stack on depends on the neighbours of what can be reached from it, and on nothing
else of the graph. -/
theorem visit_congr {other : Graph α κ} (key : graph.key = other.key) {seen : List κ} {stack : List α}
    (next : ∀ a ∈ stack, ∀ b, graph.Reaches a b → graph.next b = other.next b) :
    graph.visit seen stack = other.visit seen stack := by
  fun_induction visit graph seen stack with
  | case1 seen => exact (other.visit_nil seen).symm
  | case2 seen a rest marked ih =>
    rw [visit_cons, if_pos (key ▸ marked)]
    exact ih fun b waiting => next b (List.mem_cons_of_mem a waiting)
  | case3 seen a rest fresh ih =>
    rw [visit_cons, if_neg (key ▸ fresh), ← key, ← next a List.mem_cons_self a .refl]
    refine congrArg (a :: ·) (ih fun b waiting c reaches => ?_)
    rcases List.mem_append.mp waiting with below | waiting
    · exact next a List.mem_cons_self c (.head below reaches)
    · exact next b (List.mem_cons_of_mem a waiting) c reaches

/-- Graphs whose neighbours agree where the one reaches are traversed alike. -/
theorem reach_congr (graph other : Graph α κ) (key : graph.key = other.key) {a : α}
    (next : ∀ b, graph.Reaches a b → graph.next b = other.next b) : graph.reach a = other.reach a :=
  visit_congr key fun _ waiting c reaches => next c (List.mem_singleton.mp waiting ▸ reaches)

section Corresponding

variable {β ι : Type} [DecidableEq ι] {other : Graph β ι} {R : α → β → Prop}

/-- Vertices of two graphs correspond when their keys tell them apart alike and their neighbours correspond. -/
structure Corresponds (graph : Graph α κ) (other : Graph β ι) (R : α → β → Prop) : Prop where
  key : ∀ {a b a' b'}, R a a' → R b b' → (graph.key a = graph.key b ↔ other.key a' = other.key b')
  next : ∀ {a a'}, R a a' → List.Forall₂ R (graph.next a) (other.next a')

omit [DecidableEq κ] [DecidableEq ι] in
theorem Corresponds.marked_iff (corresponds : Corresponds graph other R) {marked : List α} {marked' : List β}
    (seen : List.Forall₂ R marked marked') {a : α} {a' : β} (related : R a a') :
    graph.key a ∈ marked.map graph.key ↔ other.key a' ∈ marked'.map other.key := by
  induction seen with
  | nil => simp
  | cons head _ ih =>
    rw [List.map_cons, List.map_cons, List.mem_cons, List.mem_cons, ih]
    exact or_congr_left (corresponds.key related head)

/-- Graphs whose vertices correspond are traversed alike. -/
theorem Corresponds.visit (corresponds : Corresponds graph other R) {marked : List α} {marked' : List β}
    (seen : List.Forall₂ R marked marked') {stack : List α} {stack' : List β} (waiting : List.Forall₂ R stack stack') :
    List.Forall₂ R (graph.visit (marked.map graph.key) stack) (other.visit (marked'.map other.key) stack') := by
  generalize keys : marked.map graph.key = marks
  fun_induction Graph.visit graph marks stack generalizing marked marked' stack' with
  | case1 marks =>
    cases waiting
    rw [visit_nil]
    exact .nil
  | case2 marks a rest met ih =>
    cases waiting with
    | cons head tail =>
      subst keys
      rw [visit_cons, if_pos ((corresponds.marked_iff seen head).mp met)]
      exact ih seen tail rfl
  | case3 marks a rest fresh ih =>
    cases waiting with
    | @cons _ a' _ _ head tail =>
      subst keys
      rw [visit_cons, if_neg fun met => fresh ((corresponds.marked_iff seen head).mpr met)]
      have further := List.rel_append (corresponds.next head) tail
      exact .cons head (ih (.cons head seen) further rfl)

theorem Corresponds.reach (corresponds : Corresponds graph other R) {a : α} {a' : β} (related : R a a') :
    List.Forall₂ R (graph.reach a) (other.reach a') :=
  corresponds.visit .nil (.cons related .nil)

end Corresponding

end Rulebase.Order.Graph
