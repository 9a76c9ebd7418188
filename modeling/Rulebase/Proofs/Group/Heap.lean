import Mathlib.Data.List.Nodup
import Mathlib.Logic.Relation
import Rulebase.Group.Membership
import Rulebase.Proofs.Order.Search
import Rulebase.Proofs.Order.Traversal

/-!
# Heaps of groups

A heap is a registry together with the groups made in it. It grows from nothing by making groups and by
adding objects to them, where an object may be any leaf and any group of the heap, and an addition that is
refused leaves it as it was. In a closed heap groups hold groups of the heap only, all of their own family,
and a walk meets exactly the groups that can be reached.
-/

namespace Rulebase

namespace Registry

def Holds (registry : Registry) (g : Group) : Object → Prop
  | .leaf x => x ∈ (registry.content g).leaves x.kind
  | .group h => h ∈ registry.nested g

def Nests (registry : Registry) (g h : Group) : Prop :=
  h ∈ registry.nested g

/-- A group is another one, or the other one is nested in it to some depth. -/
def Reaches (registry : Registry) : Group → Group → Prop :=
  Relation.ReflTransGen registry.Nests

/-- A group, or one nested in it to some depth, holds an object. -/
def HoldsWithin (registry : Registry) (g : Group) (x : Object) : Prop :=
  ∃ h, registry.Reaches g h ∧ registry.Holds h x

theorem content_congr (registry : Registry) {g h : Group} (same : g.serial = h.serial) :
    registry.content g = registry.content h := by
  unfold content
  rw [same]

theorem nested_congr (registry : Registry) {g h : Group} (same : g.serial = h.serial) :
    registry.nested g = registry.nested h := by
  unfold nested
  rw [registry.content_congr same]

@[simp] theorem content_create (registry : Registry) (family : Family) (label : Label) (g : Group) :
    (registry.create family label).2.content g = registry.content g := by
  unfold content create
  cases g.serial with
  | zero => rfl
  | succ index =>
    dsimp only
    rcases Nat.lt_trichotomy index registry.contents.length with less | same | greater
    · rw [List.getElem?_append_left less]
    · simp [same]
    · have beyond : (registry.contents ++ [Content.empty]).length ≤ index := by
        rw [List.length_append]
        exact greater
      rw [List.getElem?_eq_none beyond, List.getElem?_eq_none (Nat.le_of_lt greater)]

@[simp] theorem nested_create (registry : Registry) (family : Family) (label : Label) :
    (registry.create family label).2.nested = registry.nested := by
  funext g
  simp [nested]

@[simp] theorem serials_setContent (registry : Registry) (g : Group) (content : Content) :
    (registry.setContent g content).serials = registry.serials := by
  unfold setContent serials size
  cases g.serial <;> simp

theorem content_setContent {registry : Registry} {g h : Group} {content : Content}
    (registered : g.serial ∈ registry.serials) :
    (registry.setContent g content).content h =
      if h.serial = g.serial then content else registry.content h := by
  unfold serials size at registered
  obtain ⟨low, high⟩ := List.mem_range'_1.mp registered
  unfold Registry.content setContent
  cases left : g.serial with
  | zero => omega
  | succ index =>
    cases right : h.serial with
    | zero => simp
    | succ other =>
      by_cases same : other = index
      · subst same
        have inside : other < registry.contents.length := by omega
        simp [inside]
      · simp [same, Ne.symm same]

end Registry

/-- A registry and the groups made in it, in the order of their serial numbers. -/
structure Heap where
  registry : Registry := {}
  groups : List Group := []

namespace Heap

def Has (heap : Heap) : Object → Prop
  | .leaf _ => True
  | .group g => g ∈ heap.groups

def create (heap : Heap) (family : Family) (label : Label) : Heap where
  registry := (heap.registry.create family label).2
  groups := heap.groups ++ [(heap.registry.create family label).1]

/-- The heap after an object was offered to a group, whether or not the group took it. -/
def add (heap : Heap) (g : Group) (x : Object) : Heap :=
  match heap.registry.add g x with
  | .ok registry => { heap with registry }
  | .error _ => heap

@[simp] theorem groups_add (heap : Heap) (g : Group) (x : Object) :
    (heap.add g x).groups = heap.groups := by
  unfold add
  split <;> rfl

/-- A heap that came about by making groups and adding objects to them. -/
inductive Reachable : Heap → Prop where
  | empty : Reachable {}
  | create {heap : Heap} (before : Reachable heap) (family : Family) (label : Label) :
      Reachable (heap.create family label)
  | add {heap : Heap} (before : Reachable heap) {g : Group} {x : Object} (made : g ∈ heap.groups)
      (exist : heap.Has x) : Reachable (heap.add g x)

@[simp] theorem content_create (heap : Heap) (family : Family) (label : Label) :
    (heap.create family label).registry.content = heap.registry.content := by
  funext g
  exact heap.registry.content_create family label g

@[simp] theorem nested_create (heap : Heap) (family : Family) (label : Label) :
    (heap.create family label).registry.nested = heap.registry.nested :=
  heap.registry.nested_create family label

section Create

variable {heap : Heap} {family : Family} {label : Label} {g : Group} {x : Object}

/-- A group of the heap with a new group was there before, or is new and holds nothing. -/
theorem made_or_empty (made : g ∈ (heap.create family label).groups) :
    g ∈ heap.groups ∨ heap.registry.content g = .empty := by
  rcases List.mem_append.mp made with old | new
  · exact Or.inl old
  · right
    apply Registry.content_eq_empty
    simp only [List.mem_singleton.mp new, Registry.create, Registry.serials, List.mem_range'_1]
    omega

theorem holds_create :
    (heap.create family label).registry.Holds g x ↔ heap.registry.Holds g x := by
  cases x <;> simp [Registry.Holds]

theorem not_holds_of_empty (nothing : heap.registry.content g = .empty) : ¬ heap.registry.Holds g x := by
  cases x <;> simp [Registry.Holds, Registry.nested, nothing, Content.empty]

theorem Has.create (exist : heap.Has x) : (heap.create family label).Has x := by
  cases x with
  | leaf y => trivial
  | group h => exact List.mem_append_left _ exist

end Create

/-- Every serial number belongs to one group, and groups hold what exists and is of their family. -/
structure Closed (heap : Heap) : Prop where
  serials : heap.groups.map Group.serial = heap.registry.serials
  exist : ∀ g ∈ heap.groups, ∀ x, heap.registry.Holds g x → heap.Has x
  family : ∀ g ∈ heap.groups, ∀ x, heap.registry.Holds g x → x.family = g.family

namespace Closed

variable {heap : Heap} {g h : Group}

theorem registered (closed : heap.Closed) (made : g ∈ heap.groups) :
    g.serial ∈ heap.registry.serials :=
  closed.serials ▸ List.mem_map_of_mem made

/-- A serial number tells which group it is. -/
theorem eq_of_serial (closed : heap.Closed) (left : g ∈ heap.groups) (right : h ∈ heap.groups)
    (same : g.serial = h.serial) : g = h := by
  have once : (heap.groups.map Group.serial).Nodup := by
    rw [closed.serials]
    exact List.nodup_range'
  exact List.inj_on_of_nodup_map once left right same

theorem mem_of_nested (closed : heap.Closed) (nested : h ∈ heap.registry.nested g) : h ∈ heap.groups := by
  by_cases registered : g.serial ∈ heap.registry.serials
  · rw [← closed.serials] at registered
    obtain ⟨k, made, same⟩ := List.mem_map.mp registered
    rw [Registry.nested, heap.registry.content_congr same.symm] at nested
    exact closed.exist k made (.group h) nested
  · rw [Registry.nested, Registry.content_eq_empty registered] at nested
    cases nested

/-- What can be reached from a group of the heap is in the heap and of its family. -/
theorem reaches (closed : heap.Closed) (made : g ∈ heap.groups) (reaches : heap.registry.Reaches g h) :
    h ∈ heap.groups ∧ h.family = g.family := by
  induction reaches with
  | refl => exact ⟨made, rfl⟩
  | @tail k l _ nests ih =>
    exact ⟨closed.exist k ih.1 (.group l) nests, (closed.family k ih.1 (.group l) nests).trans ih.2⟩

/-- A walk meets exactly what can be reached. -/
theorem mem_walk_iff (closed : heap.Closed) (made : g ∈ heap.groups) :
    h ∈ heap.registry.walk g ↔ heap.registry.Reaches g h := by
  refine Order.Graph.mem_reach_iff fun k l left right same => ?_
  exact closed.eq_of_serial (closed.reaches made left).1 (closed.reaches made right).1 same

end Closed

/-- A closed heap in which every list is in order: the leaves of each kind strictly by span, and nested
groups by name. -/
structure Ordered (heap : Heap) : Prop extends heap.Closed where
  kinds : ∀ g ∈ heap.groups, ∀ kind, ∀ x ∈ (heap.registry.content g).leaves kind, x.kind = kind
  leaves : ∀ g ∈ heap.groups, ∀ kind,
    Order.StrictlyAscending Span.before Leaf.span ((heap.registry.content g).leaves kind)
  names : ∀ g ∈ heap.groups, Order.Ascending nameBefore (·.name) (heap.registry.nested g)

end Heap

end Rulebase
