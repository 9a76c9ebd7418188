import Rulebase.Group.Containment
import Rulebase.Proofs.Group.Heap
import Rulebase.Proofs.Object.Key

/-!
# Membership is what a full scan finds

Members that match have equal keys, so in an ordered heap the window that halving finds misses none of
them, and since the walk meets every group that can be reached, a group has an object just when some
member held by it or below it matches.
-/

namespace Rulebase

theorem Leaf.same_self (x : Leaf) : x.same x = true :=
  Leaf.same_iff.mpr ⟨rfl, rfl⟩

theorem Leaf.sameAll_self (xs : List Leaf) : Leaf.sameAll xs xs = true := by
  induction xs with
  | nil => rfl
  | cons x xs ih => simp [Leaf.sameAll, x.same_self, ih]

theorem Group.alike_self (gs : List Group) : Group.alike gs gs = true := by
  induction gs with
  | nil => rfl
  | cons g gs ih => simp [Group.alike, ih]

namespace Registry

theorem agree_self (registry : Registry) (g : Group) : registry.agree (g, g) = true := by
  simp [agree, Leaf.sameAll_self, Group.alike_self]

theorem pairing_reaches_self {registry : Registry} {g : Group} {pair : Group × Group}
    (reaches : registry.pairing.Reaches (g, g) pair) : pair.1 = pair.2 := by
  induction reaches with
  | refl => rfl
  | @tail upper lower _ below ih =>
    have paired : lower ∈ (registry.nested upper.1).zip (registry.nested upper.2) :=
      List.mem_reverse.mp below
    rw [← ih] at paired
    obtain ⟨index, bound, rfl⟩ := List.mem_iff_getElem.mp paired
    simp

/-- Every group has the same content as itself. -/
theorem sameContent_self (registry : Registry) (g : Group) : registry.sameContent g g = true := by
  refine List.all_eq_true.mpr fun pair met => ?_
  obtain ⟨left, right⟩ := pair
  cases pairing_reaches_self (Order.Graph.reaches_of_mem_reach met)
  exact registry.agree_self left

theorem sameObject_self (registry : Registry) (x : Object) : registry.sameObject x x = true := by
  cases x with
  | leaf x => exact x.same_self
  | group g => simp [sameObject, sameGroup, registry.sameContent_self]

theorem name_eq_of_sameGroup {registry : Registry} {g h : Group} (same : registry.sameGroup g h = true) :
    g.name = h.name := by
  simp only [sameGroup, Bool.and_eq_true, beq_iff_eq] at same
  exact same.1.2

section Same

variable {registry : Registry} {g : Group} {x y : Leaf}

theorem family_of_hasObject {z : Object} {answer : Bool} (asked : registry.hasObject g z = .ok answer) :
    z.family = g.family := by
  by_contra other
  rw [hasObject, if_neg other] at asked
  cases asked

/-- Leaves that match are looked for in one list by one key, and have the same matches there. -/
theorem owns_eq_of_same (same : x.same y = true) : registry.owns g (.leaf x) = registry.owns g (.leaf y) := by
  obtain ⟨kind, span⟩ := Leaf.same_iff.mp same
  have matching : (Leaf.same · x) = (Leaf.same · y) := by
    funext z
    rw [Bool.eq_iff_iff, Leaf.same_iff, Leaf.same_iff, kind, span]
  simp only [owns, kind, span, matching]

/-- A group answers for a leaf what it answers for one that matches it, refusals included. -/
theorem hasObject_eq_of_same (same : x.same y = true) :
    registry.hasObject g (.leaf x) = registry.hasObject g (.leaf y) := by
  have kind := (Leaf.same_iff.mp same).1
  have family : (Object.leaf x).family = (Object.leaf y).family := congrArg Kind.family kind
  have typeName : (Object.leaf x).typeName = (Object.leaf y).typeName := by
    cases x <;> cases y <;> first | rfl | cases kind
  simp only [hasObject, owns_eq_of_same same, family, typeName]

end Same

end Registry

namespace Heap.Ordered

variable {heap : Heap} {g : Group} {x : Object}

/-- Among its own members a group finds a match just when there is one. -/
theorem owns_iff (ordered : heap.Ordered) (made : g ∈ heap.groups) :
    heap.registry.owns g x = true ↔
      ∃ m, heap.registry.Holds g m ∧ heap.registry.sameObject m x = true := by
  cases x with
  | leaf x =>
    have keyed : ∀ l ∈ (heap.registry.content g).leaves x.kind, l.same x = true → l.span = x.span :=
      fun l _ same => (Leaf.same_iff.mp same).2
    rw [Registry.owns, Order.any_candidates (ordered.leaves g made x.kind).ascending _ keyed,
      List.any_eq_true]
    constructor
    · rintro ⟨l, found, same⟩
      refine ⟨.leaf l, ?_, same⟩
      rw [Registry.Holds, (Leaf.same_iff.mp same).1]
      exact found
    · rintro ⟨m, held, same⟩
      cases m with
      | leaf l =>
        rw [Registry.Holds, (Leaf.same_iff.mp same).1] at held
        exact ⟨l, held, same⟩
      | group h => cases same
  | group h =>
    have keyed : ∀ k ∈ heap.registry.nested g, heap.registry.sameGroup k h = true → k.name = h.name :=
      fun k _ same => Registry.name_eq_of_sameGroup same
    rw [Registry.owns, Order.any_candidates (ordered.names g made) _ keyed, List.any_eq_true]
    constructor
    · rintro ⟨k, found, same⟩
      exact ⟨.group k, found, same⟩
    · rintro ⟨m, held, same⟩
      cases m with
      | leaf l => cases same
      | group k => exact ⟨k, held, same⟩

/-- A group has an object of its family just when some group that it reaches directly holds a match. -/
theorem hasObject_iff (ordered : heap.Ordered) (made : g ∈ heap.groups) (family : x.family = g.family) :
    heap.registry.hasObject g x = .ok true ↔
      ∃ h, heap.registry.Reaches g h ∧
        ∃ m, heap.registry.Holds h m ∧ heap.registry.sameObject m x = true := by
  rw [Registry.hasObject, if_pos family, Except.ok.injEq, List.any_eq_true]
  constructor
  · rintro ⟨h, met, owned⟩
    have reaches := (ordered.mem_walk_iff made).mp met
    exact ⟨h, reaches, (ordered.owns_iff (ordered.reaches made reaches).1).mp owned⟩
  · rintro ⟨h, reaches, held⟩
    exact ⟨h, (ordered.mem_walk_iff made).mpr reaches,
      (ordered.owns_iff (ordered.reaches made reaches).1).mpr held⟩

/-- A group has a leaf just when a leaf held by it or below it matches. -/
theorem hasObject_leaf_iff (ordered : heap.Ordered) (made : g ∈ heap.groups) {y : Leaf}
    (family : y.family = g.family) :
    heap.registry.hasObject g (.leaf y) = .ok true ↔
      ∃ l, heap.registry.HoldsWithin g (.leaf l) ∧ l.same y = true := by
  rw [ordered.hasObject_iff (x := .leaf y) made family]
  constructor
  · rintro ⟨h, reaches, m, held, same⟩
    cases m with
    | leaf l => exact ⟨l, ⟨h, reaches, held⟩, same⟩
    | group k => cases same
  · rintro ⟨l, ⟨h, reaches, held⟩, same⟩
    exact ⟨h, reaches, .leaf l, held, same⟩

/-- A group covers a leaf just when a leaf held by it or below it does. -/
theorem groupCovers_iff (ordered : heap.Ordered) (made : g ∈ heap.groups) {y : Leaf} :
    heap.registry.groupCovers g y = true ↔
      ∃ l, heap.registry.HoldsWithin g (.leaf l) ∧ l.covers y = true := by
  rw [Registry.groupCovers, List.any_eq_true]
  simp only [Registry.ownCovers, List.any_eq_true, Family.mem_kinds]
  constructor
  · rintro ⟨h, met, kind, _, l, found, covers⟩
    have reaches := (ordered.mem_walk_iff made).mp met
    have listed := ordered.kinds h (ordered.reaches made reaches).1 kind l found
    refine ⟨l, ⟨h, reaches, ?_⟩, covers⟩
    rw [Registry.Holds, listed]
    exact found
  · rintro ⟨l, ⟨h, reaches, held⟩, covers⟩
    have family := ordered.family h (ordered.reaches made reaches).1 (.leaf l) held
    exact ⟨h, (ordered.mem_walk_iff made).mpr reaches, l.kind, family, l, held, covers⟩

end Heap.Ordered

end Rulebase
