import Rulebase.Proofs.Group.Membership

/-!
# Putting an object in its place

When an object is put in a group, the group holds one object more and no other group changes. What can be
reached grows by what can be reached from the object, for the groups that reach the changed one. The heap
stays closed, its lists stay in order, and no list of nested groups comes to name a group twice, as long as
the group did not have the object before.
-/

namespace Rulebase

namespace Registry

variable {registry : Registry} {g h k : Group}

theorem leaves_insert_leaf {x : Leaf} {kind : Kind} (registered : g.serial ∈ registry.serials) :
    ((registry.insert g (.leaf x)).content k).leaves kind =
      if k.serial = g.serial ∧ kind = x.kind then
        ((registry.content g).leaves x.kind).insertIdx (registry.slot g (.leaf x)) x
      else (registry.content k).leaves kind := by
  rw [insert, content_setContent registered]
  by_cases same : k.serial = g.serial
  · by_cases listed : kind = x.kind
    · simp [same, listed, Content.setLeaves]
    · simp [same, listed, Content.setLeaves, registry.content_congr same]
  · simp [same]

theorem nested_insert_leaf {x : Leaf} (registered : g.serial ∈ registry.serials) :
    (registry.insert g (.leaf x)).nested k = registry.nested k := by
  rw [nested, insert, content_setContent registered]
  split
  · rename_i same
    exact (registry.nested_congr same).symm
  · rfl

theorem leaves_insert_group {kind : Kind} (registered : g.serial ∈ registry.serials) :
    ((registry.insert g (.group h)).content k).leaves kind = (registry.content k).leaves kind := by
  rw [insert, content_setContent registered]
  split
  · rename_i same
    rw [registry.content_congr same]
  · rfl

theorem nested_insert_group (registered : g.serial ∈ registry.serials) :
    (registry.insert g (.group h)).nested k =
      if k.serial = g.serial then (registry.nested g).insertIdx (registry.slot g (.group h)) h
      else registry.nested k := by
  rw [nested, insert, content_setContent registered]
  split <;> rfl

@[simp] theorem serials_insert (registry : Registry) (g : Group) (x : Object) :
    (registry.insert g x).serials = registry.serials :=
  registry.serials_setContent g _

end Registry

namespace Heap

def insert (heap : Heap) (g : Group) (x : Object) : Heap :=
  { heap with registry := heap.registry.insert g x }

variable {heap : Heap} {g h k : Group} {x m : Object}

theorem Ordered.slot_leaf_le (ordered : heap.Ordered) (made : g ∈ heap.groups) (y : Leaf) :
    heap.registry.slot g (.leaf y) ≤ ((heap.registry.content g).leaves y.kind).length :=
  (Order.slot_bracket (ordered.leaves g made y.kind).ascending y.span).high_le

theorem Ordered.slot_group_le (ordered : heap.Ordered) (made : g ∈ heap.groups) (h : Group) :
    heap.registry.slot g (.group h) ≤ (heap.registry.nested g).length :=
  (Order.slot_bracket (ordered.names g made) h.name).high_le

/-- The group that took an object holds it besides what it held, and nothing else changes. -/
theorem Ordered.holds_insert (ordered : heap.Ordered) (made : g ∈ heap.groups) :
    (heap.registry.insert g x).Holds k m ↔
      heap.registry.Holds k m ∨ k.serial = g.serial ∧ m = x := by
  have registered := ordered.registered made
  cases x with
  | leaf y =>
    cases m with
    | leaf l =>
      simp only [Registry.Holds, Registry.leaves_insert_leaf registered, Object.leaf.injEq]
      split
      · rename_i place
        rw [List.mem_insertIdx (ordered.slot_leaf_le made y), place.2,
          heap.registry.content_congr place.1]
        simp [place.1, or_comm]
      · rename_i elsewhere
        constructor
        · exact Or.inl
        · rintro (held | ⟨same, rfl⟩)
          · exact held
          · exact absurd ⟨same, rfl⟩ elsewhere
    | group j => simp [Registry.Holds, Registry.nested_insert_leaf registered]
  | group h =>
    cases m with
    | leaf l => simp [Registry.Holds, Registry.leaves_insert_group registered]
    | group j =>
      simp only [Registry.Holds, Registry.nested_insert_group registered, Object.group.injEq]
      split
      · rename_i same
        rw [List.mem_insertIdx (ordered.slot_group_le made h), heap.registry.nested_congr same]
        simp [same, or_comm]
      · rename_i elsewhere
        simp [elsewhere]

theorem Ordered.holds_insert_made (ordered : heap.Ordered) (made : g ∈ heap.groups)
    (other : k ∈ heap.groups) :
    (heap.registry.insert g x).Holds k m ↔ heap.registry.Holds k m ∨ k = g ∧ m = x := by
  rw [ordered.holds_insert made]
  constructor
  · rintro (held | ⟨same, rfl⟩)
    · exact Or.inl held
    · exact Or.inr ⟨ordered.eq_of_serial other made same, rfl⟩
  · rintro (held | ⟨rfl, rfl⟩)
    · exact Or.inl held
    · exact Or.inr ⟨rfl, rfl⟩

/-- What was reached stays reached. -/
theorem Ordered.reaches_insert_of_reaches (ordered : heap.Ordered) (made : g ∈ heap.groups)
    (reaches : heap.registry.Reaches h k) : (heap.registry.insert g x).Reaches h k :=
  Relation.ReflTransGen.mono
    (fun _ j nests => (ordered.holds_insert (m := .group j) made).mpr (Or.inl nests)) _ _ reaches

/-- A group comes to be reached through the group put in its place, or it was reached before. -/
theorem Ordered.reaches_insert_iff (ordered : heap.Ordered) (made : g ∈ heap.groups)
    (exist : heap.Has x) (other : h ∈ heap.groups) :
    (heap.registry.insert g x).Reaches h k ↔
      heap.registry.Reaches h k ∨
        ∃ j, x = .group j ∧ heap.registry.Reaches h g ∧ heap.registry.Reaches j k := by
  constructor
  · intro reaches
    induction reaches with
    | refl => exact Or.inl .refl
    | @tail i k _ nests ih =>
      have known : i ∈ heap.groups := by
        rcases ih with before | ⟨j, rfl, _, after⟩
        · exact (ordered.reaches other before).1
        · exact (ordered.reaches exist after).1
      rcases (ordered.holds_insert_made (m := .group k) made known).mp nests with old | ⟨rfl, put⟩
      · rcases ih with before | ⟨j, made', upper, after⟩
        · exact Or.inl (.tail before old)
        · exact Or.inr ⟨j, made', upper, .tail after old⟩
      · rcases ih with before | ⟨j, _, upper, _⟩
        · exact Or.inr ⟨k, put.symm, before, .refl⟩
        · exact Or.inr ⟨k, put.symm, upper, .refl⟩
  · rintro (before | ⟨j, rfl, upper, after⟩)
    · exact ordered.reaches_insert_of_reaches made before
    · have edge : (heap.registry.insert g (.group j)).Nests g j :=
        (ordered.holds_insert (m := .group j) made).mpr (Or.inr ⟨rfl, rfl⟩)
      exact ((ordered.reaches_insert_of_reaches made upper).tail edge).trans
        (ordered.reaches_insert_of_reaches made after)

/-- A group that reaches the changed one comes to hold, at some depth, the object and what the object holds;
for all other groups nothing changes. -/
theorem Ordered.holdsWithin_insert_iff (ordered : heap.Ordered) (made : g ∈ heap.groups)
    (exist : heap.Has x) (other : h ∈ heap.groups) :
    (heap.registry.insert g x).HoldsWithin h m ↔
      heap.registry.HoldsWithin h m ∨ heap.registry.Reaches h g ∧
        (m = x ∨ ∃ j, x = .group j ∧ heap.registry.HoldsWithin j m) := by
  constructor
  · rintro ⟨k, reaches, held⟩
    rcases (ordered.reaches_insert_iff made exist other).mp reaches with before | ⟨j, rfl, upper, after⟩
    · have known := (ordered.reaches other before).1
      rcases (ordered.holds_insert_made made known).mp held with held | ⟨rfl, rfl⟩
      · exact Or.inl ⟨k, before, held⟩
      · exact Or.inr ⟨before, Or.inl rfl⟩
    · have known := (ordered.reaches exist after).1
      rcases (ordered.holds_insert_made made known).mp held with held | ⟨rfl, rfl⟩
      · exact Or.inr ⟨upper, Or.inr ⟨j, rfl, k, after, held⟩⟩
      · exact Or.inr ⟨upper, Or.inl rfl⟩
  · rintro (⟨k, reaches, held⟩ | ⟨upper, rfl | ⟨j, rfl, k, after, held⟩⟩)
    · exact ⟨k, ordered.reaches_insert_of_reaches made reaches,
        (ordered.holds_insert made).mpr (Or.inl held)⟩
    · exact ⟨g, ordered.reaches_insert_of_reaches made upper,
        (ordered.holds_insert made).mpr (Or.inr ⟨rfl, rfl⟩)⟩
    · refine ⟨k, ?_, (ordered.holds_insert made).mpr (Or.inl held)⟩
      exact (ordered.reaches_insert_iff made exist other).mpr (Or.inr ⟨j, rfl, upper, after⟩)

theorem Closed.insert (ordered : heap.Ordered) (made : g ∈ heap.groups) (exist : heap.Has x)
    (family : x.family = g.family) : (heap.insert g x).Closed where
  serials := by
    rw [Heap.insert, Registry.serials_insert]
    exact ordered.serials
  exist k other m held := by
    rcases (ordered.holds_insert_made made other).mp held with held | ⟨_, rfl⟩
    · have known := ordered.exist k other m held
      cases m with
      | leaf l => trivial
      | group j => exact known
    · cases m with
      | leaf l => trivial
      | group j => exact exist
  family k other m held := by
    rcases (ordered.holds_insert_made made other).mp held with held | ⟨rfl, rfl⟩
    · exact ordered.family k other m held
    · exact family

/-- Nothing that a group holds matches an object that it does not have. -/
theorem Ordered.not_same_of_absent (ordered : heap.Ordered) (made : g ∈ heap.groups)
    (absent : heap.registry.hasObject g x = .ok false) {m : Object} (held : heap.registry.Holds g m) :
    ¬ heap.registry.sameObject m x = true := by
  intro same
  have family : x.family = g.family := by
    by_contra other
    simp [Registry.hasObject, other] at absent
  have found := (ordered.hasObject_iff made family).mpr ⟨g, .refl, m, held, same⟩
  simp [absent] at found

theorem Ordered.insert (ordered : heap.Ordered) (made : g ∈ heap.groups) (exist : heap.Has x)
    (family : x.family = g.family) (absent : heap.registry.hasObject g x = .ok false) :
    (heap.insert g x).Ordered where
  toClosed := .insert ordered made exist family
  kinds k other kind l found := by
    cases x with
    | leaf y =>
      rw [Heap.insert, Registry.leaves_insert_leaf (ordered.registered made)] at found
      split at found
      · rename_i place
        rcases (List.mem_insertIdx (ordered.slot_leaf_le made y)).mp found with rfl | found
        · exact place.2.symm
        · exact (ordered.kinds g made y.kind l found).trans place.2.symm
      · exact ordered.kinds k other kind l found
    | group h =>
      rw [Heap.insert, Registry.leaves_insert_group (ordered.registered made)] at found
      exact ordered.kinds k other kind l found
  leaves k other kind := by
    cases x with
    | leaf y =>
      rw [Heap.insert, Registry.leaves_insert_leaf (ordered.registered made)]
      split
      · refine (ordered.leaves g made y.kind).insert fun l found same => ?_
        have kind := ordered.kinds g made y.kind l found
        have held : heap.registry.Holds g (.leaf l) := by
          rw [Registry.Holds, kind]
          exact found
        exact ordered.not_same_of_absent made absent held (Leaf.same_iff.mpr ⟨kind, same⟩)
      · exact ordered.leaves k other kind
    | group h =>
      rw [Heap.insert, Registry.leaves_insert_group (ordered.registered made)]
      exact ordered.leaves k other kind
  names k other := by
    cases x with
    | leaf y =>
      rw [Heap.insert, Registry.nested_insert_leaf (ordered.registered made)]
      exact ordered.names k other
    | group h =>
      rw [Heap.insert, Registry.nested_insert_group (ordered.registered made)]
      split
      · exact (ordered.names g made).insert h
      · exact ordered.names k other

/-- A group is not within an object just when the object is no group that reaches it. -/
theorem Closed.isWithin_iff (closed : heap.Closed) (made : g ∈ heap.groups) (exist : heap.Has x) :
    heap.registry.isWithin g x = true ↔ ∃ h, x = .group h ∧ heap.registry.Reaches h g := by
  cases x with
  | leaf y => simp [Registry.isWithin]
  | group h =>
    rw [Registry.isWithin, List.any_eq_true]
    constructor
    · rintro ⟨k, met, same⟩
      have reaches := (closed.mem_walk_iff exist).mp met
      rw [closed.eq_of_serial (closed.reaches exist reaches).1 made (beq_iff_eq.mp same)] at reaches
      exact ⟨h, rfl, reaches⟩
    · rintro ⟨_, same, reaches⟩
      cases same
      exact ⟨g, (closed.mem_walk_iff exist).mpr reaches, beq_iff_eq.mpr rfl⟩

end Heap

end Rulebase
