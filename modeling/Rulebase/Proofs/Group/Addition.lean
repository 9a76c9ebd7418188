import Rulebase.Proofs.Group.Invariant

/-!
# What an addition does

An object is refused for one of three reasons, looked for in a fixed order: it is of the wrong family, the
group has it already, or it is a group that reaches the one it is offered to. Otherwise one list of one group
takes the object in at one place. What other groups have and cover changes by just that object, and only for
the groups that reach the changed one.
-/

namespace Rulebase

namespace Registry

variable {registry : Registry} {g : Group} {x : Object}

/-- One list of a group takes an object in at one place, and nothing else changes. -/
structure Takes (before after : Registry) (g : Group) (x : Object) : Prop where
  elsewhere : ∀ k : Group, k.serial ≠ g.serial → after.content k = before.content k
  leaves : ∀ kind, (∀ y, x = .leaf y → kind ≠ y.kind) →
    (after.content g).leaves kind = (before.content g).leaves kind
  leaf : ∀ y, x = .leaf y → ∃ front back,
    (before.content g).leaves y.kind = front ++ back ∧
      (after.content g).leaves y.kind = front ++ y :: back
  nested : (∀ h, x ≠ .group h) → after.nested g = before.nested g
  group : ∀ h, x = .group h → ∃ front back,
    before.nested g = front ++ back ∧ after.nested g = front ++ h :: back

/-- An object is refused as unsupported just when it is of another family. -/
theorem add_eq_unsupported :
    registry.add g x = .error (.unsupported g x.typeName) ↔ x.family ≠ g.family := by
  rcases registry.add_cases g x with ⟨other, refused⟩ | ⟨family, _, refused⟩ |
    ⟨h, rfl, family, _, _, refused⟩ | ⟨family, _, _, taken⟩
  · simp [refused, other]
  · simp [refused, family]
  · simp [refused, family]
  · simp [taken, family]

/-- An object is refused as a duplicate just when it is of the right family and the group has it. -/
theorem add_eq_duplicate :
    registry.add g x = .error (.duplicate g x) ↔
      x.family = g.family ∧ registry.hasObject g x = .ok true := by
  rcases registry.add_cases g x with ⟨other, refused⟩ | ⟨family, found, refused⟩ |
    ⟨h, rfl, family, absent, _, refused⟩ | ⟨family, absent, _, taken⟩
  · simp [refused, other]
  · simp [refused, family, found]
  · simp [refused, absent]
  · simp [taken, absent]

/-- An object has a leaf: it is a leaf that matches, or a group that has one. -/
def Has (registry : Registry) (x : Object) (y : Leaf) : Prop :=
  match x with
  | .leaf l => l.same y = true
  | .group h => registry.hasObject h (.leaf y) = .ok true

end Registry

namespace Heap

variable {heap : Heap} {g k : Group} {x : Object}

/-- An object is refused as cyclic just when it is a group of the right family that is not there already and
reaches the group it is offered to. -/
theorem Closed.add_eq_cyclic (closed : heap.Closed) (made : g ∈ heap.groups) (exist : heap.Has x)
    {h : Group} :
    heap.registry.add g x = .error (.cyclic g h) ↔
      x = .group h ∧ x.family = g.family ∧ heap.registry.hasObject g x = .ok false ∧
        heap.registry.Reaches h g := by
  have within := closed.isWithin_iff made exist
  rcases heap.registry.add_cases g x with ⟨other, refused⟩ | ⟨family, found, refused⟩ |
    ⟨k, rfl, family, absent, round, refused⟩ | ⟨family, absent, away, taken⟩
  · simp [refused, other]
  · simp [refused, found]
  · obtain ⟨_, same, reaches⟩ := within.mp round
    cases same
    simp only [refused, family, absent, Except.error.injEq, MembershipError.cyclic.injEq,
      Object.group.injEq, true_and]
    constructor
    · rintro rfl
      exact ⟨rfl, reaches⟩
    · exact fun ⟨same, _⟩ => same
  · simp only [taken, reduceCtorEq, false_iff]
    rintro ⟨put, _, _, reaches⟩
    have round := within.mpr ⟨h, put, reaches⟩
    simp [away] at round

/-- An object is taken just when it is of the right family, not there already, and no group that reaches the
one it is offered to. -/
theorem Closed.exists_add_eq_ok (closed : heap.Closed) (made : g ∈ heap.groups) (exist : heap.Has x) :
    (∃ after, heap.registry.add g x = .ok after) ↔
      x.family = g.family ∧ heap.registry.hasObject g x = .ok false ∧
        ∀ h, x = .group h → ¬ heap.registry.Reaches h g := by
  have away : heap.registry.isWithin g x = false ↔ ∀ h, x = .group h → ¬ heap.registry.Reaches h g := by
    rw [← Bool.not_eq_true, closed.isWithin_iff made exist]
    push Not
    rfl
  rw [← away]
  constructor
  · rintro ⟨after, taken⟩
    obtain ⟨family, absent, away, _⟩ := Registry.add_eq_ok.mp taken
    exact ⟨family, absent, away⟩
  · rintro ⟨family, absent, away⟩
    exact ⟨_, Registry.add_eq_ok.mpr ⟨family, absent, away, rfl⟩⟩

/-- An object put in its slot is taken in at one place of one list. -/
theorem Ordered.takes_insert (ordered : heap.Ordered) (made : g ∈ heap.groups) (x : Object) :
    heap.registry.Takes (heap.registry.insert g x) g x where
  elsewhere k other := by
    unfold Registry.insert
    rw [Registry.content_setContent (ordered.registered made), if_neg other]
  leaves kind other := by
    cases x with
    | leaf y => simp [Registry.leaves_insert_leaf (ordered.registered made), other y rfl]
    | group h => exact Registry.leaves_insert_group (ordered.registered made)
  leaf y same := by
    subst same
    refine ⟨_, _, (List.take_append_drop (heap.registry.slot g (.leaf y)) _).symm, ?_⟩
    rw [Registry.leaves_insert_leaf (ordered.registered made), if_pos ⟨rfl, rfl⟩]
    exact Order.insertIdx_eq_take_drop y (ordered.slot_leaf_le made y)
  nested none := by
    cases x with
    | leaf y => exact Registry.nested_insert_leaf (ordered.registered made)
    | group h => exact absurd rfl (none h)
  group h same := by
    subst same
    refine ⟨_, _, (List.take_append_drop (heap.registry.slot g (.group h)) _).symm, ?_⟩
    rw [Registry.nested_insert_group (ordered.registered made), if_pos rfl]
    exact Order.insertIdx_eq_take_drop h (ordered.slot_group_le made h)

/-- Whether some leaf held at or below a group has a property changes by the object put in its place, and
only for the groups that reach the changed one. -/
theorem Ordered.exists_leaf_insert_iff (ordered : heap.Ordered) (made : g ∈ heap.groups)
    (exist : heap.Has x) (other : k ∈ heap.groups) (P : Leaf → Prop) :
    (∃ l, (heap.registry.insert g x).HoldsWithin k (.leaf l) ∧ P l) ↔
      (∃ l, heap.registry.HoldsWithin k (.leaf l) ∧ P l) ∨ heap.registry.Reaches k g ∧
        ((∃ l, x = .leaf l ∧ P l) ∨
          ∃ h, x = .group h ∧ ∃ l, heap.registry.HoldsWithin h (.leaf l) ∧ P l) := by
  simp only [ordered.holdsWithin_insert_iff made exist other]
  constructor
  · rintro ⟨l, held | ⟨upper, rfl | ⟨h, rfl, held⟩⟩, good⟩
    · exact Or.inl ⟨l, held, good⟩
    · exact Or.inr ⟨upper, Or.inl ⟨l, rfl, good⟩⟩
    · exact Or.inr ⟨upper, Or.inr ⟨h, rfl, l, held, good⟩⟩
  · rintro (⟨l, held, good⟩ | ⟨upper, ⟨l, rfl, good⟩ | ⟨h, rfl, l, held, good⟩⟩)
    · exact ⟨l, Or.inl held, good⟩
    · exact ⟨l, Or.inr ⟨upper, Or.inl rfl⟩, good⟩
    · exact ⟨l, Or.inr ⟨upper, Or.inr ⟨h, rfl, held⟩⟩, good⟩

/-- A group that reaches the changed one comes to have the leaves that the object has. -/
theorem Sound.hasObject_insert_iff (sound : heap.Sound) (after : (heap.insert g x).Sound)
    (made : g ∈ heap.groups) (exist : heap.Has x) (family : x.family = g.family)
    (other : k ∈ heap.groups) (kin : k.family = g.family) {y : Leaf} (fits : y.family = g.family) :
    (heap.registry.insert g x).hasObject k (.leaf y) = .ok true ↔
      heap.registry.hasObject k (.leaf y) = .ok true ∨
        heap.registry.Reaches k g ∧ heap.registry.Has x y := by
  have gain : heap.registry.Has x y ↔ (∃ l, x = .leaf l ∧ l.same y = true) ∨
      ∃ h, x = .group h ∧ ∃ l, heap.registry.HoldsWithin h (.leaf l) ∧ l.same y = true := by
    cases x with
    | leaf l => simp [Registry.Has]
    | group h =>
      simp [Registry.Has, sound.hasObject_leaf_iff (g := h) exist (fits.trans family.symm)]
  rw [gain, sound.hasObject_leaf_iff other (fits.trans kin.symm),
    ← sound.exists_leaf_insert_iff made exist other]
  exact after.hasObject_leaf_iff other (fits.trans kin.symm)

/-- A group that reaches the changed one comes to cover the leaves that the object covers. -/
theorem Sound.groupContains_insert_iff (sound : heap.Sound) (after : (heap.insert g x).Sound)
    (made : g ∈ heap.groups) (exist : heap.Has x) (family : x.family = g.family)
    (other : k ∈ heap.groups) (kin : k.family = g.family) {y : Leaf} (fits : y.family = g.family) :
    (heap.registry.insert g x).groupContains k (.leaf y) = .ok true ↔
      heap.registry.groupContains k (.leaf y) = .ok true ∨
        heap.registry.Reaches k g ∧ heap.registry.contains x (.leaf y) = .ok true := by
  have asked (registry : Registry) {h : Group} (kin : h.family = g.family) :
      registry.groupContains h (.leaf y) = .ok (registry.groupCovers h y) :=
    if_pos (fits.trans kin.symm)
  have gain : heap.registry.contains x (.leaf y) = .ok true ↔
      (∃ l, x = .leaf l ∧ l.covers y = true) ∨
        ∃ h, x = .group h ∧ ∃ l, heap.registry.HoldsWithin h (.leaf l) ∧ l.covers y = true := by
    cases x with
    | leaf l => simp [Registry.contains, Registry.leafContains]
    | group h => simp [Registry.contains, asked _ family, sound.groupCovers_iff (g := h) exist]
  rw [gain, asked _ kin, asked _ kin, Except.ok.injEq, Except.ok.injEq, sound.groupCovers_iff other,
    ← sound.exists_leaf_insert_iff made exist other]
  exact after.groupCovers_iff other

/-- A group has what was put in it. -/
theorem Ordered.hasObject_insert_self (ordered : heap.Ordered) (after : (heap.insert g x).Ordered)
    (made : g ∈ heap.groups) (family : x.family = g.family) :
    (heap.registry.insert g x).hasObject g x = .ok true := by
  refine (after.hasObject_iff made family).mpr ⟨g, .refl, x, ?_, Registry.sameObject_self _ x⟩
  exact (ordered.holds_insert made).mpr (Or.inr ⟨rfl, rfl⟩)

/-- In every heap that can come about, an object is refused as unsupported just when it is of another
family, else as a duplicate just when the group has it, else as cyclic just when it is a group that reaches
the one it is offered to; a refusal changes nothing. Otherwise one list takes it in at one place, offering it
again finds a duplicate, and what any group has and covers grows by what the object has and covers if the
group reaches the changed one, and not at all if it does not. -/
theorem add_refuses_or_takes (reachable : heap.Reachable) (made : g ∈ heap.groups)
    (exist : heap.Has x) :
    (heap.registry.add g x = .error (.unsupported g x.typeName) ↔ x.family ≠ g.family) ∧
    (heap.registry.add g x = .error (.duplicate g x) ↔
      x.family = g.family ∧ heap.registry.hasObject g x = .ok true) ∧
    (∀ h, heap.registry.add g x = .error (.cyclic g h) ↔
      x = .group h ∧ x.family = g.family ∧ heap.registry.hasObject g x = .ok false ∧
        heap.registry.Reaches h g) ∧
    ((∃ after, heap.registry.add g x = .ok after) ↔
      x.family = g.family ∧ heap.registry.hasObject g x = .ok false ∧
        ∀ h, x = .group h → ¬ heap.registry.Reaches h g) ∧
    (∀ cause, heap.registry.add g x = .error cause → heap.add g x = heap) ∧
    ∀ after, heap.registry.add g x = .ok after →
      heap.registry.Takes after g x ∧
      after.add g x = .error (.duplicate g x) ∧
      ∀ k ∈ heap.groups, k.family = g.family → ∀ y : Leaf, y.family = g.family →
        (after.hasObject k (.leaf y) = .ok true ↔
          heap.registry.hasObject k (.leaf y) = .ok true ∨
            heap.registry.Reaches k g ∧ heap.registry.Has x y) ∧
        (after.groupContains k (.leaf y) = .ok true ↔
          heap.registry.groupContains k (.leaf y) = .ok true ∨
            heap.registry.Reaches k g ∧ heap.registry.contains x (.leaf y) = .ok true) := by
  have sound := reachable.sound
  refine ⟨?_, ?_, fun h => ?_, ?_, fun cause refused => ?_, fun after taken => ?_⟩
  · exact Registry.add_eq_unsupported
  · exact Registry.add_eq_duplicate
  · exact sound.add_eq_cyclic made exist
  · exact sound.exists_add_eq_ok made exist
  · simp [Heap.add, refused]
  · obtain ⟨family, absent, away, rfl⟩ := Registry.add_eq_ok.mp taken
    have later := sound.insert made exist family absent away
    refine ⟨sound.takes_insert made x, ?_, fun k other kin y fits => ⟨?_, ?_⟩⟩
    · have found := sound.hasObject_insert_self later.toOrdered made family
      simp [Registry.add, found]
    · exact sound.hasObject_insert_iff later made exist family other kin fits
    · exact sound.groupContains_insert_iff later made exist family other kin fits

/-- The second of two groups is refused by the first one, which is nested in it. -/
theorem nestedPair_add_cyclic :
    nestedPair.Reachable ∧ servers ∈ nestedPair.groups ∧ nestedPair.Has (.group everything) ∧
      nestedPair.registry.add servers (.group everything) = .error (.cyclic servers everything) := by
  have made : servers ∈ nestedPair.groups := by simp [groups_nestedPair]
  have exist : everything ∈ nestedPair.groups := by simp [groups_nestedPair]
  have absent : nestedPair.registry.hasObject servers (.group everything) = .ok false := by decide +kernel
  have reaches : nestedPair.registry.Reaches everything servers := .single nestedPair_nests
  obtain ⟨_, _, cyclic, _⟩ :=
    add_refuses_or_takes (x := .group everything) nestedPair_reachable made exist
  exact ⟨nestedPair_reachable, made, exist, (cyclic everything).mpr ⟨rfl, rfl, absent, reaches⟩⟩

end Heap

end Rulebase
