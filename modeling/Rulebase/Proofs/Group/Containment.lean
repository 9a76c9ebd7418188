import Rulebase.Proofs.Group.Invariant

/-!
# The order of containment

Every object is taken as a list of leaves: a leaf as itself, a group as the leaves reachable from it. An
object contains another when the other has leaves and each of them is covered by one of its own, whatever
the two are. As covering is reflexive and transitive among leaves, containment is transitive among all
objects of a heap, and it is reflexive but for groups without leaves.
-/

namespace Rulebase

namespace Span

theorem covers_addresses {a b c d : Address} :
    (addresses a b).covers (addresses c d) = true ↔ a ≤ c ∧ d ≤ b := by
  simp [covers]

theorem covers_ports {p q : Protocol} {a b c d : Int} :
    (ports p a b).covers (ports q c d) = true ↔ p = q ∧ a ≤ c ∧ d ≤ b := by
  simp [covers, and_assoc]

theorem covers_self (x : Span) : x.covers x = true := by
  cases x with
  | addresses a b => simp [covers_addresses, Address.le_iff]
  | ports p a b => simp [covers_ports]

theorem covers_trans {x y z : Span} (first : x.covers y = true) (second : y.covers z = true) :
    x.covers z = true := by
  cases x with
  | addresses a b =>
    cases y with
    | ports p c d => cases first
    | addresses c d =>
      cases z with
      | ports p e f => cases second
      | addresses e f =>
        rw [covers_addresses, Address.le_iff, Address.le_iff] at *
        exact ⟨Nat.le_trans first.1 second.1, Nat.le_trans second.2 first.2⟩
  | ports p a b =>
    cases y with
    | addresses c d => cases first
    | ports q c d =>
      cases z with
      | addresses e f => cases second
      | ports r e f =>
        rw [covers_ports] at *
        exact ⟨first.1.trans second.1, Int.le_trans first.2.1 second.2.1,
          Int.le_trans second.2.2 first.2.2⟩

end Span

namespace Leaf

variable {x y z : Leaf}

theorem span_covers (covers : x.covers y = true) : x.span.covers y.span = true := by
  unfold Leaf.covers at covers
  split at covers
  · rw [(same_iff.mp covers).2]
    exact y.span.covers_self
  · exact covers

theorem covers_of_not_isPoint (interval : x.isPoint = false) :
    x.covers y = x.span.covers y.span := by
  simp [Leaf.covers, interval]

theorem isPoint_eq_of_kind (kind : x.kind = y.kind) : x.isPoint = y.isPoint := by
  cases x <;> cases y <;> simp [Leaf.kind, isPoint] at kind ⊢

theorem isPoint_of_covers (point : x.isPoint = true) (covers : x.covers y = true) :
    y.isPoint = true := by
  simp only [Leaf.covers, point, if_true] at covers
  rw [← isPoint_eq_of_kind (same_iff.mp covers).1]
  exact point

theorem covers_self (x : Leaf) : x.covers x = true := by
  unfold Leaf.covers
  split
  · exact x.same_self
  · exact x.span.covers_self

theorem covers_trans (first : x.covers y = true) (second : y.covers z = true) :
    x.covers z = true := by
  cases point : x.isPoint with
  | true =>
    have middle := isPoint_of_covers point first
    simp only [Leaf.covers, point, middle, if_true] at first second ⊢
    rw [same_iff] at *
    exact ⟨first.1.trans second.1, first.2.trans second.2⟩
  | false =>
    rw [covers_of_not_isPoint point]
    exact Span.covers_trans (span_covers first) (span_covers second)

theorem family_of_covers (covers : x.covers y = true) : y.family = x.family := by
  have within := span_covers covers
  cases x <;> cases y <;> first | rfl | cases within

end Leaf

namespace Registry

variable {registry : Registry}

def leavesOf (registry : Registry) : Object → List Leaf
  | .leaf l => [l]
  | .group g => registry.members g

/-- A group covers what one of the leaves reachable from it covers. -/
theorem groupCovers_eq_any (registry : Registry) (g : Group) (l : Leaf) :
    registry.groupCovers g l = (registry.members g).any (·.covers l) := by
  simp only [groupCovers, members, ownCovers, ownLeaves, Content.members, List.any_flatMap]

theorem groupCovers_eq_true {g : Group} {l : Leaf} :
    registry.groupCovers g l = true ↔ ∃ k ∈ registry.members g, k.covers l = true := by
  rw [groupCovers_eq_any, List.any_eq_true]

end Registry

/-- What can contain what: a group holds objects of its family only, and a point contains no group. -/
def Object.CanContain : Object → Object → Prop
  | .leaf _, .leaf _ => True
  | .leaf l, .group _ => l.isPoint = false
  | .group g, x => x.family = g.family

namespace Registry

variable {registry : Registry} {x y : Object}

/-- An object contains another just when each of the other's leaves, of which there are some, is covered by
one of its own. -/
theorem contains_iff :
    registry.contains x y = .ok true ↔
      x.CanContain y ∧ registry.leavesOf y ≠ [] ∧
        ∀ l ∈ registry.leavesOf y, ∃ k ∈ registry.leavesOf x, k.covers l = true := by
  cases x with
  | leaf k =>
    cases y with
    | leaf l => simp [contains, leafContains, Object.CanContain, leavesOf]
    | group h =>
      cases point : k.isPoint with
      | true => simp [contains, leafContains, Object.CanContain, point]
      | false =>
        simp [contains, leafContains, Object.CanContain, leavesOf, spans, point,
          Leaf.covers_of_not_isPoint point]
  | group g =>
    by_cases family : y.family = g.family
    · cases y with
      | leaf l =>
        simp [contains, groupContains, Object.CanContain, leavesOf, family, groupCovers_eq_true]
      | group h =>
        simp [contains, groupContains, Object.CanContain, leavesOf, family, groupCovers_eq_true]
    · simp [contains, groupContains, Object.CanContain, family]

theorem contains_self_total (registry : Registry) (x : Object) :
    ∃ answer, registry.contains x x = .ok answer := by
  cases x with
  | leaf l => exact ⟨_, rfl⟩
  | group g => exact ⟨_, if_pos rfl⟩

end Registry

namespace Heap

variable {heap : Heap} {g : Group} {x y z : Object}

/-- The leaves of a group are those held by it or below it. -/
theorem Ordered.mem_members_iff (ordered : heap.Ordered) (made : g ∈ heap.groups) {l : Leaf} :
    l ∈ heap.registry.members g ↔ heap.registry.HoldsWithin g (.leaf l) := by
  simp only [Registry.members, Registry.ownLeaves, Content.members, List.mem_flatMap,
    Family.mem_kinds, ordered.mem_walk_iff made]
  constructor
  · rintro ⟨h, reaches, kind, _, found⟩
    have listed := ordered.kinds h (ordered.reaches made reaches).1 kind l found
    exact ⟨h, reaches, show l ∈ _ from listed ▸ found⟩
  · rintro ⟨h, reaches, held⟩
    exact ⟨h, reaches, l.kind, ordered.family h (ordered.reaches made reaches).1 (.leaf l) held, held⟩

theorem Ordered.family_of_mem_leavesOf (ordered : heap.Ordered) (exist : heap.Has x) {l : Leaf}
    (found : l ∈ heap.registry.leavesOf x) : l.family = x.family := by
  cases x with
  | leaf k =>
    rw [List.mem_singleton.mp found]
    rfl
  | group g =>
    obtain ⟨h, reaches, held⟩ := (ordered.mem_members_iff exist).mp found
    have below := ordered.reaches exist reaches
    exact (ordered.family h below.1 (.leaf l) held).trans below.2

theorem Ordered.family_of_contains (ordered : heap.Ordered) (left : heap.Has x) (right : heap.Has y)
    (contains : heap.registry.contains x y = .ok true) : y.family = x.family := by
  obtain ⟨_, some, covered⟩ := Registry.contains_iff.mp contains
  obtain ⟨l, found⟩ := List.exists_mem_of_ne_nil _ some
  obtain ⟨k, own, covers⟩ := covered l found
  rw [← ordered.family_of_mem_leavesOf left own, ← ordered.family_of_mem_leavesOf right found]
  exact Leaf.family_of_covers covers

/-- What contains a second object that contains a third can contain the third. -/
theorem Ordered.canContain_trans (ordered : heap.Ordered) (left : heap.Has x) (middle : heap.Has y)
    (right : heap.Has z) (first : heap.registry.contains x y = .ok true)
    (second : heap.registry.contains y z = .ok true) : x.CanContain z := by
  cases x with
  | group g =>
    exact (ordered.family_of_contains middle right second).trans
      (ordered.family_of_contains left middle first)
  | leaf k =>
    cases z with
    | leaf n => trivial
    | group h =>
      obtain ⟨can, _, covered⟩ := Registry.contains_iff.mp first
      cases y with
      | group g => exact can
      | leaf l =>
        -- The leaf in the middle covers a group, so it is an interval, and so is what covers it.
        have interval : l.isPoint = false := (Registry.contains_iff.mp second).1
        obtain ⟨k', own, covers⟩ := covered l List.mem_cons_self
        rw [List.mem_singleton.mp own] at covers
        by_contra point
        have := Leaf.isPoint_of_covers (Bool.eq_true_of_not_eq_false point) covers
        simp [interval] at this

/-- Containment is transitive whatever the three objects are. -/
theorem Ordered.contains_trans (ordered : heap.Ordered) (left : heap.Has x) (middle : heap.Has y)
    (right : heap.Has z) (first : heap.registry.contains x y = .ok true)
    (second : heap.registry.contains y z = .ok true) : heap.registry.contains x z = .ok true := by
  have can := ordered.canContain_trans left middle right first second
  obtain ⟨_, _, upper⟩ := Registry.contains_iff.mp first
  obtain ⟨_, some, lower⟩ := Registry.contains_iff.mp second
  refine Registry.contains_iff.mpr ⟨can, some, fun n found => ?_⟩
  obtain ⟨l, between, covers⟩ := lower n found
  obtain ⟨k, own, above⟩ := upper l between
  exact ⟨k, own, Leaf.covers_trans above covers⟩

/-- An object contains itself just when it is taken as some leaves. -/
theorem contains_self_iff {registry : Registry} :
    registry.contains x x = .ok true ↔ registry.leavesOf x ≠ [] := by
  rw [Registry.contains_iff]
  constructor
  · rintro ⟨_, some, _⟩
    exact some
  · intro some
    refine ⟨?_, some, fun l found => ⟨l, found, l.covers_self⟩⟩
    cases x with
    | leaf l => trivial
    | group g => rfl

/-- In every heap that can come about, containment is transitive among all leaves and groups. Every leaf
contains itself, and a group just when some leaf is reachable from it. -/
theorem contains_preorder (reachable : heap.Reachable) :
    (∀ x y z, heap.Has x → heap.Has y → heap.Has z →
      heap.registry.contains x y = .ok true → heap.registry.contains y z = .ok true →
        heap.registry.contains x z = .ok true) ∧
    (∀ l : Leaf, heap.registry.contains (.leaf l) (.leaf l) = .ok true) ∧
    ∀ g ∈ heap.groups, ∃ answer, heap.registry.contains (.group g) (.group g) = .ok answer ∧
      (answer = true ↔ ∃ l, heap.registry.HoldsWithin g (.leaf l)) := by
  have sound := reachable.sound
  refine ⟨fun x y z left middle right => sound.contains_trans left middle right, fun l => ?_,
    fun g made => ?_⟩
  · exact contains_self_iff.mpr (List.cons_ne_nil l [])
  · obtain ⟨answer, asked⟩ := heap.registry.contains_self_total (.group g)
    refine ⟨answer, asked, ?_⟩
    have itself : heap.registry.contains (.group g) (.group g) = .ok true ↔ _ := contains_self_iff
    rw [asked, Except.ok.injEq] at itself
    rw [itself, Registry.leavesOf, ← List.length_pos_iff, List.length_pos_iff_exists_mem]
    simp only [sound.mem_members_iff made]

/-- The addresses from 10.0.0.0 to 10.0.0.255. -/
def campus : Leaf :=
  .range { name := "campus", first := .ofNat 167772160, last := .ofNat 167772415, ordered := by decide }

/-- A range that contains a group with another one in it contains the hosts of the inner one. -/
theorem nestedPair_contains_through :
    nestedPair.Reachable ∧
      nestedPair.registry.contains (.leaf campus) (.group everything) = .ok true ∧
      nestedPair.registry.contains (.group everything) (.leaf mail) = .ok true ∧
      nestedPair.registry.contains (.leaf campus) (.leaf mail) = .ok true := by
  have made : everything ∈ nestedPair.groups := by simp [groups_nestedPair]
  have outer : nestedPair.registry.contains (.leaf campus) (.group everything) = .ok true := by decide +kernel
  have inner : nestedPair.registry.contains (.group everything) (.leaf mail) = .ok true := by decide +kernel
  have through := (contains_preorder nestedPair_reachable).1 (.leaf campus) (.group everything)
    (.leaf mail) trivial made trivial outer inner
  exact ⟨nestedPair_reachable, outer, inner, through⟩

end Heap

end Rulebase
