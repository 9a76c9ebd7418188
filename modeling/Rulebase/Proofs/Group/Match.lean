import Rulebase.Proofs.Group.Containment
import Rulebase.Proofs.Order.Related

/-!
# Groups of the same content

Two groups have the same content just when they are similar: there is a relation that takes one to the other,
that relates groups of one family whose leaves match index by index, and that is kept when going down to the
nested groups of one index. So sameness is an equivalence, however groups are shared, and whatever is held at
or below one of two similar groups has a match at or below the other.
-/

namespace Rulebase

namespace Leaf

variable {x y z : Leaf}

theorem same_symm (same : x.same y = true) : y.same x = true := by
  rw [same_iff] at *
  exact ⟨same.1.symm, same.2.symm⟩

theorem same_trans (first : x.same y = true) (second : y.same z = true) : x.same z = true := by
  rw [same_iff] at *
  exact ⟨first.1.trans second.1, first.2.trans second.2⟩

theorem covers_of_same (same : x.same y = true) : x.covers y = true := by
  unfold Leaf.covers
  split
  · exact same
  · rw [(same_iff.mp same).2]
    exact y.span.covers_self

theorem sameAll_iff {xs ys : List Leaf} :
    Leaf.sameAll xs ys = true ↔ List.Forall₂ (fun x y => x.same y = true) xs ys := by
  induction xs generalizing ys with
  | nil => cases ys <;> simp [sameAll]
  | cons x xs ih => cases ys <;> simp [sameAll, ih]

end Leaf

/-- Groups of one family and one name. -/
def Group.Kin (g h : Group) : Prop :=
  g.family = h.family ∧ g.name = h.name

theorem Group.alike_iff {gs hs : List Group} :
    Group.alike gs hs = true ↔ List.Forall₂ Group.Kin gs hs := by
  induction gs generalizing hs with
  | nil => cases hs <;> simp [alike]
  | cons g gs ih => cases hs <;> simp [alike, Kin, ih]

namespace Registry

variable {registry : Registry} {R S : Group → Group → Prop} {g h k : Group}

/-- A relation between groups of one family that hold the same leaves, kept when going down. -/
structure Bisimulation (registry : Registry) (R : Group → Group → Prop) : Prop where
  family : ∀ {g h}, R g h → g.family = h.family
  leaves : ∀ {g h}, R g h → ∀ kind, kind.family = g.family →
    List.Forall₂ (fun x y => x.same y = true) ((registry.content g).leaves kind)
      ((registry.content h).leaves kind)
  nested : ∀ {g h}, R g h →
    List.Forall₂ (fun a b => a.name = b.name ∧ R a b) (registry.nested g) (registry.nested h)

namespace Bisimulation

theorem flip (bisimulation : registry.Bisimulation R) : registry.Bisimulation fun g h => R h g where
  family related := (bisimulation.family related).symm
  leaves related kind family := by
    have forth := bisimulation.leaves related kind (family.trans (bisimulation.family related).symm)
    exact List.Forall₂.flip (forth.imp fun _ _ => Leaf.same_symm)
  nested related :=
    List.Forall₂.flip ((bisimulation.nested related).imp fun _ _ below => ⟨below.1.symm, below.2⟩)

theorem comp (left : registry.Bisimulation R) (right : registry.Bisimulation S) :
    registry.Bisimulation fun g k => ∃ h, R g h ∧ S h k where
  family := fun ⟨_, first, second⟩ => (left.family first).trans (right.family second)
  leaves := fun ⟨_, first, second⟩ kind family =>
    forall₂_comp (left.leaves first kind family)
      (right.leaves second kind ((left.family first) ▸ family)) fun _ _ _ => Leaf.same_trans
  nested := fun ⟨_, first, second⟩ =>
    forall₂_comp (left.nested first) (right.nested second) fun _ b _ one two =>
      ⟨one.1.trans two.1, b, one.2, two.2⟩

theorem agree (bisimulation : registry.Bisimulation R) (related : R g h) :
    registry.agree (g, h) = true := by
  simp only [Registry.agree, Bool.and_eq_true, List.all_eq_true, Family.mem_kinds]
  refine ⟨fun kind family => Leaf.sameAll_iff.mpr (bisimulation.leaves related kind family), ?_⟩
  exact Group.alike_iff.mpr ((bisimulation.nested related).imp fun _ _ below =>
    ⟨bisimulation.family below.2, below.1⟩)

theorem of_pairing_reaches (bisimulation : registry.Bisimulation R) (related : R g h)
    {pair : Group × Group} (reaches : registry.pairing.Reaches (g, h) pair) : R pair.1 pair.2 := by
  induction reaches with
  | refl => exact related
  | tail _ below ih => exact (List.forall₂_zip (bisimulation.nested ih) (List.mem_reverse.mp below)).2

/-- Groups that are related have the same content. -/
theorem sameContent (bisimulation : registry.Bisimulation R) (related : R g h) :
    registry.sameContent g h = true := by
  refine List.all_eq_true.mpr fun pair met => ?_
  have reaches := Order.Graph.reaches_of_mem_reach met
  exact bisimulation.agree (bisimulation.of_pairing_reaches related reaches)

end Bisimulation

/-- Some relation of groups of the same content takes one group to the other. -/
def Similar (registry : Registry) (g h : Group) : Prop :=
  ∃ R, registry.Bisimulation R ∧ R g h

namespace Similar

theorem symm (similar : registry.Similar g h) : registry.Similar h g := by
  obtain ⟨R, bisimulation, related⟩ := similar
  exact ⟨_, bisimulation.flip, related⟩

theorem trans (first : registry.Similar g h) (second : registry.Similar h k) :
    registry.Similar g k := by
  obtain ⟨R, left, related⟩ := first
  obtain ⟨S, right, related'⟩ := second
  exact ⟨_, left.comp right, h, related, related'⟩

/-- Similarity relates groups of the same content itself. -/
theorem bisimulation (registry : Registry) : registry.Bisimulation registry.Similar where
  family := fun ⟨_, bisimulation, related⟩ => bisimulation.family related
  leaves := fun ⟨_, bisimulation, related⟩ => bisimulation.leaves related
  nested := fun ⟨R, bisimulation, related⟩ =>
    (bisimulation.nested related).imp fun _ _ below => ⟨below.1, R, bisimulation, below.2⟩

end Similar

/-- What can be reached from a group is told apart by serial numbers. -/
def Apart (registry : Registry) (g : Group) : Prop :=
  ∀ a b, registry.Reaches g a → registry.Reaches g b → a.serial = b.serial → a = b

/-- From a pair of groups, pairs of what the two reach can be reached. -/
theorem reaches_of_pairing_reaches {pair : Group × Group}
    (reaches : registry.pairing.Reaches (g, h) pair) :
    registry.Reaches g pair.1 ∧ registry.Reaches h pair.2 := by
  induction reaches with
  | refl => exact ⟨.refl, .refl⟩
  | tail _ below ih =>
    obtain ⟨left, right⟩ := List.of_mem_zip (List.mem_reverse.mp below)
    exact ⟨ih.1.tail left, ih.2.tail right⟩

/-- Where serial numbers tell groups apart, groups of one family and the same content are similar. -/
theorem similar_of_sameContent (left : registry.Apart g) (right : registry.Apart h)
    (family : g.family = h.family) (same : registry.sameContent g h = true) :
    registry.Similar g h := by
  have agree : ∀ pair, registry.pairing.Reaches (g, h) pair → registry.agree pair = true := by
    intro pair reaches
    refine List.all_eq_true.mp same pair ((Order.Graph.mem_reach_iff ?_).mpr reaches)
    intro c d there here level
    have ⟨upper, upper'⟩ := reaches_of_pairing_reaches there
    have ⟨lower, lower'⟩ := reaches_of_pairing_reaches here
    obtain ⟨serial, serial'⟩ := Prod.mk.inj level
    exact Prod.ext (left _ _ upper lower serial) (right _ _ upper' lower' serial')
  have nested : ∀ a b, registry.pairing.Reaches (g, h) (a, b) →
      List.Forall₂ Group.Kin (registry.nested a) (registry.nested b) := fun a b reaches =>
    Group.alike_iff.mp (Bool.and_eq_true_iff.mp (agree (a, b) reaches)).2
  have kin : ∀ pair, registry.pairing.Reaches (g, h) pair → pair.1.family = pair.2.family := by
    intro pair reaches
    rcases Relation.ReflTransGen.cases_tail reaches with same | ⟨upper, before, below⟩
    · rw [same]
      exact family
    · exact (List.forall₂_zip (nested _ _ before) (List.mem_reverse.mp below)).1
  refine ⟨fun a b => registry.pairing.Reaches (g, h) (a, b), ⟨kin _, ?_, ?_⟩, .refl⟩
  · intro a b reaches kind kindred
    have each := (Bool.and_eq_true_iff.mp (agree (a, b) reaches)).1
    exact Leaf.sameAll_iff.mp (List.all_eq_true.mp each kind (Family.mem_kinds.mpr kindred))
  · intro a b reaches
    have below := nested a b reaches
    refine List.forall₂_iff_zip.mpr ⟨below.length_eq, fun paired => ?_⟩
    exact ⟨(List.forall₂_zip below paired).2, .tail reaches (List.mem_reverse.mpr paired)⟩

/-- Groups match just when they are of one family and one name and are similar. -/
theorem sameGroup_iff (left : registry.Apart g) (right : registry.Apart h) :
    registry.sameGroup g h = true ↔ g.name = h.name ∧ registry.Similar g h := by
  simp only [sameGroup, Bool.and_eq_true, beq_iff_eq]
  constructor
  · rintro ⟨⟨family, name⟩, same⟩
    exact ⟨name, similar_of_sameContent left right family.symm same⟩
  · rintro ⟨name, R, bisimulation, related⟩
    exact ⟨⟨(bisimulation.family related).symm, name⟩, bisimulation.sameContent related⟩

namespace Similar

/-- What one of two similar groups reaches, the other one reaches up to similarity. -/
theorem reaches {a : Group} (similar : registry.Similar g h) (below : registry.Reaches g a) :
    ∃ b, registry.Reaches h b ∧ registry.Similar a b := by
  induction below with
  | refl => exact ⟨h, .refl, similar⟩
  | @tail upper lower _ nests ih =>
    obtain ⟨b, reached, level⟩ := ih
    have paired := (bisimulation registry).nested level
    obtain ⟨index, bound, rfl⟩ := List.mem_iff_getElem.mp nests
    have bound' := paired.length_eq ▸ bound
    refine ⟨(registry.nested b)[index], reached.tail (List.getElem_mem bound'), ?_⟩
    exact (paired.get bound bound').2

end Similar

/-- Objects match: leaves by value, and groups by name and content. -/
def Matches (registry : Registry) : Object → Object → Prop
  | .leaf x, .leaf y => x.same y = true
  | .group g, .group h => g.name = h.name ∧ registry.Similar g h
  | _, _ => False

namespace Matches

variable {x y z : Object}

theorem symm (matched : registry.Matches x y) : registry.Matches y x := by
  cases x with
  | leaf l =>
    cases y with
    | leaf k => exact Leaf.same_symm matched
    | group h => cases matched
  | group g =>
    cases y with
    | leaf k => cases matched
    | group h => exact ⟨matched.1.symm, matched.2.symm⟩

theorem trans (first : registry.Matches x y) (second : registry.Matches y z) :
    registry.Matches x z := by
  cases y with
  | leaf k =>
    cases x with
    | group g => cases first
    | leaf l =>
      cases z with
      | group h => cases second
      | leaf n => exact Leaf.same_trans first second
  | group g =>
    cases x with
    | leaf l => cases first
    | group h =>
      cases z with
      | leaf n => cases second
      | group k => exact ⟨first.1.trans second.1, first.2.trans second.2⟩

end Matches

end Registry

namespace Heap

variable {heap : Heap} {g h : Group} {x m : Object}

/-- Any leaf is known in a heap, and a group when it was made there or is only named. -/
def Knows (heap : Heap) : Object → Prop
  | .leaf _ => True
  | .group g => g ∈ heap.groups ∨ g.serial = 0

theorem Has.knows (exist : heap.Has x) : heap.Knows x := by
  cases x with
  | leaf y => trivial
  | group g => exact Or.inl exist

theorem content_of_serial_eq_zero (registry : Registry) (unregistered : g.serial = 0) :
    registry.content g = .empty := by
  refine Registry.content_eq_empty fun registered => ?_
  simp [Registry.serials, List.mem_range'_1, unregistered] at registered

theorem eq_of_reaches {registry : Registry} (unregistered : g.serial = 0)
    (reaches : registry.Reaches g h) : h = g := by
  rcases Relation.ReflTransGen.cases_head reaches with same | ⟨k, nests, _⟩
  · exact same.symm
  · simp [Registry.Nests, Registry.nested, content_of_serial_eq_zero _ unregistered,
      Content.empty] at nests

theorem Closed.apart (closed : heap.Closed) (known : heap.Knows (.group g)) :
    heap.registry.Apart g := by
  intro a b left right same
  rcases known with made | unregistered
  · exact closed.eq_of_serial (closed.reaches made left).1 (closed.reaches made right).1 same
  · rw [eq_of_reaches unregistered left, eq_of_reaches unregistered right]

theorem Closed.sameObject_iff (closed : heap.Closed) (left : heap.Knows m) (right : heap.Knows x) :
    heap.registry.sameObject m x = true ↔ heap.registry.Matches m x := by
  cases m with
  | leaf y => cases x <;> simp [Registry.sameObject, Registry.Matches]
  | group g =>
    cases x with
    | leaf z => simp [Registry.sameObject, Registry.Matches]
    | group h => exact Registry.sameGroup_iff (closed.apart left) (closed.apart right)

/-- Groups of the heap that are found to match do. -/
theorem Closed.matches_of_sameGroup (closed : heap.Closed) (left : g ∈ heap.groups)
    (right : h ∈ heap.groups) (same : heap.registry.sameGroup g h = true) :
    heap.registry.Matches (.group g) (.group h) :=
  (closed.sameObject_iff (m := .group g) (x := .group h) (Or.inl left) (Or.inl right)).mp same

/-- What one of two similar groups holds at some depth, the other one holds a match of. -/
theorem Ordered.holdsWithin_of_similar (ordered : heap.Ordered) (made : g ∈ heap.groups)
    (similar : heap.registry.Similar g h) (held : heap.registry.HoldsWithin g m) :
    ∃ n, heap.registry.HoldsWithin h n ∧ heap.registry.Matches m n := by
  obtain ⟨a, reaches, here⟩ := held
  obtain ⟨b, reached, level⟩ := similar.reaches reaches
  have inside := (ordered.reaches made reaches).1
  cases m with
  | leaf l =>
    have leaves := (Registry.Similar.bisimulation heap.registry).leaves level l.kind
      (ordered.family a inside (.leaf l) here)
    obtain ⟨index, bound, same⟩ := List.mem_iff_getElem.mp here
    have bound' := leaves.length_eq ▸ bound
    have matched := leaves.get bound bound'
    simp only [List.get_eq_getElem, same] at matched
    refine ⟨.leaf ((heap.registry.content b).leaves l.kind)[index], ⟨b, reached, ?_⟩, matched⟩
    rw [Registry.Holds, ← (Leaf.same_iff.mp matched).1]
    exact List.getElem_mem bound'
  | group k =>
    have nested := (Registry.Similar.bisimulation heap.registry).nested level
    obtain ⟨index, bound, rfl⟩ := List.mem_iff_getElem.mp here
    have bound' := nested.length_eq ▸ bound
    exact ⟨.group (heap.registry.nested b)[index], ⟨b, reached, List.getElem_mem bound'⟩,
      nested.get bound bound'⟩

end Heap

end Rulebase
