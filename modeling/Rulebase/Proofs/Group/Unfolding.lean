import Mathlib.Data.List.Perm.Subperm
import Mathlib.Data.List.Permutation
import Rulebase.Proofs.Group.Invariant
import Rulebase.Proofs.Group.Match

/-!
# Groups unfolded

A group unfolds to a tree: at each node stand the values of the leaves held there, kind by kind, and below it
one branch for each nested group, under the name of the group. A tree says nothing of the name of its own
group, of comments, of the names of leaves or of how groups are shared. Two groups of a family have the same
content just when they unfold to the same tree, so sameness is an equivalence.
-/

namespace Rulebase

/-- What a leaf stands for, whatever it is called. -/
inductive LeafValue where
  | host (address : Address)
  | network (address mask : Address)
  | range (first last : Address)
  | port (number : Nat) (protocol : Protocol)
  | portRange (first last : Nat) (protocol : Protocol)
  deriving DecidableEq

namespace Leaf

def value : Leaf → LeafValue
  | host x => .host x.address
  | network x => .network x.address x.mask
  | range x => .range x.first x.last
  | port x => .port x.number x.protocol
  | portRange x => .portRange x.first x.last x.protocol

theorem same_iff_value_eq {x y : Leaf} : x.same y = true ↔ x.value = y.value := by
  cases x <;> cases y <;> simp [same, value, and_assoc]

theorem sameAll_iff_map_value_eq {xs ys : List Leaf} :
    Leaf.sameAll xs ys = true ↔ xs.map value = ys.map value := by
  induction xs generalizing ys with
  | nil => cases ys <;> simp [sameAll]
  | cons x xs ih => cases ys <;> simp [sameAll, ih, same_iff_value_eq]

end Leaf

/-- Values of leaves, a list for each kind, and named branches. -/
inductive Tree where
  | node (values : List (List LeafValue)) (branches : List (String × Tree))

namespace Registry

variable {registry : Registry} {g h : Group}

/-- The values of the leaves that a group holds directly, a list for each kind of its family. -/
def values (registry : Registry) (g : Group) : List (List LeafValue) :=
  g.family.kinds.map fun kind => ((registry.content g).leaves kind).map Leaf.value

def unfold (registry : Registry) : Nat → Group → Tree
  | 0, g => .node (registry.values g) []
  | depth + 1, g =>
    .node (registry.values g) ((registry.nested g).map fun h => (h.name, registry.unfold depth h))

/-- A group unfolded as deep as the groups met from it can be nested. -/
def tree (registry : Registry) (g : Group) : Tree :=
  registry.unfold (registry.walk g).length g

/-- Groups that hold the same values are of one family, since the families differ in the number of their
kinds. -/
theorem family_eq_of_values_eq (same : registry.values g = registry.values h) : g.family = h.family := by
  have count := congrArg List.length same
  simp only [values, List.length_map] at count
  cases left : g.family <;> cases right : h.family <;> simp [left, right, Family.kinds] at count ⊢

theorem values_eq_iff (family : g.family = h.family) :
    registry.values g = registry.values h ↔ ∀ kind, kind.family = g.family →
      List.Forall₂ (fun x y => x.same y = true) ((registry.content g).leaves kind)
        ((registry.content h).leaves kind) := by
  simp only [values, ← family, List.map_inj_left, Family.mem_kinds, ← Leaf.sameAll_iff_map_value_eq,
    Leaf.sameAll_iff]

end Registry

namespace Heap

variable {heap : Heap} {g h k : Group}

/-- Fewer groups are met from a nested group. -/
theorem Sound.walk_length_lt (sound : heap.Sound) (made : g ∈ heap.groups)
    (nests : heap.registry.Nests g h) :
    (heap.registry.walk h).length < (heap.registry.walk g).length := by
  have inner : h ∈ heap.groups := sound.exist g made (.group h) nests
  have away : g ∉ heap.registry.walk h := fun met =>
    sound.acyclic g made (.head' nests ((sound.mem_walk_iff inner).mp met))
  have once : (g :: heap.registry.walk h).Nodup :=
    List.nodup_cons.mpr ⟨away, heap.registry.nesting.nodup_reach h⟩
  refine (once.subperm fun k met => ?_).length_le
  rw [sound.mem_walk_iff made]
  rcases List.mem_cons.mp met with rfl | below
  · exact .refl
  · exact .head nests ((sound.mem_walk_iff inner).mp below)

/-- What holds of a group when it holds of the groups nested in it holds of all groups. -/
theorem Sound.nesting_induction (sound : heap.Sound) {P : Group → Prop}
    (step : ∀ g ∈ heap.groups, (∀ h, heap.registry.Nests g h → P h) → P g) : ∀ g ∈ heap.groups, P g := by
  intro g made
  induction met : (heap.registry.walk g).length using Nat.strong_induction_on generalizing g with
  | _ count ih =>
    refine step g made fun h nests => ?_
    exact ih _ (met ▸ sound.walk_length_lt made nests) h (sound.exist g made (.group h) nests) rfl

/-- Unfolding deeper than groups are nested changes nothing. -/
theorem Sound.unfold_eq_tree (sound : heap.Sound) :
    ∀ g ∈ heap.groups, ∀ depth, (heap.registry.walk g).length ≤ depth →
      heap.registry.unfold depth g = heap.registry.tree g := by
  refine sound.nesting_induction fun g made ih => ?_
  -- Any two depths at least as large as the number of groups met are at least one.
  have each : ∀ depth, (heap.registry.walk g).length ≤ depth → heap.registry.unfold depth g =
      .node (heap.registry.values g)
        ((heap.registry.nested g).map fun h => (h.name, heap.registry.tree h)) := by
    intro depth enough
    have some : 0 < (heap.registry.walk g).length :=
      List.length_pos_of_mem ((sound.mem_walk_iff made).mpr .refl)
    obtain ⟨less, rfl⟩ := Nat.exists_eq_succ_of_ne_zero (by omega : depth ≠ 0)
    rw [Registry.unfold]
    congr 1
    refine List.map_congr_left fun h nests => ?_
    have fewer := sound.walk_length_lt made nests
    rw [ih h nests less (by omega)]
  intro depth enough
  exact (each depth enough).trans (each _ (Nat.le_refl _)).symm

/-- A function unfolds the groups of a heap when the tree of each group has the values held there and under
each nested group's name its tree. -/
def Unfolds (heap : Heap) (T : Group → Tree) : Prop :=
  ∀ g ∈ heap.groups,
    T g = .node (heap.registry.values g) ((heap.registry.nested g).map fun h => (h.name, T h))

theorem Sound.unfolds_tree (sound : heap.Sound) : heap.Unfolds heap.registry.tree := by
  intro g made
  rw [← sound.unfold_eq_tree g made _ (Nat.le_succ _), Registry.unfold]
  congr 1
  refine List.map_congr_left fun h nests => ?_
  rw [sound.unfold_eq_tree h (sound.exist g made (.group h) nests) _
    (Nat.le_of_lt (sound.walk_length_lt made nests))]

/-- There is one way to unfold the groups of a heap. -/
theorem Unfolds.eq_tree {T : Group → Tree} (unfolds : heap.Unfolds T) (sound : heap.Sound) :
    ∀ g ∈ heap.groups, T g = heap.registry.tree g := by
  refine sound.nesting_induction fun g made ih => ?_
  rw [unfolds g made, sound.unfolds_tree g made]
  congr 1
  exact List.map_congr_left fun h nests => by rw [ih h nests]

/-- Trees of one node and of branches that are pairwise the same under the same names are the same. -/
theorem Sound.tree_eq_iff (sound : heap.Sound) (left : g ∈ heap.groups) (right : h ∈ heap.groups) :
    heap.registry.tree g = heap.registry.tree h ↔
      heap.registry.values g = heap.registry.values h ∧
        List.Forall₂ (fun a b => a.name = b.name ∧ heap.registry.tree a = heap.registry.tree b)
          (heap.registry.nested g) (heap.registry.nested h) := by
  rw [sound.unfolds_tree g left, sound.unfolds_tree h right, Tree.node.injEq]
  refine and_congr_right fun _ => ?_
  rw [← List.forall₂_eq_eq_eq, List.forall₂_map_left_iff, List.forall₂_map_right_iff]
  simp only [Prod.mk.injEq]

/-- Two groups are similar just when they unfold to the same tree. -/
theorem Sound.similar_iff_tree_eq (sound : heap.Sound) (left : g ∈ heap.groups) (right : h ∈ heap.groups) :
    heap.registry.Similar g h ↔ heap.registry.tree g = heap.registry.tree h := by
  constructor
  · intro similar
    revert h
    refine sound.nesting_induction (P := fun g => ∀ {h}, h ∈ heap.groups → heap.registry.Similar g h →
      heap.registry.tree g = heap.registry.tree h) (fun g left ih => ?_) g left
    intro h right similar
    have level := Registry.Similar.bisimulation heap.registry
    refine (sound.tree_eq_iff left right).mpr ⟨?_, ?_⟩
    · exact (Registry.values_eq_iff (level.family similar)).mpr (level.leaves similar)
    · refine forall₂_imp_mem (level.nested similar) fun a first b second ⟨name, below⟩ => ?_
      exact ⟨name, ih a first (sound.exist h right (.group b) second) below⟩
  · intro same
    refine ⟨fun a b => a ∈ heap.groups ∧ b ∈ heap.groups ∧ heap.registry.tree a = heap.registry.tree b,
      ⟨?_, ?_, ?_⟩, left, right, same⟩
    · rintro a b ⟨made, made', same⟩
      exact Registry.family_eq_of_values_eq ((sound.tree_eq_iff made made').mp same).1
    · rintro a b ⟨made, made', same⟩
      have values := ((sound.tree_eq_iff made made').mp same).1
      exact (Registry.values_eq_iff (Registry.family_eq_of_values_eq values)).mp values
    · rintro a b ⟨made, made', same⟩
      have nested := ((sound.tree_eq_iff made made').mp same).2
      refine forall₂_imp_mem nested fun c first d second ⟨name, below⟩ => ?_
      exact ⟨name, sound.exist a made (.group c) first, sound.exist b made' (.group d) second, below⟩

/-- Groups of one family have the same content just when they are similar. -/
theorem Closed.sameContent_iff_similar (closed : heap.Closed) (left : g ∈ heap.groups)
    (right : h ∈ heap.groups) (family : g.family = h.family) :
    heap.registry.sameContent g h = true ↔ heap.registry.Similar g h := by
  constructor
  · exact Registry.similar_of_sameContent (closed.apart (Or.inl left)) (closed.apart (Or.inl right)) family
  · rintro ⟨R, bisimulation, related⟩
    exact bisimulation.sameContent related

/-- Groups of one family have the same content just when they hold the same values and their nested groups have
pairwise the same name and the same content. -/
theorem Sound.sameContent_iff (sound : heap.Sound) (left : g ∈ heap.groups) (right : h ∈ heap.groups)
    (family : g.family = h.family) :
    heap.registry.sameContent g h = true ↔
      heap.registry.values g = heap.registry.values h ∧
        List.Forall₂ (fun a b => a.name = b.name ∧ heap.registry.sameContent a b = true)
          (heap.registry.nested g) (heap.registry.nested h) := by
  rw [sound.sameContent_iff_similar left right family, sound.similar_iff_tree_eq left right,
    sound.tree_eq_iff left right]
  refine and_congr_right fun _ => ?_
  have below : ∀ a ∈ heap.registry.nested g, ∀ b ∈ heap.registry.nested h,
      (heap.registry.tree a = heap.registry.tree b ↔ heap.registry.sameContent a b = true) := by
    intro a first b second
    have inner := sound.exist g left (.group a) first
    have inner' := sound.exist h right (.group b) second
    have kin : a.family = b.family :=
      (sound.family g left (.group a) first).trans
        (family.trans (sound.family h right (.group b) second).symm)
    rw [sound.sameContent_iff_similar inner inner' kin, sound.similar_iff_tree_eq inner inner']
  constructor
  · intro related
    exact forall₂_imp_mem related fun a first b second level => ⟨level.1, (below a first b second).mp level.2⟩
  · intro related
    exact forall₂_imp_mem related fun a first b second level => ⟨level.1, (below a first b second).mpr level.2⟩

theorem Closed.sameObject_equivalence (closed : heap.Closed) :
    Equivalence fun x y : {x // heap.Has x} => heap.registry.sameObject x y = true where
  refl x := heap.registry.sameObject_self x
  symm {x y} same := by
    rw [closed.sameObject_iff x.2.knows y.2.knows] at same
    exact (closed.sameObject_iff y.2.knows x.2.knows).mpr same.symm
  trans {x y z} first second := by
    rw [closed.sameObject_iff x.2.knows y.2.knows] at first
    rw [closed.sameObject_iff y.2.knows z.2.knows] at second
    exact (closed.sameObject_iff x.2.knows z.2.knows).mpr (first.trans second)

/-- In every heap that can come about, the groups unfold to trees in one way, two groups of one family have
the same content just when they unfold to the same tree, and so to have the same content is an equivalence
between the groups of a family, and to match is one between all objects. -/
theorem sameContent_iff_tree_eq (reachable : heap.Reachable) :
    (∀ T : Group → Tree, heap.Unfolds T ↔ ∀ g ∈ heap.groups, T g = heap.registry.tree g) ∧
    (∀ g ∈ heap.groups, ∀ h ∈ heap.groups, g.family = h.family →
      (heap.registry.sameContent g h = true ↔ heap.registry.tree g = heap.registry.tree h)) ∧
    (∀ family, Equivalence fun g h : {g // g ∈ heap.groups ∧ g.family = family} =>
      heap.registry.sameContent g h = true) ∧
    Equivalence fun x y : {x // heap.Has x} => heap.registry.sameObject x y = true := by
  have sound := reachable.sound
  have same : ∀ g ∈ heap.groups, ∀ h ∈ heap.groups, g.family = h.family →
      (heap.registry.sameContent g h = true ↔ heap.registry.tree g = heap.registry.tree h) :=
    fun g left h right family =>
      (sound.sameContent_iff_similar left right family).trans (sound.similar_iff_tree_eq left right)
  refine ⟨fun T => ⟨fun unfolds => unfolds.eq_tree sound, fun equal g made => ?_⟩, same,
    fun family => ?_, sound.sameObject_equivalence⟩
  · rw [equal g made, sound.unfolds_tree g made]
    congr 1
    exact List.map_congr_left fun h nests => by rw [equal h (sound.exist g made (.group h) nests)]
  · have level (g h : {g // g ∈ heap.groups ∧ g.family = family}) :=
      same g g.2.1 h h.2.1 (g.2.2.trans h.2.2.symm)
    exact {
      refl := fun g => (level g g).mpr rfl
      symm := fun {g h} first => (level h g).mpr ((level g h).mp first).symm
      trans := fun {g h k} first second =>
        (level g k).mpr (((level g h).mp first).trans ((level h k).mp second)) }

def whole : Group where
  name := "whole"
  comment := "all there is"
  serial := 3
  family := .address

/-- One group of two hosts that is nested in two others. -/
def sharedPair : Heap :=
  (nestedPair.create .address { name := "whole", comment := "all there is" }).add whole (.group servers)

theorem groups_sharedPair : sharedPair.groups = [servers, everything, whole] := by
  simp only [sharedPair, groups_add, create, groups_nestedPair]
  decide +kernel

theorem sharedPair_reachable : sharedPair.Reachable := by
  have groups : (nestedPair.create .address { name := "whole", comment := "all there is" }).groups =
      [servers, everything, whole] := groups_add _ whole (.group servers) ▸ groups_sharedPair
  refine .add (.create nestedPair_reachable .address _) ?_ ?_
  · simp [groups]
  · simp [Has, groups]

/-- The two groups that nest the first one unfold to one tree, under other names, and the first one unfolds to
another. -/
theorem sharedPair_trees :
    sharedPair.Reachable ∧
      sharedPair.registry.tree everything = sharedPair.registry.tree whole ∧
      sharedPair.registry.tree servers ≠ sharedPair.registry.tree everything ∧
      sharedPair.registry.sameContent whole everything = true := by
  have first : servers ∈ sharedPair.groups := by simp [groups_sharedPair]
  have second : everything ∈ sharedPair.groups := by simp [groups_sharedPair]
  have third : whole ∈ sharedPair.groups := by simp [groups_sharedPair]
  have equal : sharedPair.registry.sameContent everything whole = true := by decide +kernel
  have unequal : sharedPair.registry.sameContent servers everything = false := by decide +kernel
  obtain ⟨_, level, equivalence, _⟩ := sameContent_iff_tree_eq sharedPair_reachable
  refine ⟨sharedPair_reachable, (level everything second whole third rfl).mp equal, fun same => ?_, ?_⟩
  · have found := (level servers first everything second rfl).mpr same
    simp [unequal] at found
  · exact (equivalence .address).symm (x := ⟨everything, second, rfl⟩) (y := ⟨whole, third, rfl⟩) equal

end Heap

end Rulebase
