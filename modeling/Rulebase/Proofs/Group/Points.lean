import Rulebase.Proofs.Object.Points

/-!
# Containment of points

An object of a heap stands for the points of the leaves that are held by it or below it. An interval contains an
object just when the object stands for some point and for points of the interval only. A group contains a single
point just when the point lies in one of the group's spans, and whatever else it contains has all its points there.
-/

namespace Rulebase

namespace Registry

variable {registry : Registry} {x : Object}

def Denotes (registry : Registry) : Object → Point → Prop
  | .leaf l, p => l.Denotes p
  | .group g, p => ∃ l, registry.HoldsWithin g (.leaf l) ∧ l.Denotes p

/-- An interval can be asked about any object, and contains it when it covers its leaves, of which there are some. -/
theorem interval_contains_iff (registry : Registry) (x : Object) {m : Leaf} (interval : m.isPoint = false) :
    ∃ answer, registry.contains (.leaf m) x = .ok answer ∧
      (answer = true ↔ registry.leavesOf x ≠ [] ∧ ∀ l ∈ registry.leavesOf x, m.covers l = true) := by
  refine ⟨_, rfl, ?_⟩
  have asked : registry.contains (.leaf m) x = .ok true ↔ _ := contains_iff
  have can : (Object.leaf m).CanContain x := by
    cases x with
    | leaf l => trivial
    | group g => exact interval
  simpa [contains, can, leavesOf] using asked

end Registry

namespace Heap

variable {heap : Heap} {g : Group} {x : Object} {p : Point}

/-- What an object stands for are the points of the leaves it is taken as. -/
theorem Ordered.denotes_iff (ordered : heap.Ordered) (exist : heap.Has x) :
    heap.registry.Denotes x p ↔ ∃ l ∈ heap.registry.leavesOf x, l.Denotes p := by
  cases x with
  | leaf l => simp [Registry.Denotes, Registry.leavesOf]
  | group g => simp only [Registry.Denotes, Registry.leavesOf, ordered.mem_members_iff exist]

/-- An object stands for some point when it is taken as some leaves. -/
theorem Ordered.exists_denotes_iff (ordered : heap.Ordered) (exist : heap.Has x) :
    (∃ p, heap.registry.Denotes x p) ↔ heap.registry.leavesOf x ≠ [] := by
  simp only [ordered.denotes_iff exist]
  constructor
  · rintro ⟨p, l, found, _⟩
    exact List.ne_nil_of_mem found
  · intro some
    obtain ⟨l, found⟩ := List.exists_mem_of_ne_nil _ some
    obtain ⟨p, denotes⟩ := l.exists_denotes
    exact ⟨p, l, found, denotes⟩

/-- An interval contains an object just when all the points of the object, of which there are some, are points of
the interval. -/
theorem Ordered.interval_contains_iff_denotes (ordered : heap.Ordered) (exist : heap.Has x) {m : Leaf}
    (interval : m.isPoint = false) :
    ∃ answer, heap.registry.contains (.leaf m) x = .ok answer ∧
      (answer = true ↔
        (∃ p, heap.registry.Denotes x p) ∧ ∀ p, heap.registry.Denotes x p → m.Denotes p) := by
  obtain ⟨answer, asked, meant⟩ := heap.registry.interval_contains_iff x interval
  refine ⟨answer, asked, meant.trans ?_⟩
  rw [ordered.exists_denotes_iff exist]
  refine and_congr_right fun _ => ?_
  simp only [ordered.denotes_iff exist, Leaf.covers_iff_of_not_isPoint interval]
  constructor
  · rintro all p ⟨l, found, denotes⟩
    exact all l found p denotes
  · exact fun all l found p denotes => all p ⟨l, found, denotes⟩

/-- A group covers a point just when the point lies in one of the group's spans. -/
theorem groupContains_point_iff {registry : Registry} {l : Leaf} (point : l.point? = some p)
    (family : l.family = g.family) :
    ∃ answer, registry.contains (.group g) (.leaf l) = .ok answer ∧
      (answer = true ↔ ∃ span ∈ registry.spans g, span.Has p) := by
  refine ⟨registry.groupCovers g l, if_pos family, ?_⟩
  simp [Registry.groupCovers_eq_true, Registry.spans, Leaf.covers_iff_of_point? point]

/-- What a group contains stands for some points, all of which lie in spans of the group. -/
theorem Ordered.denotes_of_groupContains (ordered : heap.Ordered) (exist : heap.Has x)
    (contains : heap.registry.contains (.group g) x = .ok true) :
    (∃ p, heap.registry.Denotes x p) ∧
      ∀ p, heap.registry.Denotes x p → ∃ span ∈ heap.registry.spans g, span.Has p := by
  obtain ⟨_, some, covered⟩ := Registry.contains_iff.mp contains
  refine ⟨(ordered.exists_denotes_iff exist).mpr some, fun p denotes => ?_⟩
  obtain ⟨l, found, denotes⟩ := (ordered.denotes_iff exist).mp denotes
  obtain ⟨k, own, covers⟩ := covered l found
  exact ⟨k.span, List.mem_map_of_mem own, Leaf.denotes_iff.mp (Leaf.denotes_of_covers covers denotes)⟩

/-- In every heap that can come about, a network, a range or a port range contains an object just when the object
stands for some point and for none that the interval does not have. A group contains a host or a port just when its
point lies in one of the group's spans, and the points of anything that a group contains, of which there are some,
all lie there. -/
theorem contains_iff_points (reachable : heap.Reachable) :
    (∀ m : Leaf, m.isPoint = false → ∀ x, heap.Has x →
      ∃ answer, heap.registry.contains (.leaf m) x = .ok answer ∧
        (answer = true ↔
          (∃ p, heap.registry.Denotes x p) ∧ ∀ p, heap.registry.Denotes x p → m.Denotes p)) ∧
    (∀ g ∈ heap.groups, ∀ l p, Leaf.point? l = some p → l.family = g.family →
      ∃ answer, heap.registry.contains (.group g) (.leaf l) = .ok answer ∧
        (answer = true ↔ ∃ span ∈ heap.registry.spans g, span.Has p)) ∧
    ∀ g ∈ heap.groups, ∀ x, heap.Has x → heap.registry.contains (.group g) x = .ok true →
      (∃ p, heap.registry.Denotes x p) ∧
        ∀ p, heap.registry.Denotes x p → ∃ span ∈ heap.registry.spans g, span.Has p := by
  have ordered := reachable.sound.toOrdered
  refine ⟨fun m interval x exist => ?_, fun g _ l p point family => ?_, fun g _ x exist contains => ?_⟩
  · exact ordered.interval_contains_iff_denotes exist interval
  · exact groupContains_point_iff point family
  · exact ordered.denotes_of_groupContains exist contains

def pair : Leaf :=
  .network {
    name := "pair"
    address := .ofNat 167772162
    mask := .ofNat 4294967294
    isNetmask := by decide
    isBase := by decide }

/-- Of the two hosts below a group a range has both and a network one, so that the range contains the group and the
network does not; the group has spans with the other group's points. -/
theorem nestedPair_points :
    nestedPair.Reachable ∧
      (∀ p, nestedPair.registry.Denotes (.group everything) p → campus.Denotes p) ∧
      ¬ (∀ p, nestedPair.registry.Denotes (.group everything) p → pair.Denotes p) ∧
      (∃ span ∈ nestedPair.registry.spans everything, span.Has (.address (.ofNat 167772162))) ∧
      ∀ p, nestedPair.registry.Denotes (.group servers) p →
        ∃ span ∈ nestedPair.registry.spans everything, span.Has p := by
  have outer : everything ∈ nestedPair.groups := by simp [groups_nestedPair]
  have inner : servers ∈ nestedPair.groups := by simp [groups_nestedPair]
  have inRange : nestedPair.registry.contains (.leaf campus) (.group everything) = .ok true := by decide +kernel
  have inNetwork : nestedPair.registry.contains (.leaf pair) (.group everything) = .ok false := by decide +kernel
  have ofHost : nestedPair.registry.contains (.group everything) (.leaf mail) = .ok true := by decide +kernel
  have ofGroup : nestedPair.registry.contains (.group everything) (.group servers) = .ok true := by decide +kernel
  obtain ⟨interval, single, whole⟩ := contains_iff_points nestedPair_reachable
  obtain ⟨_, asked, meant⟩ := interval campus rfl (.group everything) outer
  obtain ⟨some, all⟩ := meant.mp (Except.ok.inj (asked.symm.trans inRange))
  obtain ⟨_, asked, refused⟩ := interval pair rfl (.group everything) outer
  obtain ⟨_, covered, found⟩ := single everything outer mail _ rfl rfl
  refine ⟨nestedPair_reachable, all, fun within => ?_, ?_, ?_⟩
  · cases (Except.ok.inj (asked.symm.trans inNetwork)).symm.trans (refused.mpr ⟨some, within⟩)
  · exact found.mp (Except.ok.inj (covered.symm.trans ofHost))
  · exact (whole everything outer (.group servers) inner ofGroup).2

end Heap

end Rulebase
