import Rulebase.Proofs.Group.Parallel
import Rulebase.Proofs.Group.Series

/-!
# Filling groups in another order

Some groups that hold nothing are filled, one after another, with leaves and with groups from among themselves. When
this succeeds in one order, it succeeds in any other and leads to a parallel registry, unless a group is refused an
object that a group nested in it already has a match of. Whether it has one may depend on the order, since a group has
whatever the groups nested in it were given so far.
-/

namespace Rulebase

/-- Groups, and the objects that each is to be given. -/
abbrev Plan := List (Group × List Object)

def additions (plan : Plan) : List (Group × Object) :=
  plan.flatMap fun entry => entry.2.map fun x => (entry.1, x)

/-- Groups of one name in two plans. -/
def Namesakes (plan plan' : Plan) (g g' : Group) : Prop :=
  g ∈ plan.map Prod.fst ∧ g' ∈ plan'.map Prod.fst ∧ g.name = g'.name

/-- Groups of one name in two plans, or one group that is in neither. -/
def Along (plan plan' : Plan) (g g' : Group) : Prop :=
  Namesakes plan plan' g g' ∨ g = g' ∧ g.serial ∉ plan.map (·.1.serial)

/-- Entries of one name, with objects that are related one by one. -/
def Alike (plan plan' : Plan) (entry entry' : Group × List Object) : Prop :=
  entry.1.name = entry'.1.name ∧ List.Forall₂ (Registry.Related (Namesakes plan plan')) entry.2 entry'.2

theorem Alike.namesakes {plan plan' : Plan} {entry entry' : Group × List Object}
    (alike : Alike plan plan' entry entry') (listed : entry ∈ plan) (listed' : entry' ∈ plan') :
    Namesakes plan plan' entry.1 entry'.1 :=
  ⟨List.mem_map_of_mem listed, List.mem_map_of_mem listed', alike.1⟩

section Plans

variable {plan : Plan} {entry : Group × List Object} {g : Group} {x : Object}

theorem mem_additions : (g, x) ∈ additions plan ↔ ∃ entry ∈ plan, entry.1 = g ∧ x ∈ entry.2 := by
  simp only [additions, List.mem_flatMap, List.mem_map, Prod.mk.injEq]
  constructor
  · rintro ⟨entry, listed, y, member, same, rfl⟩
    exact ⟨entry, listed, same, member⟩
  · rintro ⟨entry, listed, same, member⟩
    exact ⟨entry, listed, x, member, same, rfl⟩

theorem leavesAmong_eq_of_related {R : Group → Group → Prop} {xs xs' : List Object} {kind : Kind}
    (related : List.Forall₂ (Registry.Related R) xs xs') : leavesAmong kind xs = leavesAmong kind xs' := by
  have same : xs.filterMap Object.leaf? = xs'.filterMap Object.leaf? := by
    induction related with
    | nil => rfl
    | cons head _ ih =>
      cases head with
      | leaf x => exact congrArg (x :: ·) ih
      | group level => exact ih
  rw [leavesAmong, leavesAmong, same]

theorem groupsAmong_of_related {R : Group → Group → Prop} {xs xs' : List Object}
    (related : List.Forall₂ (Registry.Related R) xs xs') : List.Forall₂ R (groupsAmong xs) (groupsAmong xs') := by
  induction related with
  | nil => exact .nil
  | cons head _ ih =>
    cases head with
    | leaf x => exact ih
    | group level => exact .cons level ih

/-- Each group is given what its entry says, where no two entries are of one group. -/
theorem givenTo_additions (once : (plan.map (·.1.serial)).Nodup) (listed : entry ∈ plan) :
    givenTo entry.1 (additions plan) = entry.2 := by
  have here (k : Group) (xs : List Object) (same : k.serial = entry.1.serial) :
      givenTo entry.1 (xs.map fun x => (k, x)) = xs := by
    simp [givenTo, List.filter_map, Function.comp_def, same]
  have apart (k : Group) (xs : List Object) (other : k.serial ≠ entry.1.serial) :
      givenTo entry.1 (xs.map fun x => (k, x)) = [] := by
    simp [givenTo, List.filter_map, Function.comp_def, other]
  have split (front back : List (Group × Object)) :
      givenTo entry.1 (front ++ back) = givenTo entry.1 front ++ givenTo entry.1 back := by
    simp [givenTo]
  induction plan with
  | nil => cases listed
  | cons first rest ih =>
    obtain ⟨absent, later⟩ := List.nodup_cons.mp once
    rw [additions, List.flatMap_cons, ← additions, split]
    rcases List.mem_cons.mp listed with rfl | among
    · have none_later : givenTo entry.1 (additions rest) = [] := by
        rw [List.eq_nil_iff_forall_not_mem]
        intro x given
        obtain ⟨k, added, same⟩ := mem_givenTo.mp given
        obtain ⟨other, found, rfl, _⟩ := mem_additions.mp added
        exact absent (List.mem_map.mpr ⟨other, found, same⟩)
      rw [here _ _ rfl, none_later, List.append_nil]
    · have other : first.1.serial ≠ entry.1.serial := fun same =>
        absent (List.mem_map.mpr ⟨entry, among, same.symm⟩)
      rw [apart _ _ other, List.nil_append, ih later among]

/-- A group outside a plan is left alone when the plan is carried out. -/
theorem content_of_additions {registry after : Registry} (filled : registry.addAll (additions plan) = .ok after)
    (outside : g.serial ∉ plan.map (·.1.serial)) : after.content g = registry.content g := by
  refine Registry.content_addAll filled ?_
  rintro ⟨k, x⟩ added same
  obtain ⟨entry, listed, rfl, _⟩ := mem_additions.mp added
  exact outside (same ▸ List.mem_map_of_mem listed)

end Plans

/-- A group directly holds an object, and some group nested in it, to whatever depth, holds it as well, or a leaf of
the same value. -/
def Registry.Overlaps (registry : Registry) (g : Group) (x : Object) : Prop :=
  registry.Holds g x ∧ ∃ k m, Relation.TransGen registry.Nests g k ∧ registry.Holds k m ∧ m.Clashes x

namespace Heap

/-- A plan for groups of one family that hold nothing and that nothing nests, of different names: they are to be given
leaves and groups from among themselves. -/
structure Plans (heap : Heap) (family : Family) (plan : Plan) : Prop where
  made : ∀ entry ∈ plan, entry.1 ∈ heap.groups
  kin : ∀ entry ∈ plan, entry.1.family = family
  empty : ∀ entry ∈ plan, heap.registry.content entry.1 = .empty
  closed : ∀ entry ∈ plan, ∀ g, .group g ∈ entry.2 → g ∈ plan.map Prod.fst
  apart : (plan.map (·.1.name)).Nodup
  fresh : ∀ g, ∀ k ∈ heap.registry.nested g, ∀ entry ∈ plan, k.serial ≠ entry.1.serial

namespace Plans

variable {heap : Heap} {family : Family} {plan : Plan} {g h : Group} {x : Object} {after : Registry}
  {adds : List (Group × Object)}

theorem mem_groups (plans : heap.Plans family plan) (listed : g ∈ plan.map Prod.fst) : g ∈ heap.groups := by
  obtain ⟨entry, found, rfl⟩ := List.mem_map.mp listed
  exact plans.made entry found

theorem family_eq (plans : heap.Plans family plan) (listed : g ∈ plan.map Prod.fst) : g.family = family := by
  obtain ⟨entry, found, rfl⟩ := List.mem_map.mp listed
  exact plans.kin entry found

theorem eq_of_name (plans : heap.Plans family plan) (left : g ∈ plan.map Prod.fst) (right : h ∈ plan.map Prod.fst)
    (same : g.name = h.name) : g = h := by
  have apart : ((plan.map Prod.fst).map fun g : Group => g.name).Nodup := by
    rw [List.map_map]
    exact plans.apart
  exact List.inj_on_of_nodup_map apart left right same

theorem once (plans : heap.Plans family plan) (closed : heap.Closed) : (plan.map (·.1.serial)).Nodup := by
  refine List.pairwise_map.mpr ((List.pairwise_map.mp plans.apart).imp_of_mem fun {e f} left right other same => ?_)
  exact other (congrArg (·.name) (closed.eq_of_serial (plans.made e left) (plans.made f right) same))

/-- Carrying out some of the plan leads to a heap that can come about. -/
theorem reachable (plans : heap.Plans family plan) (reachable : heap.Reachable)
    (part : ∀ pair ∈ adds, pair ∈ additions plan) (filled : heap.registry.addAll adds = .ok after) :
    Reachable { heap with registry := after } := by
  refine reachable.addAll (fun pair added => ?_) (fun pair added => ?_) filled
  · obtain ⟨entry, listed, same, _⟩ := mem_additions.mp (part pair added)
    exact same ▸ plans.made entry listed
  · obtain ⟨k, x⟩ := pair
    obtain ⟨entry, listed, _, member⟩ := mem_additions.mp (part _ added)
    cases x with
    | leaf y => trivial
    | group h => exact plans.mem_groups (plans.closed entry listed h member)

/-- What a group of the plan holds after some additions is what it was given. -/
theorem lists (plans : heap.Plans family plan) (closed : heap.Closed) (listed : g ∈ plan.map Prod.fst)
    (filled : heap.registry.addAll adds = .ok after) : after.Lists g (givenTo g adds) := by
  obtain ⟨entry, found, rfl⟩ := List.mem_map.mp listed
  exact (Registry.Lists.nil (plans.empty entry found)).addAll (closed.registered (plans.made entry found)) filled

/-- A group that was filled according to plan holds what its entry says. -/
theorem lists_entry (plans : heap.Plans family plan) (closed : heap.Closed) {entry : Group × List Object}
    (listed : entry ∈ plan) (filled : heap.registry.addAll (additions plan) = .ok after) :
    after.Lists entry.1 entry.2 := by
  have lists := plans.lists closed (List.mem_map_of_mem listed) filled
  rwa [givenTo_additions (plans.once closed) listed] at lists

end Plans

/-- Two plans for the same family, in heaps that differ in their new groups at most, each with an entry alike for every
entry of the other. -/
structure Replans (family : Family) (heap heap' : Heap) (plan plan' : Plan) : Prop where
  first : heap.Plans family plan
  second : heap'.Plans family plan'
  reachable : heap.Reachable
  reachable' : heap'.Reachable
  registry : heap'.registry = heap.registry
  serials : ∀ n, n ∈ plan.map (·.1.serial) ↔ n ∈ plan'.map (·.1.serial)
  forth : ∀ entry ∈ plan, ∃ entry' ∈ plan', Alike plan plan' entry entry'
  back : ∀ entry' ∈ plan', ∃ entry ∈ plan, Alike plan plan' entry entry'

namespace Replans

variable {family : Family} {heap heap' : Heap} {plan plan' : Plan} {g g' h h' k' : Group} {x' : Object}
  {after after' middle : Registry} {front back : List (Group × Object)}

/-- A group has one namesake. -/
theorem eq_of_namesakes (replans : Replans family heap heap' plan plan') (left : Namesakes plan plan' g g')
    (right : Namesakes plan plan' h g') : g = h :=
  replans.first.eq_of_name left.1 right.1 (left.2.2.trans right.2.2.symm)

/-- Objects of the plans clash when the objects related to them do. -/
theorem clashes_iff (replans : Replans family heap heap' plan plan') {m x m' x' : Object}
    (left : Registry.Related (Namesakes plan plan') m m') (right : Registry.Related (Namesakes plan plan') x x') :
    m.Clashes x ↔ m'.Clashes x' := by
  cases left with
  | leaf y =>
    cases right with
    | leaf z => exact Iff.rfl
    | group below => exact Iff.rfl
  | group level =>
    cases right with
    | leaf z => exact Iff.rfl
    | group below =>
      constructor
      · rintro rfl
        exact replans.second.eq_of_name level.2.1 below.2.1 (level.2.2.symm.trans below.2.2)
      · rintro rfl
        exact replans.eq_of_namesakes level below

/-- Objects of a plan match only when they clash: its groups differ by name. -/
theorem clashes_of_sameObject (replans : Replans family heap heap' plan plan') {m x m' x' : Object}
    (left : Registry.Related (Namesakes plan plan') m m') (right : Registry.Related (Namesakes plan plan') x x')
    (same : middle.sameObject m' x' = true) : m'.Clashes x' := by
  cases left with
  | leaf y =>
    cases right with
    | leaf z => exact same
    | group below => cases same
  | group level =>
    cases right with
    | leaf z => cases same
    | group below => exact replans.second.eq_of_name level.2.1 below.2.1 (Registry.name_eq_of_sameGroup same)

section Part

variable (replans : Replans family heap heap' plan plan')
  (filled : heap.registry.addAll (additions plan) = .ok after)
  (part : ∀ pair ∈ front, pair ∈ additions plan') (taken : heap'.registry.addAll front = .ok middle)

include replans filled

/-- What a group is to be given in one plan, its namesake holds when the other plan was carried out. -/
theorem exists_holds_of_addition (added : (g', x') ∈ additions plan') :
    ∃ g x, Namesakes plan plan' g g' ∧ Registry.Related (Namesakes plan plan') x x' ∧ after.Holds g x := by
  obtain ⟨entry', listed', rfl, member'⟩ := mem_additions.mp added
  obtain ⟨entry, listed, alike⟩ := replans.back entry' listed'
  obtain ⟨x, member, related⟩ := exists_of_forall₂ alike.2 member'
  refine ⟨entry.1, x, alike.namesakes listed listed', related, ?_⟩
  exact (replans.first.lists_entry replans.reachable.sound.toClosed listed filled).holds_iff.mpr member

include part taken

/-- What a group holds halfway through one plan, its namesake holds when the other plan was carried out. -/
theorem exists_holds (listed : g' ∈ plan'.map Prod.fst) (held : middle.Holds g' x') :
    ∃ g x, Namesakes plan plan' g g' ∧ Registry.Related (Namesakes plan plan') x x' ∧ after.Holds g x := by
  have closed := replans.reachable'.sound.toClosed
  obtain ⟨k', added, same⟩ := mem_givenTo.mp ((replans.second.lists closed listed taken).holds_iff.mp held)
  have planned := part _ added
  obtain ⟨entry', found, rfl, _⟩ := mem_additions.mp planned
  have here := closed.eq_of_serial (replans.second.made entry' found) (replans.second.mem_groups listed) same
  exact replans.exists_holds_of_addition filled (here ▸ planned)

/-- What a group reaches halfway through one plan, its namesake reaches when the other plan was carried out. -/
theorem exists_reaches (level : Namesakes plan plan' g g') (reaches : middle.Reaches g' k') :
    ∃ k, Namesakes plan plan' k k' ∧ after.Reaches g k := by
  induction reaches with
  | refl => exact ⟨g, level, .refl⟩
  | @tail k' l' _ nests ih =>
    obtain ⟨k, same, reached⟩ := ih
    have held : middle.Holds k' (.group l') := nests
    obtain ⟨a, x, namesakes, related, held⟩ := replans.exists_holds filled part taken same.2.1 held
    obtain rfl := replans.eq_of_namesakes namesakes same
    cases related with
    | group level => exact ⟨_, level, reached.tail held⟩

/-- No group comes to be nested in itself halfway through a plan, when the other plan could be carried out. -/
theorem not_within (added : (g', x') ∈ additions plan') : middle.isWithin g' x' = false := by
  have sound := replans.first.reachable replans.reachable (fun _ planned => planned) filled |>.sound
  obtain ⟨g, x, level, related, held⟩ := replans.exists_holds_of_addition filled added
  cases related with
  | leaf y => rfl
  | @group h h' below =>
    rw [Bool.eq_false_iff]
    intro within
    obtain ⟨k', met, same⟩ := List.any_eq_true.mp within
    obtain ⟨k, namesakes, reaches⟩ := replans.exists_reaches filled part taken below
      (Order.Graph.reaches_of_mem_reach met)
    -- a serial number belongs to one group of the plan, and so does a name
    have closed := replans.reachable'.sound.toClosed
    obtain rfl := closed.eq_of_serial (replans.second.mem_groups namesakes.2.1) (replans.second.mem_groups level.2.1)
      (beq_iff_eq.mp same)
    obtain rfl := replans.eq_of_namesakes namesakes level
    exact sound.acyclic k (replans.first.mem_groups level.1) (.head' held reaches)

end Part

theorem serial_eq_iff (replans : Replans family heap heap' plan plan') (left : Along plan plan' g g')
    (right : Along plan plan' h h') : g.serial = h.serial ↔ g'.serial = h'.serial := by
  have planned {k k' : Group} (level : Namesakes plan plan' k k') :
      k.serial ∈ plan.map (·.1.serial) ∧ k'.serial ∈ plan.map (·.1.serial) := by
    obtain ⟨entry, listed, rfl⟩ := List.mem_map.mp level.1
    obtain ⟨entry', listed', rfl⟩ := List.mem_map.mp level.2.1
    exact ⟨List.mem_map_of_mem listed, (replans.serials _).mpr (List.mem_map_of_mem listed')⟩
  rcases left with level | ⟨rfl, outside⟩
  · rcases right with below | ⟨rfl, outside⟩
    · have left := (replans.reachable.sound.eq_of_serial (replans.first.mem_groups level.1)
        (replans.first.mem_groups below.1))
      have right := (replans.reachable'.sound.eq_of_serial (replans.second.mem_groups level.2.1)
        (replans.second.mem_groups below.2.1))
      constructor
      · intro same
        obtain rfl := left same
        exact congrArg _ (replans.second.eq_of_name level.2.1 below.2.1 (level.2.2.symm.trans below.2.2))
      · intro same
        obtain rfl := right same
        exact congrArg _ (replans.eq_of_namesakes level below)
    · exact iff_of_false (fun same => outside (same ▸ (planned level).1)) fun same =>
        outside (same ▸ (planned level).2)
  · rcases right with below | ⟨rfl, _⟩
    · exact iff_of_false (fun same => outside (same ▸ (planned below).1)) fun same =>
        outside (same ▸ (planned below).2)
    · exact Iff.rfl

section Result

variable (replans : Replans family heap heap' plan plan')
  (filled : heap.registry.addAll (additions plan) = .ok after)
  (filled' : heap'.registry.addAll (additions plan') = .ok after')

include replans filled filled'

/-- Namesakes list what their entries say. -/
theorem exists_lists (level : Namesakes plan plan' g g') :
    ∃ xs xs', after.Lists g xs ∧ after'.Lists g' xs' ∧
      List.Forall₂ (Registry.Related (Namesakes plan plan')) xs xs' := by
  obtain ⟨entry, listed, rfl⟩ := List.mem_map.mp level.1
  obtain ⟨entry', listed', alike⟩ := replans.forth entry listed
  obtain rfl := replans.second.eq_of_name (List.mem_map_of_mem listed') level.2.1 (alike.1.symm.trans level.2.2)
  exact ⟨entry.2, entry'.2, replans.first.lists_entry replans.reachable.sound.toClosed listed filled,
    replans.second.lists_entry replans.reachable'.sound.toClosed listed' filled', alike.2⟩

theorem content_eq (outside : g.serial ∉ plan.map (·.1.serial)) : after.content g = after'.content g := by
  rw [content_of_additions filled outside,
    content_of_additions filled' fun inside => outside ((replans.serials _).mpr inside), replans.registry]

theorem leaves_eq (level : Along plan plan' g g') : (after.content g).leaves = (after'.content g').leaves := by
  rcases level with level | ⟨rfl, outside⟩
  · obtain ⟨xs, xs', lists, lists', related⟩ := replans.exists_lists filled filled' level
    funext kind
    refine (lists.leaves kind).unique ?_
    rw [leavesAmong_eq_of_related related]
    exact lists'.leaves kind
  · rw [replans.content_eq filled filled' outside]

theorem nested_related (level : Along plan plan' g g') :
    List.Forall₂ (Along plan plan') (after.nested g) (after'.nested g') := by
  rcases level with level | ⟨rfl, outside⟩
  · obtain ⟨xs, xs', lists, lists', related⟩ := replans.exists_lists filled filled' level
    have sorted := (Order.forall₂_iff_filter (R := Namesakes plan plan') lists.groups.ascending
      lists'.groups.ascending).mpr fun name => by
        rw [lists.groups.stable, lists'.groups.stable]
        exact List.rel_filter (fun {a b} same => by simp [same.2.2]) (groupsAmong_of_related related)
    exact sorted.imp fun _ _ same => Or.inl same.2
  · -- a group that was there before nests none of the new ones
    rw [Registry.nested, Registry.nested, ← replans.content_eq filled filled' outside,
      content_of_additions filled outside]
    refine List.forall₂_same.mpr fun k nested => Or.inr ⟨rfl, fun inside => ?_⟩
    obtain ⟨entry, listed, same⟩ := List.mem_map.mp inside
    exact replans.first.fresh g k nested entry listed same.symm

/-- What two plans lead to is parallel. -/
theorem parallel : Registry.Parallel (Along plan plan') after after' := by
  have size : after.size = heap.registry.size := Registry.size_addAll filled
  have size' : after'.size = heap.registry.size := (Registry.size_addAll filled').trans (by rw [replans.registry])
  constructor
  case size => exact size'.trans size.symm
  case name =>
    rintro g g' (level | ⟨rfl, _⟩)
    · exact level.2.2
    · rfl
  case family =>
    rintro g g' (level | ⟨rfl, _⟩)
    · exact (replans.first.family_eq level.1).trans (replans.second.family_eq level.2.1).symm
    · rfl
  case serial => exact replans.serial_eq_iff
  case registered =>
    intro g g' level
    rw [Registry.serials, Registry.serials, size, size']
    rcases level with level | ⟨rfl, _⟩
    · have left := replans.reachable.sound.registered (replans.first.mem_groups level.1)
      have right := replans.reachable'.sound.registered (replans.second.mem_groups level.2.1)
      rw [replans.registry] at right
      exact iff_of_true left right
    · exact Iff.rfl
  case leaves => exact replans.leaves_eq filled filled'
  case nested => exact replans.nested_related filled filled'

end Result

section Refusal

variable (replans : Replans family heap heap' plan plan')
  (filled : heap.registry.addAll (additions plan) = .ok after)

include replans filled

theorem family_of_addition (added : (g', x') ∈ additions plan') : x'.family = g'.family := by
  have sound := (replans.first.reachable replans.reachable (fun _ planned => planned) filled).sound
  obtain ⟨g, x, level, related, held⟩ := replans.exists_holds_of_addition filled added
  have known := sound.family g (replans.first.mem_groups level.1) x held
  rw [replans.second.family_eq level.2.1, ← replans.first.family_eq level.1, ← known]
  cases related with
  | leaf y => rfl
  | group below => exact (replans.second.family_eq below.2.1).trans (replans.first.family_eq below.1).symm

/-- No two objects that a group is to be given are leaves of one value or one group. -/
theorem pairwise_of_entry {entry' : Group × List Object} (listed : entry' ∈ plan') :
    entry'.2.Pairwise fun m x => ¬ m.Clashes x := by
  have sound := (replans.first.reachable replans.reachable (fun _ planned => planned) filled).sound
  obtain ⟨entry, found, alike⟩ := replans.back entry' listed
  have lists := replans.first.lists_entry replans.reachable.sound.toClosed found filled
  refine pairwise_of_forall₂ alike.2 (sound.pairwise_of_lists (replans.first.made entry found) lists) ?_
  exact fun m x m' x' left right => mt (replans.clashes_iff left right).mpr

/-- What a group was given so far does not clash with what it is to be given next. -/
theorem not_clashes_of_holds {m' : Object} (split : additions plan' = front ++ (g', x') :: back)
    (taken : heap'.registry.addAll front = .ok middle) (held : middle.Holds g' m') : ¬ m'.Clashes x' := by
  have closed := replans.reachable'.sound.toClosed
  obtain ⟨entry', listed, rfl, _⟩ := mem_additions.mp (split ▸ List.mem_append_right front List.mem_cons_self)
  have given := givenTo_additions (replans.second.once closed) listed
  rw [split, givenTo, List.filter_append, List.filter_cons_of_pos (by simp), List.map_append, List.map_cons]
    at given
  have apart := replans.pairwise_of_entry filled listed
  rw [← given] at apart
  have early : m' ∈ givenTo entry'.1 front :=
    (replans.second.lists closed (List.mem_map_of_mem listed) taken).holds_iff.mp held
  exact (List.pairwise_append.mp apart).2.2 m' early x' List.mem_cons_self

/-- When a group has what it is to be given, a group nested in its namesake holds a match of it, too, after the other
plan was carried out. -/
theorem overlaps (split : additions plan' = front ++ (g', x') :: back)
    (taken : heap'.registry.addAll front = .ok middle) (found : middle.hasObject g' x' = .ok true) :
    ∃ g x, Namesakes plan plan' g g' ∧ Registry.Related (Namesakes plan plan') x x' ∧ after.Overlaps g x := by
  have part : ∀ pair ∈ front, pair ∈ additions plan' := fun pair early =>
    split ▸ List.mem_append_left _ early
  have added : (g', x') ∈ additions plan' := split ▸ List.mem_append_right _ List.mem_cons_self
  obtain ⟨g, x, level, related, held⟩ := replans.exists_holds_of_addition filled added
  have sound := (replans.second.reachable replans.reachable' part taken).sound
  obtain ⟨k', reaches, m', holds, same⟩ := (sound.hasObject_iff (replans.second.mem_groups level.2.1)
    (replans.family_of_addition filled added)).mp found
  obtain ⟨k, kin, reached⟩ := replans.exists_reaches filled part taken level reaches
  obtain ⟨k₁, m, kin', related', holds'⟩ := replans.exists_holds filled part taken kin.2.1 holds
  obtain rfl := replans.eq_of_namesakes kin' kin
  have clash := replans.clashes_of_sameObject related' related same
  refine ⟨g, x, level, related, held, k₁, m, ?_, holds', (replans.clashes_iff related' related).mpr clash⟩
  rcases Relation.reflTransGen_iff_eq_or_transGen.mp reached with rfl | below
  · -- the group itself cannot have it, since what it is to be given does not clash
    obtain rfl := replans.second.eq_of_name level.2.1 kin.2.1 (level.2.2.symm.trans kin.2.2)
    exact absurd clash (replans.not_clashes_of_holds filled split taken holds)
  · exact below

/-- A refusal is that of a duplicate, which the other plan shows to overlap. -/
theorem duplicate_of_refuses {cause : MembershipError}
    (refuses : heap'.registry.Refuses (additions plan') g' x' cause) :
    cause = .duplicate g' x' ∧ ∃ g x, Namesakes plan plan' g g' ∧
      Registry.Related (Namesakes plan plan') x x' ∧ after.Overlaps g x := by
  obtain ⟨front, back, middle, split, taken, failed⟩ := refuses
  have part : ∀ pair ∈ front, pair ∈ additions plan' := fun pair early =>
    split ▸ List.mem_append_left _ early
  have added : (g', x') ∈ additions plan' := split ▸ List.mem_append_right _ List.mem_cons_self
  rcases middle.add_cases g' x' with ⟨other, _⟩ | ⟨_, found, duplicate⟩ | ⟨_, _, _, _, within, _⟩ | ⟨_, _, _, done⟩
  · exact absurd (replans.family_of_addition filled added) other
  · rw [duplicate] at failed
    cases failed
    exact ⟨rfl, replans.overlaps filled split taken found⟩
  · rw [replans.not_within filled part taken added] at within
    cases within
  · rw [done] at failed
    cases failed

end Refusal

end Replans

end Heap

end Rulebase
