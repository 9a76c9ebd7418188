import Mathlib.Data.List.Permutation
import Rulebase.Proofs.Group.Growth
import Rulebase.Proofs.Group.Unfolding
import Rulebase.Proofs.Order.Stable

/-!
# Series of additions

Objects added to groups one after another end up in an order of their own: each list of leaves depends on nothing but
which leaves the group was given, while nested groups of one name stay in the order in which they came. So two groups
that were given the same objects in different orders have the same content just when, for each name, the nested groups
of the name have pairwise the same content; where no two of them share a name, they do.
-/

namespace Rulebase

namespace Object

def leaf? : Object → Option Leaf
  | leaf x => some x
  | group _ => none

def group? : Object → Option Group
  | leaf _ => none
  | group g => some g

/-- Two objects are leaves of one value or one group. -/
def Clashes : Object → Object → Prop
  | leaf x, leaf y => x.same y = true
  | group g, group h => g = h
  | _, _ => False

end Object

def leavesAmong (kind : Kind) (xs : List Object) : List Leaf :=
  (xs.filterMap Object.leaf?).filter (·.kind = kind)

def groupsAmong (xs : List Object) : List Group :=
  xs.filterMap Object.group?

def groupsNamed (name : String) (xs : List Object) : List Group :=
  (groupsAmong xs).filter (·.name = name)

/-- The objects that a group is given in a series of additions. -/
def givenTo (g : Group) (adds : List (Group × Object)) : List Object :=
  (adds.filter (·.1.serial = g.serial)).map Prod.snd

theorem mem_givenTo {g : Group} {adds : List (Group × Object)} {x : Object} :
    x ∈ givenTo g adds ↔ ∃ k, (k, x) ∈ adds ∧ k.serial = g.serial := by
  simp [givenTo]

section Sorts

variable {kind : Kind} {xs ys : List Object}

theorem mem_leavesAmong {x : Leaf} : x ∈ leavesAmong kind xs ↔ .leaf x ∈ xs ∧ x.kind = kind := by
  have found : x ∈ xs.filterMap Object.leaf? ↔ .leaf x ∈ xs := by
    rw [List.mem_filterMap]
    constructor
    · rintro ⟨y, listed, same⟩
      cases y <;> cases same
      exact listed
    · exact fun listed => ⟨.leaf x, listed, rfl⟩
  simp [leavesAmong, found]

theorem mem_groupsAmong {g : Group} : g ∈ groupsAmong xs ↔ .group g ∈ xs := by
  rw [groupsAmong, List.mem_filterMap]
  constructor
  · rintro ⟨y, listed, same⟩
    cases y <;> cases same
    exact listed
  · exact fun listed => ⟨.group g, listed, rfl⟩

@[simp] theorem leavesAmong_append : leavesAmong kind (xs ++ ys) = leavesAmong kind xs ++ leavesAmong kind ys := by
  simp [leavesAmong]

@[simp] theorem groupsAmong_append : groupsAmong (xs ++ ys) = groupsAmong xs ++ groupsAmong ys := by
  simp [groupsAmong]

theorem leavesAmong_leaf (x : Leaf) : leavesAmong kind [.leaf x] = if x.kind = kind then [x] else [] := by
  by_cases same : x.kind = kind <;> simp [leavesAmong, Object.leaf?, same]

@[simp] theorem leavesAmong_group (g : Group) : leavesAmong kind [.group g] = [] := rfl

@[simp] theorem groupsAmong_leaf (x : Leaf) : groupsAmong [.leaf x] = [] := rfl

@[simp] theorem groupsAmong_group (g : Group) : groupsAmong [.group g] = [g] := rfl

theorem leavesAmong_perm (perm : xs.Perm ys) : (leavesAmong kind xs).Perm (leavesAmong kind ys) :=
  (perm.filterMap _).filter _

theorem groupsAmong_perm (perm : xs.Perm ys) : (groupsAmong xs).Perm (groupsAmong ys) :=
  perm.filterMap _

/-- Where no two groups share a name, it makes no difference in which order they stand. -/
theorem groupsNamed_eq_of_perm (perm : xs.Perm ys) (distinct : ((groupsAmong xs).map (·.name)).Nodup)
    (name : String) : groupsNamed name xs = groupsNamed name ys := by
  have different {zs : List Object} (distinct : ((groupsAmong zs).map (·.name)).Nodup) :
      (groupsNamed name zs).Pairwise fun g h => g.name ≠ h.name :=
    (List.pairwise_map.mp distinct).filter _
  have named {g : Group} {zs : List Object} (found : g ∈ groupsNamed name zs) : g.name = name :=
    of_decide_eq_true (List.mem_filter.mp found).2
  refine List.Perm.eq_of_pairwise (fun g h left right other _ => ?_) (different distinct)
    (different (((groupsAmong_perm perm).map _).nodup_iff.mp distinct)) ((groupsAmong_perm perm).filter _)
  exact absurd ((named left).trans (named right).symm) other

end Sorts

namespace Registry

variable {registry after : Registry} {g k : Group} {x : Object} {xs : List Object} {adds : List (Group × Object)}

/-- The registry with objects added to groups one after another, or the first refusal. -/
def addAll (registry : Registry) : List (Group × Object) → Except MembershipError Registry
  | [] => .ok registry
  | (g, x) :: rest => do (← registry.add g x).addAll rest

theorem addAll_cons_eq_ok :
    registry.addAll ((g, x) :: adds) = .ok after ↔
      ∃ between, registry.add g x = .ok between ∧ between.addAll adds = .ok after := by
  rw [addAll]
  cases registry.add g x <;> simp [bind, Except.bind]

theorem addAll_append {front back : List (Group × Object)} :
    registry.addAll (front ++ back) = (do (← registry.addAll front).addAll back) := by
  induction front generalizing registry with
  | nil => rfl
  | cons pair front ih =>
    rw [List.cons_append, addAll, addAll]
    cases registry.add pair.1 pair.2 with
    | error cause => rfl
    | ok between => exact ih

theorem addAll_singleton : registry.addAll [(g, x)] = registry.add g x := by
  rw [addAll]
  cases registry.add g x <;> rfl

/-- Of a series of additions, those up to an object are taken, and then its group refuses it. -/
def Refuses (registry : Registry) (adds : List (Group × Object)) (g : Group) (x : Object) (cause : MembershipError) :
    Prop :=
  ∃ front back between, adds = front ++ (g, x) :: back ∧ registry.addAll front = .ok between ∧
    between.add g x = .error cause

section Refusal

variable {front back : List (Group × Object)} {cause : MembershipError}

theorem refuses_singleton (refused : registry.add g x = .error cause) : registry.Refuses [(g, x)] g x cause :=
  ⟨[], [], registry, rfl, rfl, refused⟩

theorem Refuses.append_right (refuses : registry.Refuses front g x cause) (back : List (Group × Object)) :
    registry.Refuses (front ++ back) g x cause := by
  obtain ⟨first, last, between, rfl, taken, refused⟩ := refuses
  exact ⟨first, last ++ back, between, by simp, taken, refused⟩

theorem Refuses.append_left (taken : registry.addAll front = .ok after) (refuses : after.Refuses back g x cause) :
    registry.Refuses (front ++ back) g x cause := by
  obtain ⟨first, last, between, rfl, more, refused⟩ := refuses
  refine ⟨front ++ first, last, between, by simp, ?_, refused⟩
  rw [addAll_append, taken]
  exact more

end Refusal

theorem size_addAll (filled : registry.addAll adds = .ok after) : after.size = registry.size := by
  induction adds generalizing registry with
  | nil =>
    cases filled
    rfl
  | cons pair adds ih =>
    obtain ⟨between, taken, filled⟩ := addAll_cons_eq_ok.mp filled
    obtain ⟨_, _, _, rfl⟩ := add_eq_ok.mp taken
    rw [ih filled, size_insert]

theorem content_addAll (filled : registry.addAll adds = .ok after)
    (apart : ∀ pair ∈ adds, pair.1.serial ≠ g.serial) : after.content g = registry.content g := by
  induction adds generalizing registry with
  | nil =>
    cases filled
    rfl
  | cons pair adds ih =>
    obtain ⟨here, later⟩ := List.forall_mem_cons.mp apart
    obtain ⟨between, taken, filled⟩ := addAll_cons_eq_ok.mp filled
    obtain ⟨_, _, _, rfl⟩ := add_eq_ok.mp taken
    rw [ih filled later, content_insert_of_ne here.symm]

/-- A group holds some objects, each list in the order of its keys, and those of one key as they came. -/
structure Lists (registry : Registry) (g : Group) (xs : List Object) : Prop where
  leaves : ∀ kind, Order.SortsStably Span.before Leaf.span (leavesAmong kind xs) ((registry.content g).leaves kind)
  groups : Order.SortsStably nameBefore (·.name) (groupsAmong xs) (registry.nested g)

namespace Lists

theorem nil (empty : registry.content g = .empty) : registry.Lists g [] where
  leaves kind := by
    rw [empty]
    exact .nil _ _
  groups := by
    rw [nested, empty]
    exact .nil _ _

theorem congr (lists : registry.Lists g xs) (same : after.content k = registry.content g) :
    after.Lists k xs where
  leaves kind := same ▸ lists.leaves kind
  groups := by
    rw [nested, same]
    exact lists.groups

theorem holds_iff (lists : registry.Lists g xs) : registry.Holds g x ↔ x ∈ xs := by
  cases x with
  | leaf y =>
    rw [Holds, (lists.leaves y.kind).perm.mem_iff, mem_leavesAmong]
    simp
  | group h => rw [Holds, lists.groups.perm.mem_iff, mem_groupsAmong]

/-- An object put in its place is listed last among those of its key. -/
theorem insert (lists : registry.Lists g xs) (registered : g.serial ∈ registry.serials) (x : Object) :
    (registry.insert g x).Lists g (xs ++ [x]) := by
  cases x with
  | leaf y =>
    refine ⟨fun kind => ?_, ?_⟩
    · rw [leaves_insert_leaf registered, leavesAmong_append, leavesAmong_leaf]
      by_cases same : y.kind = kind
      · subst same
        rw [if_pos rfl, if_pos ⟨rfl, rfl⟩]
        exact (lists.leaves y.kind).insert y
      · rw [if_neg same, if_neg fun place => same place.2.symm, List.append_nil]
        exact lists.leaves kind
    · rw [nested_insert_leaf registered, groupsAmong_append, groupsAmong_leaf, List.append_nil]
      exact lists.groups
  | group h =>
    refine ⟨fun kind => ?_, ?_⟩
    · rw [leaves_insert_group registered, leavesAmong_append, leavesAmong_group, List.append_nil]
      exact lists.leaves kind
    · rw [nested_insert_group registered, if_pos rfl, groupsAmong_append, groupsAmong_group]
      exact lists.groups.insert h

/-- A series of additions lists the objects that a group is given behind those of their keys that it held before. -/
theorem addAll (lists : registry.Lists g xs) (registered : g.serial ∈ registry.serials)
    (filled : registry.addAll adds = .ok after) : after.Lists g (xs ++ givenTo g adds) := by
  induction adds generalizing registry xs with
  | nil =>
    cases filled
    rwa [givenTo, List.filter_nil, List.map_nil, List.append_nil]
  | cons pair adds ih =>
    obtain ⟨k, x⟩ := pair
    obtain ⟨between, taken, filled⟩ := addAll_cons_eq_ok.mp filled
    obtain ⟨_, _, _, rfl⟩ := add_eq_ok.mp taken
    have registered' : g.serial ∈ (registry.insert k x).serials := by rwa [serials_insert]
    by_cases same : k.serial = g.serial
    · have here : (registry.insert k x).Lists k (xs ++ [x]) :=
        (lists.congr (registry.content_congr same)).insert (same ▸ registered) x
      have given : givenTo g ((k, x) :: adds) = x :: givenTo g adds := by
        rw [givenTo, List.filter_cons_of_pos (by simpa using same), List.map_cons, givenTo]
      rw [given, List.append_cons]
      exact ih (here.congr ((registry.insert k x).content_congr same.symm)) registered' filled
    · have given : givenTo g ((k, x) :: adds) = givenTo g adds := by
        rw [givenTo, List.filter_cons_of_neg (by simpa using same), givenTo]
      rw [given]
      exact ih (lists.congr (content_insert_of_ne (Ne.symm same))) registered' filled

end Lists

end Registry

namespace Heap

variable {heap : Heap} {g h : Group} {xs ys : List Object} {adds : List (Group × Object)} {after : Registry}

/-- Objects of the heap added to groups of the heap lead to a heap that can come about. -/
theorem Reachable.addAll (reachable : heap.Reachable) (made : ∀ pair ∈ adds, pair.1 ∈ heap.groups)
    (exist : ∀ pair ∈ adds, heap.Has pair.2) (filled : heap.registry.addAll adds = .ok after) :
    Reachable { heap with registry := after } := by
  induction adds generalizing heap with
  | nil =>
    cases filled
    exact reachable
  | cons pair adds ih =>
    obtain ⟨k, x⟩ := pair
    obtain ⟨here, later⟩ := List.forall_mem_cons.mp made
    obtain ⟨this, rest⟩ := List.forall_mem_cons.mp exist
    obtain ⟨between, taken, filled⟩ := Registry.addAll_cons_eq_ok.mp filled
    have step := reachable.add here this
    simp only [Heap.add, taken] at step
    have last := ih step later rest filled
    exact last

/-- The leaves of two groups that list the same objects are the same. -/
theorem Ordered.leaves_eq_of_lists (ordered : heap.Ordered) (made : g ∈ heap.groups)
    (left : heap.registry.Lists g xs) (right : heap.registry.Lists h ys) (perm : ys.Perm xs) (kind : Kind) :
    (heap.registry.content g).leaves kind = (heap.registry.content h).leaves kind := by
  refine Order.Ascending.eq_of_perm (left.leaves kind).ascending (right.leaves kind).ascending ?_
    (ordered.leaves g made kind).apart
  exact (left.leaves kind).perm.trans ((leavesAmong_perm perm.symm).trans (right.leaves kind).perm.symm)

/-- No two of the objects that a group lists are leaves of one value or one group. -/
theorem Sound.pairwise_of_lists (sound : heap.Sound) (made : g ∈ heap.groups) (lists : heap.registry.Lists g xs) :
    xs.Pairwise fun x y => ¬ x.Clashes y := by
  have leaves (kind : Kind) : (leavesAmong kind xs).Pairwise fun x y => ¬ x.same y = true :=
    ((lists.leaves kind).perm.pairwise_iff fun other same => other (Leaf.same_symm same)).mp
      (sound.pairwise_not_same made kind)
  have groups : (groupsAmong xs).Nodup := lists.groups.perm.nodup_iff.mp (sound.once g made)
  simp only [leavesAmong, groupsAmong, List.Nodup, List.pairwise_filter, List.pairwise_filterMap] at leaves groups
  simp only [List.pairwise_iff_getElem] at leaves groups ⊢
  intro i j first second before clash
  have apart := fun kind => leaves kind i j first second before
  have differ := groups i j first second before
  cases left : xs[i] with
  | leaf x =>
    cases right : xs[j] with
    | leaf y =>
      rw [left, right] at clash apart
      have kinds := (Leaf.same_iff.mp clash).1
      exact apart x.kind x rfl y rfl (decide_eq_true rfl) (decide_eq_true kinds.symm) clash
    | group h =>
      rw [left, right] at clash
      cases clash
  | group k =>
    cases right : xs[j] with
    | leaf y =>
      rw [left, right] at clash
      cases clash
    | group h =>
      rw [left, right] at clash differ
      exact differ k rfl h rfl clash

/-- Two groups that list the same objects have the same content just when their nested groups of each name have,
as they came. -/
theorem Sound.sameContent_iff_of_lists (sound : heap.Sound) (left : g ∈ heap.groups) (right : h ∈ heap.groups)
    (family : g.family = h.family) (first : heap.registry.Lists g xs) (second : heap.registry.Lists h ys)
    (perm : ys.Perm xs) :
    heap.registry.sameContent g h = true ↔ ∀ name,
      List.Forall₂ (fun a b => heap.registry.sameContent a b = true) (groupsNamed name xs)
        (groupsNamed name ys) := by
  have values : heap.registry.values g = heap.registry.values h := by
    simp only [Registry.values, family, sound.leaves_eq_of_lists left first second perm]
  rw [sound.sameContent_iff left right family, and_iff_right values,
    Order.forall₂_iff_filter first.groups.ascending second.groups.ascending]
  refine forall_congr' fun name => ?_
  rw [first.groups.stable name, second.groups.stable name]
  rfl

/-- In every heap that can come about, when two empty groups of a family are given the same objects in different
orders in a series of additions that are all taken, the two have the same content just when, for each name, their
nested groups of the name have pairwise the same content as they came; where no two of the nested groups share a name,
they do. -/
theorem sameContent_addAll_iff (reachable : heap.Reachable) (left : g ∈ heap.groups) (right : h ∈ heap.groups)
    (family : g.family = h.family) (empty : heap.registry.content g = .empty)
    (empty' : heap.registry.content h = .empty) (made : ∀ pair ∈ adds, pair.1 ∈ heap.groups)
    (exist : ∀ pair ∈ adds, heap.Has pair.2) (perm : (givenTo h adds).Perm (givenTo g adds))
    (filled : heap.registry.addAll adds = .ok after) :
    (after.sameContent g h = true ↔ ∀ name,
      List.Forall₂ (fun a b => after.sameContent a b = true) (groupsNamed name (givenTo g adds))
        (groupsNamed name (givenTo h adds))) ∧
    (((groupsAmong (givenTo g adds)).map (·.name)).Nodup → after.sameContent g h = true) := by
  have closed := reachable.sound.toClosed
  have later := (reachable.addAll made exist filled).sound
  have first := (Registry.Lists.nil empty).addAll (closed.registered left) filled
  have second := (Registry.Lists.nil empty').addAll (closed.registered right) filled
  have meant := later.sameContent_iff_of_lists left right family first second perm
  refine ⟨meant, fun distinct => meant.mpr fun name => ?_⟩
  rw [List.nil_append, List.nil_append, groupsNamed_eq_of_perm perm.symm distinct name]
  exact List.forall₂_same.mpr fun k _ => after.sameContent_self k

def withWhole : Heap :=
  (emptyPair.create .address { name := "whole", comment := "all there is" }).add whole (.leaf web)

theorem groups_withWhole : withWhole.groups = [servers, everything, whole] := by
  simp only [withWhole, groups_add]
  rfl

theorem withWhole_reachable : withWhole.Reachable := by
  refine .add (.create (.create (.create .empty .address _) .address _) .address _) ?_ trivial
  decide

def bothWays : List (Group × Object) :=
  [(servers, .leaf mail), (servers, .leaf campus), (servers, .group whole),
    (everything, .group whole), (everything, .leaf mail), (everything, .leaf campus)]

/-- Two groups filled with a host, a range and a group in different orders have the same content. -/
theorem withWhole_sameContent :
    withWhole.Reachable ∧ (givenTo everything bothWays).Perm (givenTo servers bothWays) ∧
      ∃ after, withWhole.registry.addAll bothWays = .ok after ∧ after.sameContent servers everything = true := by
  have left : servers ∈ withWhole.groups := by simp [groups_withWhole]
  have right : everything ∈ withWhole.groups := by simp [groups_withWhole]
  have empty : withWhole.registry.content servers = .empty := by cbv
  have empty' : withWhole.registry.content everything = .empty := by cbv
  have made : ∀ pair ∈ bothWays, pair.1 ∈ withWhole.groups := by simp [bothWays, groups_withWhole]
  have exist : ∀ pair ∈ bothWays, withWhole.Has pair.2 := by simp [bothWays, Has, groups_withWhole]
  have perm : (givenTo everything bothWays).Perm (givenTo servers bothWays) := by decide
  have runs : (withWhole.registry.addAll bothWays).isOk = true := by decide +kernel
  refine ⟨withWhole_reachable, perm, ?_⟩
  cases filled : withWhole.registry.addAll bothWays with
  | error cause => simp [filled, Except.isOk, Except.toBool] at runs
  | ok after =>
    have holds := sameContent_addAll_iff withWhole_reachable left right rfl empty empty' made exist perm filled
    exact ⟨after, rfl, holds.2 (by decide)⟩

def namesake : Group where
  name := "whole"
  serial := 4
  family := .address

def withNamesake : Heap :=
  withWhole.create .address { name := "whole" }

theorem groups_withNamesake : withNamesake.groups = [servers, everything, whole, namesake] := by
  simp only [withNamesake, create, groups_withWhole]
  decide +kernel

def crosswise : List (Group × Object) :=
  [(servers, .group whole), (servers, .group namesake), (everything, .group namesake), (everything, .group whole)]

/-- Two groups that took the same two groups of one name in different orders do not have the same content. -/
theorem withNamesake_sameContent :
    withNamesake.Reachable ∧ (∀ pair ∈ crosswise, pair.1 ∈ withNamesake.groups ∧ withNamesake.Has pair.2) ∧
      withNamesake.registry.content servers = .empty ∧ withNamesake.registry.content everything = .empty ∧
      givenTo servers crosswise = [.group whole, .group namesake] ∧
      givenTo everything crosswise = [.group namesake, .group whole] ∧
      ∃ after, withNamesake.registry.addAll crosswise = .ok after ∧
        after.sameContent servers everything = false := by
  have known : ∀ pair ∈ crosswise, pair.1 ∈ withNamesake.groups ∧ withNamesake.Has pair.2 := by
    simp [crosswise, Has, groups_withNamesake]
  have runs : (do
      let after ← withNamesake.registry.addAll crosswise
      return after.sameContent servers everything) = .ok false := by decide +kernel
  refine ⟨.create withWhole_reachable .address _, known, by cbv, by cbv, rfl, rfl, ?_⟩
  cases filled : withNamesake.registry.addAll crosswise with
  | error cause =>
    rw [filled] at runs
    cases runs
  | ok after =>
    simp only [filled, bind, Except.bind, pure, Except.pure, Except.ok.injEq] at runs
    exact ⟨after, rfl, runs⟩

end Heap

end Rulebase
