import Mathlib.Data.List.Permutation
import Rulebase.Proofs.Group.Insertion

/-!
# What holds in every heap

In every heap that can come about, however groups are shared and in whatever order they grow, the leaves of
each list stand strictly in the order of their keys, nested groups in the order of their names and none of
them twice, and no group is nested in itself to any depth. Making a group keeps all of this, and so does
adding an object: it is refused when a match is there already, or when it would close a cycle.
-/

namespace Rulebase

namespace Registry

/-- An offer leads to a refusal of one of three kinds or to the registry with the object in its place. -/
theorem add_cases (registry : Registry) (g : Group) (x : Object) :
    x.family ≠ g.family ∧ registry.add g x = .error (.unsupported g x.typeName) ∨
    x.family = g.family ∧ registry.hasObject g x = .ok true ∧
      registry.add g x = .error (.duplicate g x) ∨
    (∃ h, x = .group h ∧ x.family = g.family ∧ registry.hasObject g x = .ok false ∧
      registry.isWithin g x = true ∧ registry.add g x = .error (.cyclic g h)) ∨
    x.family = g.family ∧ registry.hasObject g x = .ok false ∧ registry.isWithin g x = false ∧
      registry.add g x = .ok (registry.insert g x) := by
  by_cases family : x.family = g.family
  · right
    have asked : registry.hasObject g x = .ok ((registry.walk g).any (registry.owns · x)) :=
      if_pos family
    rw [asked]
    cases found : (registry.walk g).any (registry.owns · x) with
    | true =>
      refine Or.inl ⟨family, rfl, ?_⟩
      simp [add, asked, found]
    | false =>
      right
      rw [found] at asked
      cases x with
      | leaf y =>
        refine Or.inr ⟨family, rfl, rfl, ?_⟩
        simp [add, asked]
      | group h =>
        cases within : registry.isWithin g (.group h) with
        | true =>
          refine Or.inl ⟨h, rfl, family, rfl, rfl, ?_⟩
          simp [add, asked, within]
        | false =>
          refine Or.inr ⟨family, rfl, rfl, ?_⟩
          simp [add, asked, within]
  · have asked : registry.hasObject g x = .error (.unsupported g x.typeName) := if_neg family
    refine Or.inl ⟨family, ?_⟩
    simp [add, asked]

/-- An object is added just when it is of the group's family, has no match in the group and does not nest
the group. -/
theorem add_eq_ok {registry after : Registry} {g : Group} {x : Object} :
    registry.add g x = .ok after ↔
      x.family = g.family ∧ registry.hasObject g x = .ok false ∧ registry.isWithin g x = false ∧
        after = registry.insert g x := by
  rcases registry.add_cases g x with ⟨other, refused⟩ | ⟨family, found, refused⟩ |
    ⟨h, rfl, family, absent, within, refused⟩ | ⟨family, absent, away, taken⟩
  · simp [refused, other]
  · simp [refused, found]
  · simp [refused, within]
  · simp [taken, family, absent, away, eq_comm]

end Registry

namespace Heap

variable {heap : Heap} {g h : Group} {x : Object}

/-- An ordered heap in which no group is nested twice in one group, and none in itself to any depth. -/
structure Sound (heap : Heap) : Prop extends heap.Ordered where
  once : ∀ g ∈ heap.groups, (heap.registry.nested g).Nodup
  acyclic : ∀ g ∈ heap.groups, ¬ Relation.TransGen heap.registry.Nests g g

theorem Sound.empty : Sound {} where
  serials := rfl
  exist := by simp
  family := by simp
  kinds := by simp
  leaves := by simp
  names := by simp
  once := by simp
  acyclic := by simp

theorem Sound.create (sound : heap.Sound) (family : Family) (label : Label) :
    (heap.create family label).Sound where
  serials := by
    have numbers := sound.serials
    simp only [Registry.serials, Registry.size] at numbers
    simp [Heap.create, Registry.create, Registry.serials, Registry.size, numbers,
      List.range'_1_concat, Nat.add_comm]
  exist g made x held := by
    rw [holds_create] at held
    rcases made_or_empty made with old | nothing
    · exact (sound.exist g old x held).create
    · exact absurd held (not_holds_of_empty nothing)
  family g made x held := by
    rw [holds_create] at held
    rcases made_or_empty made with old | nothing
    · exact sound.family g old x held
    · exact absurd held (not_holds_of_empty nothing)
  kinds g made kind x found := by
    rw [content_create] at found
    rcases made_or_empty made with old | nothing
    · exact sound.kinds g old kind x found
    · simp [nothing, Content.empty] at found
  leaves g made kind := by
    rw [content_create]
    rcases made_or_empty made with old | nothing
    · exact sound.leaves g old kind
    · simp [nothing, Content.empty, Order.StrictlyAscending]
  names g made := by
    rw [nested_create]
    rcases made_or_empty made with old | nothing
    · exact sound.names g old
    · simp [Registry.nested, nothing, Content.empty, Order.Ascending]
  once g made := by
    rw [nested_create]
    rcases made_or_empty made with old | nothing
    · exact sound.once g old
    · simp [Registry.nested, nothing, Content.empty]
  acyclic g made cycle := by
    have same : (heap.create family label).registry.Nests = heap.registry.Nests := by
      funext g h
      simp [Registry.Nests]
    rw [same] at cycle
    rcases made_or_empty made with old | nothing
    · exact sound.acyclic g old cycle
    · obtain ⟨h, nests, _⟩ := Relation.TransGen.head'_iff.mp cycle
      simp [Registry.Nests, Registry.nested, nothing, Content.empty] at nests

/-- A group put in another that it does not reach closes no cycle. -/
theorem Sound.acyclic_insert (sound : heap.Sound) (made : g ∈ heap.groups) (exist : heap.Has x)
    (away : ∀ h, x = .group h → ¬ heap.registry.Reaches h g) {k : Group} (other : k ∈ heap.groups) :
    ¬ Relation.TransGen (heap.registry.insert g x).Nests k k := by
  intro cycle
  obtain ⟨j, nests, back⟩ := Relation.TransGen.head'_iff.mp cycle
  rcases (sound.holds_insert_made (m := .group j) made other).mp nests with nests | ⟨rfl, rfl⟩
  · have known : j ∈ heap.groups := sound.exist k other (.group j) nests
    rcases (sound.reaches_insert_iff made exist known).mp back with back | ⟨h, put, upper, after⟩
    · exact sound.acyclic k other (.head' nests back)
    · exact away h put (.trans after (.head nests upper))
  · rcases (sound.reaches_insert_iff made exist exist).mp back with back | ⟨h, put, upper, _⟩
    · exact away j rfl back
    · exact away j rfl upper

/-- An object that a group takes keeps a heap sound. -/
theorem Sound.insert (sound : heap.Sound) (made : g ∈ heap.groups) (exist : heap.Has x)
    (family : x.family = g.family) (absent : heap.registry.hasObject g x = .ok false)
    (away : heap.registry.isWithin g x = false) : (heap.insert g x).Sound where
  toOrdered := sound.toOrdered.insert made exist family absent
  once k other := by
    cases x with
    | leaf y =>
      rw [Heap.insert, Registry.nested_insert_leaf (sound.registered made)]
      exact sound.once k other
    | group h =>
      rw [Heap.insert, Registry.nested_insert_group (sound.registered made)]
      split
      · rw [(List.perm_insertIdx h _ (sound.slot_group_le made h)).nodup_iff]
        refine List.nodup_cons.mpr ⟨fun held => ?_, sound.once g made⟩
        exact sound.not_same_of_absent (m := .group h) made absent held
          (heap.registry.sameObject_self _)
      · exact sound.once k other
  acyclic k other := by
    refine sound.acyclic_insert made exist (fun h put reaches => ?_) other
    have within := (sound.isWithin_iff made exist).mpr ⟨h, put, reaches⟩
    simp [away] at within

/-- An offer, taken or refused, keeps a heap sound. -/
theorem Sound.add (sound : heap.Sound) (made : g ∈ heap.groups) (exist : heap.Has x) :
    (heap.add g x).Sound := by
  unfold Heap.add
  cases offered : heap.registry.add g x with
  | error cause => exact sound
  | ok after =>
    obtain ⟨family, absent, away, rfl⟩ := Registry.add_eq_ok.mp offered
    exact sound.insert made exist family absent away

/-- Every heap that can come about is sound. -/
theorem Reachable.sound (reachable : heap.Reachable) : heap.Sound := by
  induction reachable with
  | empty => exact Sound.empty
  | create _ family label ih => exact ih.create family label
  | add _ made exist ih => exact ih.add made exist

theorem Ordered.pairwise_precedes (ordered : heap.Ordered) (made : g ∈ heap.groups) (kind : Kind) :
    ((heap.registry.content g).leaves kind).Pairwise Leaf.Precedes := by
  refine (ordered.leaves g made kind).imp_of_mem fun {x y} left right before => ?_
  refine Leaf.precedes_of_before ?_ before
  rw [ordered.kinds g made kind x left, ordered.kinds g made kind y right]

theorem Ordered.pairwise_not_same (ordered : heap.Ordered) (made : g ∈ heap.groups) (kind : Kind) :
    ((heap.registry.content g).leaves kind).Pairwise fun x y => ¬ x.same y = true := by
  refine (ordered.leaves g made kind).imp fun {x y} before same => ?_
  rw [(Leaf.same_iff.mp same).2] at before
  exact Span.not_before_self y.span before

theorem Ordered.pairwise_name_le (ordered : heap.Ordered) (made : g ∈ heap.groups) :
    (heap.registry.nested g).Pairwise fun h k => h.name ≤ k.name := by
  exact (ordered.names g made).imp nameBefore_eq_false_iff.mp

/-- A group of two hosts, the first to be made. -/
def servers : Group where
  name := "servers"
  serial := 1
  family := .address

/-- A group to nest others, the second to be made. -/
def everything : Group where
  name := "everything"
  serial := 2
  family := .address

def mail : Leaf := .host { name := "mail", address := .ofNat 167772162 }

def web : Leaf := .host { name := "web", address := .ofNat 167772161 }

def emptyPair : Heap :=
  (({} : Heap).create .address { name := "servers" }).create .address { name := "everything" }

/-- Two groups, the first with two hosts and the second with the first. -/
def nestedPair : Heap :=
  ((emptyPair.add servers (.leaf mail)).add servers (.leaf web)).add everything (.group servers)

theorem groups_nestedPair : nestedPair.groups = [servers, everything] := by
  simp only [nestedPair, groups_add]
  rfl

theorem nestedPair_reachable : nestedPair.Reachable := by
  have made : emptyPair.Reachable := .create (.create .empty .address _) .address _
  have first : servers ∈ emptyPair.groups := by decide
  have second : everything ∈ emptyPair.groups := by decide
  have filled : ((emptyPair.add servers (.leaf mail)).add servers (.leaf web)).Reachable := by
    refine (made.add (x := .leaf mail) first trivial).add (x := .leaf web) ?_ trivial
    rwa [groups_add]
  refine filled.add ?_ ?_
  · simpa using second
  · simpa [Has] using first

theorem nestedPair_nests : nestedPair.registry.Nests everything servers := by
  have nested : nestedPair.registry.nested everything = [servers] := by decide +kernel
  simp [Registry.Nests, nested]

/-- In every heap that can come about, the leaves of every list stand strictly in the order of their keys,
so no two of them match; nested groups stand in the order of their names, and no group is among them twice;
and no group is nested in itself to any depth. -/
theorem reachable_invariant (reachable : heap.Reachable) :
    (∀ g ∈ heap.groups,
      (∀ kind, ((heap.registry.content g).leaves kind).Pairwise Leaf.Precedes ∧
        ((heap.registry.content g).leaves kind).Pairwise fun x y => ¬ x.same y = true) ∧
      ((heap.registry.nested g).Pairwise fun h k => h.name ≤ k.name) ∧
      ((heap.registry.nested g).map Group.serial).Nodup) ∧
    ∀ g ∈ heap.groups, ¬ Relation.TransGen heap.registry.Nests g g := by
  have sound := reachable.sound
  refine ⟨fun g made => ⟨fun kind => ?_, sound.pairwise_name_le made, ?_⟩, sound.acyclic⟩
  · exact ⟨sound.pairwise_precedes made kind, sound.pairwise_not_same made kind⟩
  · refine (List.nodup_map_iff_inj_on (sound.once g made)).mpr fun h left k right same => ?_
    exact sound.eq_of_serial (sound.exist g made (.group h) left) (sound.exist g made (.group k) right)
      same

/-- The hosts of the first of two groups stand in order, and neither group is nested in itself. -/
theorem nestedPair_in_order :
    nestedPair.Reachable ∧
      ((nestedPair.registry.content servers).leaves .host).Pairwise Leaf.Precedes ∧
      ∀ g ∈ [servers, everything], ¬ Relation.TransGen nestedPair.registry.Nests g g := by
  have holds := reachable_invariant nestedPair_reachable
  rw [groups_nestedPair] at holds
  exact ⟨nestedPair_reachable, ((holds.1 servers (by simp)).1 .host).1, holds.2⟩

/-- In every heap that can come about, a group has an object of its family just when some group that it
reaches directly holds a member that matches; about any other object it is not to be asked. -/
theorem hasObject_iff_reaches_match (reachable : heap.Reachable) (made : g ∈ heap.groups) (x : Object) :
    (x.family = g.family →
      (heap.registry.hasObject g x = .ok true ∨ heap.registry.hasObject g x = .ok false) ∧
      (heap.registry.hasObject g x = .ok true ↔
        ∃ h, heap.registry.Reaches g h ∧
          ∃ m, heap.registry.Holds h m ∧ heap.registry.sameObject m x = true)) ∧
    (x.family ≠ g.family →
      heap.registry.hasObject g x = .error (.unsupported g x.typeName)) := by
  refine ⟨fun family => ⟨?_, reachable.sound.hasObject_iff made family⟩, fun other => if_neg other⟩
  rw [Registry.hasObject, if_pos family]
  cases (heap.registry.walk g).any (heap.registry.owns · x) <;> simp

/-- The second of two groups has the host that the first one holds. -/
theorem nestedPair_hasObject :
    nestedPair.Reachable ∧ everything ∈ nestedPair.groups ∧
      nestedPair.registry.hasObject everything (.leaf mail) = .ok true := by
  have made : everything ∈ nestedPair.groups := by simp [groups_nestedPair]
  have found := (hasObject_iff_reaches_match nestedPair_reachable made (.leaf mail)).1 rfl
  have reaches : nestedPair.registry.Reaches everything servers := .single nestedPair_nests
  have held : nestedPair.registry.Holds servers (.leaf mail) := by
    have hosts : (nestedPair.registry.content servers).leaves .host = [web, mail] := by decide +kernel
    simp [Registry.Holds, mail, Leaf.kind, hosts]
  exact ⟨nestedPair_reachable, made, found.2.mpr ⟨servers, reaches, .leaf mail, held, rfl⟩⟩

end Heap

end Rulebase
