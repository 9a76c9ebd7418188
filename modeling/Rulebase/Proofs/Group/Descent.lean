import Mathlib.Data.List.Permutation
import Rulebase.Proofs.Group.Containment
import Rulebase.Proofs.Order.Preorder

/-!
# Walks descend

A walk goes through the groups as a recursive descent does, into each nested group in stored order, past those already
taken, and it ends whatever nests what. So the leaves reachable from a group are the leaves that the groups of the
descent hold, in its order, and the group covers what one of these leaves covers. Nothing of this needs the groups to
be nested without cycles.
-/

namespace Rulebase

namespace Heap

variable {heap : Heap} {g : Group}

/-- The groups of the heap keep their lists under the kinds of the family of the one they are reached from. -/
theorem Closed.ownLeaves_eq (closed : heap.Closed) (made : g ∈ heap.groups) {h : Group}
    (met : h ∈ heap.registry.walk g) :
    heap.registry.ownLeaves h = g.family.kinds.flatMap (heap.registry.content h).leaves := by
  have family := (closed.reaches made ((closed.mem_walk_iff made).mp met)).2
  rw [Registry.ownLeaves, family, Content.members]

/-- In every closed heap, whatever nests what there, the loop of a walk comes to an end; it meets every group that is
reached once, in the order of the recursive descent into nested groups as they are stored. The leaves reachable from a
group are the lists of the groups in that order, one kind after another; the spans are those of the leaves; and a group
covers a leaf of its family just when one of these leaves does, and is not to be asked about another. -/
theorem walk_descends (closed : heap.Closed) (made : g ∈ heap.groups) :
    (∃ last, Order.Traversal.Leads heap.registry.nesting { stack := [g] } last ∧
        last.turn heap.registry.nesting = none ∧ last.met = heap.registry.walk g) ∧
      ((heap.registry.walk g).map Group.serial).Nodup ∧
      (∀ h, h ∈ heap.registry.walk g ↔ heap.registry.Reaches g h) ∧
      heap.registry.walk g = heap.registry.nesting.preorder [] [g] ∧
      heap.registry.members g = (heap.registry.nesting.preorder [] [g]).flatMap (fun h =>
        g.family.kinds.flatMap (heap.registry.content h).leaves) ∧
      heap.registry.spans g = (heap.registry.members g).map Leaf.span ∧
      ∀ x : Leaf, heap.registry.contains (.group g) (.leaf x) =
        if x.family = g.family then .ok ((heap.registry.members g).any (heap.registry.leafContains · (.leaf x)))
        else .error (.unsupported g x.typeName) := by
  have once : ((heap.registry.nesting.visit [] [g]).map heap.registry.nesting.key).Nodup :=
    (Order.Graph.keys_visit_nodup [] [g]).2
  have descends : heap.registry.walk g = heap.registry.nesting.preorder [] [g] :=
    heap.registry.nesting.visit_eq_preorder [] [g]
  obtain ⟨marks, leads⟩ := Order.Traversal.leads_visit heap.registry.nesting [] [g] []
  refine ⟨⟨_, leads, Order.Traversal.turn_eq_none_iff.mpr rfl, rfl⟩, once, fun h => closed.mem_walk_iff made,
    descends, ?_, rfl, fun x => ?_⟩
  · rw [← descends, Registry.members]
    exact List.flatMap_congr fun h met => closed.ownLeaves_eq made met
  · rw [Registry.contains, Registry.groupContains, Registry.groupCovers_eq_any]
    rfl

/-- The first of three groups that nest one another. -/
def hub : Group where
  name := "hub"
  serial := 1
  family := .address

def east : Group where
  name := "east"
  serial := 2
  family := .address

def west : Group where
  name := "west"
  serial := 3
  family := .address

/-- Three groups: the first nests the others, the second the third, and the third the first. -/
def ring : Heap where
  registry := ⟨[⟨fun _ => [], [east, west]⟩, ⟨fun kind => if kind = .host then [mail] else [], [west]⟩,
    ⟨fun kind => if kind = .host then [web] else [], [hub]⟩]⟩
  groups := [hub, east, west]

theorem ring_closed : ring.Closed where
  serials := by decide
  exist g made x held := by
    cases x with
    | leaf y => trivial
    | group h =>
      have inside : ∀ g ∈ ring.groups, ∀ h ∈ ring.registry.nested g, h ∈ ring.groups := by decide
      exact inside g made h held
  family g made x held := by
    have address : ∀ g ∈ ring.groups, g.family = .address := by decide
    rw [address g made]
    cases x with
    | leaf y =>
      have inside (kind : Kind) :
          ∀ g ∈ ring.groups, ∀ y ∈ (ring.registry.content g).leaves kind, y.family = .address := by
        cases kind <;> decide
      exact inside y.kind g made y held
    | group h =>
      have inside : ∀ g ∈ ring.groups, ∀ h ∈ ring.registry.nested g, h.family = .address := by decide
      exact inside g made h held

/-- Three groups that nest one another in a ring are walked through once each, down first, and the first one covers the
host that only the last one holds. -/
theorem ring_walk_descends :
    ring.Closed ∧ hub ∈ ring.groups ∧ Relation.TransGen ring.registry.Nests hub hub ∧
      ring.registry.walk hub = [hub, east, west] ∧ ring.registry.members hub = [mail, web] ∧
      ring.registry.contains (.group hub) (.leaf web) = .ok true := by
  have made : hub ∈ ring.groups := by decide
  obtain ⟨_, _, _, descends, members, _, covers⟩ := walk_descends ring_closed made
  have order : ring.registry.nesting.preorder [] [hub] = [hub, east, west] := by cbv
  have round : Relation.TransGen ring.registry.Nests hub hub :=
    .tail (.single (show west ∈ ring.registry.nested hub by decide)) (show hub ∈ ring.registry.nested west by decide)
  rw [order] at descends members
  have listed : ring.registry.members hub = [mail, web] := members.trans (by decide)
  refine ⟨ring_closed, made, round, descends, listed, ?_⟩
  rw [covers, listed]
  decide

end Heap

end Rulebase
