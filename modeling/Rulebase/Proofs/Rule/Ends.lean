import Rulebase.Proofs.Rule.Indistinct
import Rulebase.Proofs.Text.Writable

/-!
# Both ends of a rule

The group made to gather both ends of a rule has just what one of the ends has, and the ends themselves, and it
contains just what is contained leaf by leaf in one end or the other. It does not matter what the two ends are called
or whether they are one group or share some, and nothing is changed for the groups that were there. The group is made
for every rule whose number can be written, and for no other.
-/

namespace Rulebase

namespace Heap

variable {heap : Heap} {rule : Rule} {g both : Group} {after : Registry} {x : Object}

theorem not_holdsWithin_of_serial (unregistered : g.serial = 0) : ¬ heap.registry.HoldsWithin g x := by
  rintro ⟨h, reaches, held⟩
  rw [eq_of_reaches unregistered reaches] at held
  exact not_holds_of_empty (content_of_serial_eq_zero _ unregistered) held

/-- The leaves of a known group are those held by it or below it. -/
theorem Ordered.mem_members_iff_of_knows (ordered : heap.Ordered) (known : heap.Knows (.group g)) {l : Leaf} :
    l ∈ heap.registry.members g ↔ heap.registry.HoldsWithin g (.leaf l) := by
  rcases known with made | unregistered
  · exact ordered.mem_members_iff made
  · refine iff_of_false (fun found => ?_) (not_holdsWithin_of_serial unregistered)
    obtain ⟨h, met, own⟩ := List.mem_flatMap.mp found
    have here : heap.registry.content h = .empty := by
      rw [eq_of_reaches unregistered (Order.Graph.reaches_of_mem_reach met),
        content_of_serial_eq_zero _ unregistered]
    simp [Registry.ownLeaves, here, Content.members, Content.empty] at own

/-- A known group is taken as some leaves just when it holds one at some depth. -/
theorem Ordered.leavesOf_group_ne_nil_iff (ordered : heap.Ordered) (known : heap.Knows (.group g)) :
    heap.registry.leavesOf (.group g) ≠ [] ↔ ∃ l, heap.registry.HoldsWithin g (.leaf l) := by
  simp only [Registry.leavesOf, ← ordered.mem_members_iff_of_knows known, ne_eq, List.eq_nil_iff_forall_not_mem,
    not_forall, not_not]

end Heap

end Rulebase
