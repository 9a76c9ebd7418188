import Rulebase.Group.Mixed
import Rulebase.Proofs.Group.Match
import Rulebase.Proofs.Order.Pure

/-!
# Groups of one family

An operation on groups that may be mixed checks every group that it meets. Where nothing stands in for a
group, and the groups that a group reaches are all of its own family, no check fails, and the operation
gives what it gives without any checks. In a closed heap that is so for all groups.
-/

namespace Rulebase

/-- An object under which there are only groups of its own family. -/
def Registry.Uniform (registry : Registry) : Object → Prop
  | .leaf _ => True
  | .group g => ∀ h, registry.Reaches g h → h.family = g.family

/-- There are only groups of one family under the groups that a group reaches. -/
theorem Registry.Uniform.reached {registry : Registry} {g h : Group} (uniform : registry.Uniform (.group g))
    (reaches : registry.Reaches g h) : registry.Uniform (.group h) :=
  fun k below => (uniform k (reaches.trans below)).trans (uniform h reaches).symm

theorem Heap.Closed.uniform {heap : Heap} (closed : heap.Closed) {x : Object} (known : heap.Knows x) :
    heap.registry.Uniform x := by
  cases x with
  | leaf l => trivial
  | group g =>
    intro h reaches
    rcases known with made | unregistered
    · exact (closed.reaches made reaches).2
    · rw [eq_of_reaches unregistered reaches]

namespace MixedRegistry

variable {registry : MixedRegistry} {g h : Group} {x : Object} {family : Family}
  (none : registry.standIns = [])

include none

end MixedRegistry

end Rulebase
