import Rulebase.Group.Mixed
import Rulebase.Rule

/-!
# Rules over mixed groups

Tests of rules where groups may be mixed, and the group that gathers both ends of a rule whatever they
are.
-/

namespace Rulebase

/-- A group that nests both ends of a rule, whatever they are, and the registry that holds it: the rule is one whose
number can be written. -/
def Rule.gather (rule : Rule) (registry : MixedRegistry) (source destination : Group ⊕ StandIn) :
    Group × MixedRegistry :=
  let (source, registry) := registry.enter source
  let (destination, registry) := registry.enter destination
  let (g, registry) := registry.create .address (bothLabel rule.text)
  let content : Content := ⟨fun _ => [], byName source destination⟩
  (g, { registry with toRegistry := registry.setContent g content })

def Atom.side : Atom → Side
  | has _ side => side
  | contains _ side => side

/-- Why a test of a rule has no answer, as an operation on groups that may be mixed fails. -/
def TestError.mixed : TestError → MixedError
  | refused cause => .refused cause
  | numeral cause => .misused (.numeral cause)

def Atom.check (registry : MixedRegistry) (rule : Rule) (atom : Atom) : Checked Bool :=
  if registry.mixed then do
    let (g, plain) ←
      (rule.select registry.toRegistry atom.side).mapError fun cause => .misused (.numeral cause)
    let registry := { registry with toRegistry := plain }
    match atom with
    | has x _ => registry.hasObject g x
    | contains x _ => registry.groupContains g x
  else (atom.holds registry.toRegistry rule).mapError TestError.mixed

end Rulebase
