import Rulebase.Group.Match
import Rulebase.Order.Search

/-!
# Membership

A group has an object when it, or a group nested in it, holds a matching one; each list of members is
searched by halving, by span for leaves and by name for groups. Adding an object puts it after the
members whose key does not come later, unless the group refuses it; a refusal changes nothing.
-/

namespace Rulebase

def nameBefore (a b : String) : Bool := a < b

namespace Registry

def owns (registry : Registry) (g : Group) : Object → Bool
  | .leaf x =>
    (Order.candidates Span.before Leaf.span x.span ((registry.content g).leaves x.kind)).any (·.same x)
  | .group h =>
    (Order.candidates nameBefore (·.name) h.name (registry.nested g)).any (registry.sameGroup · h)

/-- A group, or one nested in it, holds an object that matches. -/
def hasObject (registry : Registry) (g : Group) (x : Object) : Except MembershipError Bool :=
  if x.family = g.family then .ok ((registry.walk g).any (registry.owns · x))
  else .error (.unsupported g x.typeName)

/-- A group is the object, or is nested in it to some depth. -/
def isWithin (registry : Registry) (g : Group) : Object → Bool
  | .leaf _ => false
  | .group h => (registry.walk h).any (·.serial == g.serial)

/-- Where an object goes among the members of its sort. -/
def slot (registry : Registry) (g : Group) : Object → Nat
  | .leaf x => Order.slot Span.before Leaf.span x.span ((registry.content g).leaves x.kind)
  | .group h => Order.slot nameBefore (·.name) h.name (registry.nested g)

def insert (registry : Registry) (g : Group) (x : Object) : Registry :=
  let content := registry.content g
  registry.setContent g <| match x with
    | .leaf leaf =>
      content.setLeaves leaf.kind ((content.leaves leaf.kind).insertIdx (registry.slot g x) leaf)
    | .group h => { content with groups := content.groups.insertIdx (registry.slot g x) h }

def add (registry : Registry) (g : Group) (x : Object) : Except MembershipError Registry :=
  match registry.hasObject g x with
  | .error e => .error e
  | .ok true => .error (.duplicate g x)
  | .ok false =>
    match x with
    | .leaf _ => .ok (registry.insert g x)
    | .group h =>
      if registry.isWithin g x then .error (.cyclic g h) else .ok (registry.insert g x)

end Registry

end Rulebase
