import Rulebase.Group.Match

/-!
# Containment

An object contains another when it covers all of it. A group is taken as the leaves reachable from it:
it is covered when there are any and each of them is, and it covers a leaf when one of its own leaves
does.
-/

namespace Rulebase

namespace Registry

/-- A leaf covers an object: a point the points that match it, an interval what lies within it. -/
def leafContains (registry : Registry) (x : Leaf) : Object → Bool
  | .leaf y => x.covers y
  | .group g =>
    let spans := registry.spans g
    !x.isPoint && !spans.isEmpty && spans.all x.span.covers

/-- A leaf held directly by a group covers a leaf. -/
def ownCovers (registry : Registry) (g : Group) (y : Leaf) : Bool :=
  g.family.kinds.any fun kind => ((registry.content g).leaves kind).any (·.covers y)

/-- A leaf reachable from a group covers a leaf. -/
def groupCovers (registry : Registry) (g : Group) (y : Leaf) : Bool :=
  (registry.walk g).any (registry.ownCovers · y)

def groupContains (registry : Registry) (g : Group) (x : Object) : Except MembershipError Bool :=
  if x.family = g.family then
    match x with
    | .leaf y => .ok (registry.groupCovers g y)
    | .group h =>
      let members := registry.members h
      .ok (!members.isEmpty && members.all (registry.groupCovers g))
  else .error (.unsupported g x.typeName)

def contains (registry : Registry) (x y : Object) : Except MembershipError Bool :=
  match x with
  | .leaf leaf => .ok (registry.leafContains leaf y)
  | .group g => registry.groupContains g y

end Registry

end Rulebase
