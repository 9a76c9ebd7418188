import Rulebase.Group.Registry

/-!
# Equality of contents

Two groups have the same content when their lists of leaves match pairwise and their nested groups
agree pairwise in family, in name and, in turn, in content. The pairs of groups to compare are the
vertices of a graph, of which each is compared once.
-/

namespace Rulebase

def Leaf.sameAll : List Leaf → List Leaf → Bool
  | [], [] => true
  | x :: xs, y :: ys => x.same y && Leaf.sameAll xs ys
  | _, _ => false

def Group.alike : List Group → List Group → Bool
  | [], [] => true
  | g :: gs, h :: hs => g.family == h.family && g.name == h.name && Group.alike gs hs
  | _, _ => false

namespace Registry

/-- Two groups agree in what they hold directly, nested groups by family and name. -/
def agree (registry : Registry) (pair : Group × Group) : Bool :=
  (pair.1.family.kinds.all fun kind =>
    Leaf.sameAll ((registry.content pair.1).leaves kind) ((registry.content pair.2).leaves kind)) &&
  Group.alike (registry.nested pair.1) (registry.nested pair.2)

/-- Pairs of groups, and below each the pairs of the groups nested in them, the last pair first. -/
def pairing (registry : Registry) : Order.Graph (Group × Group) (Nat × Nat) where
  key pair := (pair.1.serial, pair.2.serial)
  next pair := ((registry.nested pair.1).zip (registry.nested pair.2)).reverse
  keys := registry.serials.flatMap fun i => registry.serials.map fun j => (i, j)
  next_eq_nil pair h := by
    by_cases left : pair.1.serial ∈ registry.serials
    · by_cases right : pair.2.serial ∈ registry.serials
      · simp [left, right] at h
      · simp [nested, content_eq_empty right, Content.empty]
    · simp [nested, content_eq_empty left, Content.empty]

def sameContent (registry : Registry) (g h : Group) : Bool :=
  (registry.pairing.reach (g, h)).all registry.agree

/-- Two groups match when they are of one family and have the same name and the same content. -/
def sameGroup (registry : Registry) (g h : Group) : Bool :=
  h.family == g.family && g.name == h.name && registry.sameContent g h

def sameObject (registry : Registry) : Object → Object → Bool
  | .leaf x, .leaf y => x.same y
  | .group g, .group h => registry.sameGroup g h
  | _, _ => false

end Registry

end Rulebase
