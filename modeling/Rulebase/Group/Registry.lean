import Rulebase.Group.Basic
import Rulebase.Order.Traversal

/-!
# The registry of groups

The registry keeps what every group holds, so a group nested in several others is one group that all
of them see grow. Serial numbers are given out from one on; a group without a registered number, such
as one that a query only names, holds nothing.
-/

namespace Rulebase

/-- What a group holds: its leaves, a list for each kind, and the groups nested in it. -/
structure Content where
  leaves : Kind → List Leaf
  groups : List Group

/-- The contents of all groups, in the order of their serial numbers. -/
structure Registry where
  contents : List Content := []

namespace Content

def empty : Content := ⟨fun _ => [], []⟩

def members (content : Content) (family : Family) : List Leaf :=
  family.kinds.flatMap content.leaves

def count (content : Content) (family : Family) : Nat :=
  (content.members family).length + content.groups.length

def setLeaves (content : Content) (kind : Kind) (leaves : List Leaf) : Content :=
  { content with leaves := fun k => if k = kind then leaves else content.leaves k }

end Content

namespace Registry

def size (registry : Registry) : Nat := registry.contents.length

def content (registry : Registry) (g : Group) : Content :=
  match g.serial with
  | 0 => .empty
  | index + 1 => (registry.contents[index]?).getD .empty

def setContent (registry : Registry) (g : Group) (content : Content) : Registry :=
  match g.serial with
  | 0 => registry
  | index + 1 => ⟨registry.contents.set index content⟩

def create (registry : Registry) (family : Family) (label : Label) : Group × Registry :=
  ({ label with serial := registry.size + 1, family }, ⟨registry.contents ++ [.empty]⟩)

/-- A group that holds nothing and is not registered. -/
def unregistered (family : Family) (name : String) : Group :=
  { name, serial := 0, family }

def nested (registry : Registry) (g : Group) : List Group :=
  (registry.content g).groups

def serials (registry : Registry) : List Nat :=
  List.range' 1 registry.size

theorem content_eq_empty {registry : Registry} {g : Group} (h : g.serial ∉ registry.serials) :
    registry.content g = .empty := by
  unfold content
  cases hs : g.serial with
  | zero => rfl
  | succ index =>
    have : registry.contents.length ≤ index := by
      simp only [serials, size, List.mem_range'_1, hs] at h
      omega
    simp [this]

def nesting (registry : Registry) : Order.Graph Group Nat where
  key := Group.serial
  next := registry.nested
  keys := registry.serials
  next_eq_nil g h := by simp [nested, content_eq_empty h, Content.empty]

/-- A group and all groups nested in it to any depth, each once, in depth-first order. -/
def walk (registry : Registry) (g : Group) : List Group :=
  registry.nesting.reach g

def ownLeaves (registry : Registry) (g : Group) : List Leaf :=
  (registry.content g).members g.family

/-- Every leaf reachable from a group, in the order of the walk. -/
def members (registry : Registry) (g : Group) : List Leaf :=
  (registry.walk g).flatMap registry.ownLeaves

def spans (registry : Registry) (g : Group) : List Span :=
  (registry.members g).map Leaf.span

def count (registry : Registry) (g : Group) : Nat :=
  (registry.content g).count g.family

end Registry

end Rulebase
