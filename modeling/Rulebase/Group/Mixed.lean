import Rulebase.Group.Containment
import Rulebase.Group.Membership
import Rulebase.Misuse

/-!
# Mixed groups

The two ends of a rule can be gathered in one group whatever they are, so a group of addresses can come
to nest a group of services, or something that is no group. An operation fails when its walk comes to a
part that cannot answer it, unless the parts before have settled the answer. Where no group is mixed,
every operation is the one on the registry.
-/

namespace Rulebase

/-- Something with a name that stands where a group should and is none. -/
inductive StandIn where
  | leaf (leaf : Leaf)
  | protocol (protocol : Protocol)
  | inventory (name : String)
  deriving DecidableEq, Repr

namespace StandIn

def name : StandIn → String
  | leaf x => x.name
  | protocol p => p.capitals
  | inventory name => name

def text : StandIn → String
  | leaf x => x.text
  | protocol p => p.name
  | inventory name => name

def typeName : StandIn → String
  | leaf x => x.typeName
  | protocol _ => "Protocol"
  | inventory _ => "Inventory"

def lacks (s : StandIn) (part : String) : Misuse := .missing s.typeName part

/-- Why a group is not compared with a stand-in; a leaf just does not match it. -/
def incomparable? (s : StandIn) : Option Misuse :=
  match s with
  | leaf _ => none
  | protocol _ | inventory _ => some (s.lacks "match")

def nestsNothing (s : StandIn) : Misuse :=
  match s with
  | inventory _ => .notReversible "ObjectStore"
  | leaf _ | protocol _ => s.lacks "groups"

end StandIn

def Family.firstList : Family → String
  | address => Kind.host.listName
  | service => Kind.port.listName

def StandIn.unlisted (s : StandIn) (family : Family) : Misuse :=
  match s, family with
  | inventory _, .address => .notIterable "HostStore"
  | inventory _, .service => .notIterable "ObjectStore"
  | _, _ => s.lacks family.firstList

/-- The registry of groups that may be mixed, with what stands in the place of a group. -/
structure MixedRegistry extends Registry where
  /-- What stands in for the group of a serial number. -/
  standIns : List (Nat × StandIn) := []
  /-- Some group nests what is no group of its own family. -/
  mixed : Bool := false

inductive MixedError where
  | refused (cause : MembershipError)
  | misused (cause : Misuse)
  deriving DecidableEq, Repr

abbrev Checked := Except MixedError

/-- What an operation on groups of one family each leads to. -/
def Checked.of {α : Type} (x : Except MembershipError α) : Checked α :=
  x.mapError .refused

namespace MixedRegistry

/-- What stands in for a group. -/
def standIn? (registry : MixedRegistry) (g : Group) : Option StandIn :=
  registry.standIns.lookup g.serial

def typeName (registry : MixedRegistry) (g : Group) : String :=
  ((registry.standIn? g).map StandIn.typeName).getD g.family.groupTypeName

def text (registry : MixedRegistry) (g : Group) : String :=
  ((registry.standIn? g).map StandIn.text).getD g.text

/-- Fails for what stands in for a group. -/
def unlessStandIn (registry : MixedRegistry) (g : Group) (cause : StandIn → Misuse) : Checked Unit :=
  match registry.standIn? g with
  | some s => .error (.misused (cause s))
  | none => .ok ()

/-- Fails unless a group has the lists of a family. -/
def requireLists (registry : MixedRegistry) (family : Family) (g : Group) : Checked Unit := do
  registry.unlessStandIn g (·.unlisted family)
  if g.family ≠ family then throw (.misused (.missing g.family.groupTypeName family.firstList))

/-- Every leaf reachable from a group, if all groups on the way have the lists of its family. -/
def members (registry : MixedRegistry) (g : Group) : Checked (List Leaf) := do
  if registry.mixed then (registry.walk g).forM (registry.requireLists g.family)
  return registry.toRegistry.members g

def spans (registry : MixedRegistry) (g : Group) : Checked (List Span) :=
  return (← registry.members g).map Leaf.span

/-- Two groups have the lists of a family and agree in what they hold directly. -/
def agreeIn (registry : MixedRegistry) (family : Family) (pair : Group × Group) : Checked Bool := do
  registry.requireLists family pair.1
  registry.requireLists family pair.2
  let types (g : Group) := (registry.nested g).map registry.typeName
  return registry.agree pair && types pair.1 == types pair.2

def sameContent (registry : MixedRegistry) (g h : Group) : Checked Bool := do
  registry.requireLists g.family h
  if registry.mixed then (registry.pairing.reach (g, h)).allM (registry.agreeIn g.family)
  else return registry.toRegistry.sameContent g h

def sameGroup (registry : MixedRegistry) (g h : Group) : Checked Bool :=
  match registry.standIn? g with
  | some s => (s.incomparable?.map fun cause => .error (.misused cause)).getD (.ok false)
  | none => if h.family == g.family && g.name == h.name then registry.sameContent g h else .ok false

def sameObject (registry : MixedRegistry) : Object → Object → Checked Bool
  | .group g, .group h => registry.sameGroup g h
  | x, y => .ok (registry.toRegistry.sameObject x y)

def requireSlot (g : Group) (x : Object) : Checked Unit :=
  if x.family = g.family then .ok () else .error (.refused (.unsupported g x.typeName))

def owns (registry : MixedRegistry) (x : Object) (g : Group) : Checked Bool := do
  registry.unlessStandIn g (·.lacks "_owns")
  requireSlot g x
  match x with
  | .leaf _ => return registry.toRegistry.owns g x
  | .group h =>
    (Order.candidates nameBefore (·.name) h.name (registry.nested g)).anyM (registry.sameGroup · h)

def hasObject (registry : MixedRegistry) (g : Group) (x : Object) : Checked Bool := do
  if registry.mixed then
    requireSlot g x
    (registry.walk g).anyM (registry.owns x)
  else .of (registry.toRegistry.hasObject g x)

def leafContains (registry : MixedRegistry) (x : Leaf) (y : Object) : Checked Bool := do
  if let .group g := y then
    unless x.isPoint do let _ ← registry.members g
  return registry.toRegistry.leafContains x y

def groupCovers (registry : MixedRegistry) (g : Group) (y : Leaf) : Checked Bool :=
  (registry.walk g).anyM fun h => do
    registry.unlessStandIn h (·.lacks "_covers")
    return registry.ownCovers h y

def groupContains (registry : MixedRegistry) (g : Group) (x : Object) : Checked Bool := do
  if registry.mixed then
    requireSlot g x
    match x with
    | .leaf y => registry.groupCovers g y
    | .group h =>
      let members ← registry.members h
      return !members.isEmpty && (← members.allM (registry.groupCovers g))
  else .of (registry.toRegistry.groupContains g x)

def contains (registry : MixedRegistry) (x y : Object) : Checked Bool :=
  match x with
  | .leaf leaf => registry.leafContains leaf y
  | .group g => registry.groupContains g y

def isWithin (registry : MixedRegistry) (g h : Group) : Checked Bool :=
  (registry.walk h).anyM fun k => do
    registry.unlessStandIn k StandIn.nestsNothing
    return k.serial == g.serial

def add (registry : MixedRegistry) (g : Group) (x : Object) : Checked MixedRegistry := do
  if registry.mixed then
    if ← registry.hasObject g x then throw (.refused (.duplicate g x))
    if let .group h := x then
      if ← registry.isWithin g h then throw (.refused (.cyclic g h))
    return { registry with toRegistry := registry.insert g x }
  else return { registry with toRegistry := ← .of (registry.toRegistry.add g x) }

def create (registry : MixedRegistry) (family : Family) (label : Label) : Group × MixedRegistry :=
  let (g, plain) := registry.toRegistry.create family label
  (g, { registry with toRegistry := plain })

/-- What is to be nested in a group of addresses: a group of any family, or what stands in for one. -/
def enter (registry : MixedRegistry) : Group ⊕ StandIn → Group × MixedRegistry
  | .inl g => (g, { registry with mixed := registry.mixed || g.family != .address })
  | .inr s =>
    let (g, registry) := registry.create .address { name := s.name }
    (g, { registry with standIns := (g.serial, s) :: registry.standIns, mixed := true })

end MixedRegistry

end Rulebase
