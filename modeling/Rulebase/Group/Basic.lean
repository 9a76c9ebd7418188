import Rulebase.Object.Leaf

/-!
# Groups and objects

A group is known by its serial number; its label and family never change, while what it holds is kept
elsewhere and grows. An object is a leaf or a group. A group holds objects of its own family only.
-/

namespace Rulebase

/-- A group of addresses or of services, known by its serial number. -/
structure Group extends Label where
  serial : Nat
  family : Family
  deriving DecidableEq, Repr

def Family.groupName : Family → String
  | address => "group"
  | service => "port group"

def Family.groupTypeName : Family → String
  | address => "Group"
  | service => "PortGroup"

/-- The name of the list in which a group has the leaves of a kind. -/
def Kind.listName : Kind → String
  | host => "hosts"
  | network => "networks"
  | range | portRange => "ranges"
  | port => "ports"

def Group.text (g : Group) : String :=
  g.family.groupName ++ " " ++ g.name

inductive Object where
  | leaf (leaf : Leaf)
  | group (group : Group)
  deriving DecidableEq, Repr

namespace Object

def name : Object → String
  | leaf x => x.name
  | group g => g.name

def family : Object → Family
  | leaf x => x.family
  | group g => g.family

def text : Object → String
  | leaf x => x.text
  | group g => g.text

def typeName : Object → String
  | leaf x => x.typeName
  | group g => g.family.groupTypeName

end Object

inductive MembershipError where
  /-- The group holds no objects of the type. -/
  | unsupported (group : Group) (typeName : String)
  /-- The group, or one nested in it, holds a matching object. -/
  | duplicate (group : Group) (object : Object)
  /-- The group is nested in the member. -/
  | cyclic (group member : Group)
  deriving DecidableEq, Repr

def MembershipError.message : MembershipError → String
  | unsupported group typeName =>
    "unsupported object type for " ++ group.family.groupName ++ " '" ++ group.name ++ "': " ++ typeName
  | duplicate group object =>
    "object is already a member of group '" ++ group.name ++ "': " ++ object.text
  | cyclic group member =>
    "adding group '" ++ member.name ++ "' to '" ++ group.name ++ "' would create a cycle"

end Rulebase
