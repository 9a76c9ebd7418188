import Rulebase.Address.Netmask
import Rulebase.Span

/-!
# Leaves

The five kinds of objects without members. A host and a port stand for one point, a network, a range
and a port range for an interval, and each carries the proof that it is well formed. Two leaves match
when they are of one kind and have the same value, whatever their names.
-/

namespace Rulebase

structure Label where
  name : String
  comment : String := ""
  deriving DecidableEq, Repr, Inhabited

def greatestPort : Nat := 65535

structure Host extends Label where
  address : Address
  deriving DecidableEq, Repr

structure Network extends Label where
  address : Address
  mask : Address
  isNetmask : mask.isNetmask = true
  isBase : address.base mask = address
  deriving DecidableEq, Repr

structure Range extends Label where
  first : Address
  last : Address
  ordered : first ≤ last
  deriving DecidableEq, Repr

structure Port extends Label where
  number : Nat
  protocol : Protocol
  bounded : number ≤ greatestPort
  deriving DecidableEq, Repr

structure PortRange extends Label where
  first : Nat
  last : Nat
  protocol : Protocol
  ordered : first ≤ last
  bounded : last ≤ greatestPort
  deriving DecidableEq, Repr

inductive Family where
  | address
  | service
  deriving DecidableEq, Repr

/-- The kinds of leaves, in the order in which a group lists them. -/
inductive Kind where
  | host
  | network
  | range
  | port
  | portRange
  deriving DecidableEq, Repr

def Kind.family : Kind → Family
  | host | network | range => .address
  | port | portRange => .service

def Family.kinds : Family → List Kind
  | address => [.host, .network, .range]
  | service => [.port, .portRange]

@[simp] theorem Family.mem_kinds {f : Family} {k : Kind} : k ∈ f.kinds ↔ k.family = f := by
  cases f <;> cases k <;> decide

def Network.length (n : Network) : Nat := n.mask.maskLength

/-- A network in the notation of base address and mask length. -/
def Network.cidr (n : Network) : String :=
  n.address.text ++ "/" ++ Text.numeral n.length

/-- An object without members. -/
inductive Leaf where
  | host (host : Host)
  | network (network : Network)
  | range (range : Range)
  | port (port : Port)
  | portRange (portRange : PortRange)
  deriving DecidableEq, Repr

namespace Leaf

def label : Leaf → Label
  | host x => x.toLabel
  | network x => x.toLabel
  | range x => x.toLabel
  | port x => x.toLabel
  | portRange x => x.toLabel

def name (x : Leaf) : String := x.label.name

def kind : Leaf → Kind
  | host _ => .host
  | network _ => .network
  | range _ => .range
  | port _ => .port
  | portRange _ => .portRange

def family (x : Leaf) : Family := x.kind.family

def span : Leaf → Span
  | host x => .addresses x.address x.address
  | network x => .addresses x.address (x.address.broadcast x.mask)
  | range x => .addresses x.first x.last
  | port x => .ports x.protocol x.number x.number
  | portRange x => .ports x.protocol x.first x.last

def same : Leaf → Leaf → Bool
  | host x, host y => x.address == y.address
  | network x, network y => x.address == y.address && x.mask == y.mask
  | range x, range y => x.first == y.first && x.last == y.last
  | port x, port y => x.number == y.number && x.protocol == y.protocol
  | portRange x, portRange y => x.first == y.first && x.last == y.last && x.protocol == y.protocol
  | _, _ => false

/-- A host and a port are points: they cover nothing but the same point. -/
def isPoint : Leaf → Bool
  | host _ | port _ => true
  | network _ | range _ | portRange _ => false

/-- A point covers the points it matches, an interval all that lies within it. -/
def covers (x y : Leaf) : Bool :=
  if x.isPoint then x.same y else x.span.covers y.span

def text : Leaf → String
  | host x => "host " ++ x.name ++ " (" ++ x.address.text ++ ")"
  | network x => "network " ++ x.name ++ " (" ++ x.cidr ++ ")"
  | range x => "range " ++ x.name ++ " (" ++ x.first.text ++ "-" ++ x.last.text ++ ")"
  | port x => "port " ++ x.name ++ " (" ++ x.protocol.name ++ "/" ++ Text.numeral x.number ++ ")"
  | portRange x =>
    "port range " ++ x.name ++ " (" ++ x.protocol.name ++ "/" ++ Text.numeral x.first ++ "-" ++
      Text.numeral x.last ++ ")"

def typeName : Leaf → String
  | host _ => "Host"
  | network _ => "Network"
  | range _ => "Range"
  | port _ => "Port"
  | portRange _ => "PortRange"

end Leaf

end Rulebase
