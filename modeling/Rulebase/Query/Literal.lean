import Rulebase.Group.Registry
import Rulebase.Object.Build

/-!
# Literals of queries

A literal is told apart by its form: an address, a network, a range of addresses, a port or a range of
ports. Any other text is a name. The forms exclude one another, so it does not matter in which order
they are tried; whether the parts of a form are valid is seen when the object is built.
-/

namespace Rulebase.Query

open Text

inductive Literal where
  | host (address : List Char)
  | network (cidr : List Char)
  | range (first last : List Char)
  | port (protocol number : List Char)
  | portRange (protocol first last : List Char)
  | name (name : List Char)
  deriving DecidableEq, Repr

def isFigures (cs : List Char) : Bool :=
  !cs.isEmpty && cs.all isDecimal

def isOctet (cs : List Char) : Bool :=
  isFigures cs && cs.length ≤ 3

def isQuad (cs : List Char) : Bool :=
  match split '.' cs with
  | [a, b, c, d] => isOctet a && isOctet b && isOctet c && isOctet d
  | _ => false

def isLetters (cs : List Char) : Bool :=
  !cs.isEmpty && cs.all Char.isAlpha

/-- Two quads with a dash between them, or a name. -/
def Literal.ofPlain (cs : List Char) : Literal :=
  match split '-' cs with
  | [first, last] => if isQuad first && isQuad last then .range first last else .name cs
  | _ => .name cs

/-- A protocol and what stands behind the slash, or a name. -/
def Literal.ofService (cs protocol numbers : List Char) : Literal :=
  match split '-' numbers with
  | [number] => if isFigures number then .port protocol number else .name cs
  | [first, last] => if isFigures first && isFigures last then .portRange protocol first last else .name cs
  | _ => .name cs

def Literal.ofChars (cs : List Char) : Literal :=
  if isQuad cs then .host cs
  else match split '/' cs with
    | [left, right] =>
      if isQuad left && isFigures right then .network cs
      else if isLetters left then Literal.ofService cs left right
      else .name cs
    | _ => Literal.ofPlain cs

/-- What an object built from a literal is called. -/
def filterLabel (kind : Kind) : Label :=
  match kind with
  | .host => { name := "filter host" }
  | .network => { name := "filter network" }
  | .range => { name := "filter range" }
  | .port => { name := "filter port" }
  | .portRange => { name := "filter port range" }

def part (cs : List Char) : Value :=
  .text (String.ofList cs)

def Literal.build : Literal → Built (Leaf ⊕ String)
  | host address => return .inl (.host (← Host.build (filterLabel .host) (part address)))
  | network cidr => return .inl (.network (← Network.ofCidr (filterLabel .network) (String.ofList cidr)))
  | range first last =>
    return .inl (.range (← Range.build (filterLabel .range) (part first) (part last)))
  | port protocol number =>
    return .inl (.port (← Port.build (filterLabel .port) (part number) (part protocol)))
  | portRange protocol first last =>
    return .inl (.portRange
      (← PortRange.build (filterLabel .portRange) (part first) (part last) (part protocol)))
  | name cs => return .inr (String.ofList cs)

/-- The objects that a query can name. -/
abbrev Catalog := String → Option Object

/-- The object of a name: from the catalog, or without one an unregistered group of that name. -/
def lookup (catalog : Option Catalog) (name : String) : Option Object :=
  match catalog with
  | none => some (.group (Registry.unregistered .address name))
  | some find => find name

end Rulebase.Query
