import Rulebase.Yaml.Scalar

/-!
# Nodes

A well-formed document is a tree of nodes. Not every node has a value: a numeral can be unreadable, a
tag unknown, and a list or a mapping cannot be a key. Of several such faults the one nearest to the
root counts, and at the same depth the first.
-/

namespace Rulebase.Yaml

/-- A part of a document. -/
inductive Node where
  /-- A scalar without quotes, whose text decides what it is. -/
  | plain (text : String)
  | quoted (text : String)
  /-- A node whose tag is unknown. -/
  | foreign
  | sequence (items : List Node)
  | mapping (entries : List (Node × Node))
  deriving Repr, Inhabited

namespace Node

def empty : Node := plain ""

def fault? : Node → Option YamlError
  | plain text =>
    match scalar text with
    | .ok _ => none
    | .error cause => some cause
  | foreign => some .malformed
  | quoted _ | sequence _ | mapping _ => none

/-- Why a node cannot be a key. A sign that stands for nothing is a text there. -/
def keyFault? : Node → Option YamlError
  | sequence _ | mapping _ => some .malformed
  | plain text => if text ∈ idleSigns then none else (plain text).fault?
  | node => node.fault?

/-- Two rows of levels side by side. -/
def beside {α : Type} : List (List α) → List (List α) → List (List α)
  | [], levels => levels
  | levels, [] => levels
  | xs :: levels, ys :: others => (xs ++ ys) :: beside levels others

mutual

/-- The faults below a node, a list for each depth. -/
def faultsBelow : Node → List (List YamlError)
  | sequence items => items.filterMap fault? :: itemFaults items
  | mapping entries =>
    (entries.flatMap fun entry => entry.1.keyFault?.toList ++ entry.2.fault?.toList) :: entryFaults entries
  | plain _ | quoted _ | foreign => []

def itemFaults : List Node → List (List YamlError)
  | [] => []
  | node :: rest => beside node.faultsBelow (itemFaults rest)

def entryFaults : List (Node × Node) → List (List YamlError)
  | [] => []
  | (_, node) :: rest => beside node.faultsBelow (entryFaults rest)

end

def firstFault? (node : Node) : Option YamlError :=
  node.fault? <|> node.faultsBelow.flatten.head?

mutual

/-- The value of a node. A scalar at fault counts as its text and a tagged node as null. A mapping keeps the
last value of a key. -/
def value : Node → Value
  | plain text =>
    match scalar text with
    | .ok v => v
    | .error _ => .text text
  | quoted text => .text text
  | foreign => .null
  | sequence items => .list (itemValues items)
  | mapping entries => .mapping (entryValues [] entries)

def itemValues : List Node → List Value
  | [] => []
  | node :: rest => node.value :: itemValues rest

def entryValues (before : List (Value × Value)) : List (Node × Node) → List (Value × Value)
  | [] => before
  | (key, node) :: rest => entryValues (Value.put before key.value node.value) rest

end

def value? (node : Node) : Except YamlError Value :=
  match node.firstFault? with
  | none => .ok node.value
  | some cause => .error cause

end Node

end Rulebase.Yaml
