import Rulebase.Object.Build
import Rulebase.Rule
import Rulebase.Store.Basic

/-!
# Stores of the kinds of objects

Leaves and groups are appended, and rules are kept by number, rules of one number in the order in which
they came. Stores of hosts, networks and ranges can be searched by value.
-/

namespace Rulebase

instance : Stored Host where
  name? x := some x.name
  text x := (Leaf.host x).text

instance : Stored Network where
  name? x := some x.name
  text x := (Leaf.network x).text

instance : Stored Range where
  name? x := some x.name
  text x := (Leaf.range x).text

instance : Stored Port where
  name? x := some x.name
  text x := (Leaf.port x).text

instance : Stored PortRange where
  name? x := some x.name
  text x := (Leaf.portRange x).text

instance : Stored Group where
  name? g := some g.name
  text := Group.text

/-- The entries with one put after those whose number does not come later. -/
def placeByNumber {α : Type} (number : α → Value) (entry : Uid × α) (entries : List (Uid × α)) :
    Except StoreError (List (Uid × α)) :=
  let before (other : Uid × α) := Value.less? (number entry.2) (number other.2)
  match Order.search? before entries 0 entries.length with
  | .ok index => .ok (entries.insertIdx index entry)
  | .error cause => .error (.unordered cause)

instance : Stored Rule where
  name? _ := none
  text := Rule.text
  place _ := placeByNumber Rule.number

namespace Store

def hostsAt (store : Store Host) (address : Value) : Built (List (Uid × Host)) := do
  let wanted ← Address.build address
  return store.entries.filter (·.2.address = wanted)

def networksAt (store : Store Network) (cidr : String) : Built (List (Uid × Network)) := do
  let wanted ← Network.ofCidr { name := "" } cidr
  return store.entries.filter fun entry => (Leaf.network entry.2).same (.network wanted)

def rangesAt (store : Store Range) (text : String) : Built (List (Uid × Range)) := do
  let wanted ← Range.ofText { name := "" } text
  return store.entries.filter fun entry => (Leaf.range entry.2).same (.range wanted)

end Store

end Rulebase
