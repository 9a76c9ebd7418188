import Rulebase.Query.Literal
import Rulebase.Store.Kinds

/-!
# Inventories

An inventory holds everything a policy defines, a store for each kind. Addresses and services have
name spaces of their own, each searched kind by kind. The groups of both together are the catalog that
queries name groups from; an address group hides a service group of its name there.
-/

namespace Rulebase

structure Inventory where
  hosts : Store Host := { kind := .host }
  networks : Store Network := { kind := .network }
  ranges : Store Range := { kind := .range }
  groups : Store Group := { kind := .group }
  ports : Store Port := { kind := .port }
  portRanges : Store PortRange := { kind := .portRange }
  portGroups : Store Group := { kind := .portGroup }
  rules : Store Rule := { kind := .rule }
  name : String := ""
  sourceFile : String := ""

namespace Inventory

def findGroup (inventory : Inventory) (name : String) : Option Group :=
  inventory.groups.find? name

def findAddress (inventory : Inventory) (name : String) : Option Object :=
  (inventory.hosts.find? name).map (.leaf <| .host ·) <|>
  (inventory.networks.find? name).map (.leaf <| .network ·) <|>
  (inventory.ranges.find? name).map (.leaf <| .range ·) <|>
  (inventory.groups.find? name).map .group

def findService (inventory : Inventory) (name : String) : Option Object :=
  (inventory.ports.find? name).map (.leaf <| .port ·) <|>
  (inventory.portRanges.find? name).map (.leaf <| .portRange ·) <|>
  (inventory.portGroups.find? name).map .group

def find (inventory : Inventory) : Family → String → Option Object
  | .address => inventory.findAddress
  | .service => inventory.findService

/-- The groups that queries can name: of two groups of one name the last stored, and a group of
addresses before one of services. -/
def catalog (inventory : Inventory) : Query.Catalog := fun name =>
  ((inventory.portGroups.values ++ inventory.groups.values).reverse.find? (·.name = name)).map .group

def catalogNames (inventory : Inventory) : List String :=
  ((inventory.portGroups.values ++ inventory.groups.values).map (·.name)).eraseDups

end Inventory

end Rulebase
