import Rulebase.Inventory
import Rulebase.Log
import Rulebase.Policy.Entry

/-!
# Loading in progress

Loading changes the registry of groups and the inventory and writes to the log. When it fails, what was
done before the failure stays done.
-/

namespace Rulebase.Policy

structure Loading where
  registry : Registry
  inventory : Inventory
  log : List Event := []

abbrev Load := ExceptT LoadError (StateM Loading)

structure Shelf (α : Type) where
  read : Inventory → Store α
  write : Inventory → Store α → Inventory

namespace Shelf

/-- The stores of an inventory. -/
def hosts : Shelf Host := ⟨Inventory.hosts, fun inventory hosts => { inventory with hosts }⟩

@[inherit_doc hosts]
def networks : Shelf Network := ⟨Inventory.networks, fun inventory networks => { inventory with networks }⟩

@[inherit_doc hosts]
def ranges : Shelf Range := ⟨Inventory.ranges, fun inventory ranges => { inventory with ranges }⟩

@[inherit_doc hosts]
def groups : Shelf Group := ⟨Inventory.groups, fun inventory groups => { inventory with groups }⟩

@[inherit_doc hosts]
def ports : Shelf Port := ⟨Inventory.ports, fun inventory ports => { inventory with ports }⟩

@[inherit_doc hosts]
def portRanges : Shelf PortRange :=
  ⟨Inventory.portRanges, fun inventory portRanges => { inventory with portRanges }⟩

@[inherit_doc hosts]
def portGroups : Shelf Group :=
  ⟨Inventory.portGroups, fun inventory portGroups => { inventory with portGroups }⟩

@[inherit_doc hosts]
def rules : Shelf Rule := ⟨Inventory.rules, fun inventory rules => { inventory with rules }⟩

end Shelf

/-- What was extracted, as a part of loading. -/
def extracted {α : Type} (x : Extracted α) : Load α :=
  ExceptT.mk (pure x)

def record (event : Event) : Load Unit :=
  modify fun state => { state with log := state.log ++ [event] }

def newGroup (family : Family) (label : Label) : Load { g : Group // g.family = family } := do
  let state ← get
  let created := state.registry.create family label
  set { state with registry := created.2 }
  return ⟨created.1, rfl⟩

def addMember (chapter : Chapter) (g : Group) (x : Object) : Load Unit := do
  let state ← get
  match state.registry.add g x with
  | .ok registry =>
    set { state with registry }
    record (.added x g (state.registry.slot g x))
  | .error cause => throw (.defect chapter (.refused g.name cause))

def addMembers (chapter : Chapter) (g : Group) (find : String → Option Object) : List Value → Load Unit
  | [] => return
  | v :: rest => do
    match find (← extracted (written v)) with
    | none => throw (.defect chapter (.unknownMember g.name v))
    | some x => addMember chapter g x
    addMembers chapter g find rest

def keep {α : Type} [Stored α] (shelf : Shelf α) (x : α) : Load Unit := do
  let state ← get
  let store := shelf.read state.inventory
  match store.create store.nextUid x with
  | (.ok (), store') =>
    set { state with inventory := shelf.write state.inventory store' }
    record (.stored store.kind store.nextUid)
  | (.error cause, _) => throw (.store cause)

def keepAll {α : Type} [Stored α] (shelf : Shelf α) : List α → Load Unit
  | [] => return
  | x :: rest => do
    keep shelf x
    keepAll shelf rest

/-- Stores objects one after another, each under a name that no object of the family has. -/
def keepUnique {α : Type} [Stored α] (chapter : Chapter) (family : Family) (shelf : Shelf α)
    (name : α → String) : List α → Load Unit
  | [] => return
  | x :: rest => do
    if ((← get).inventory.find family (name x)).isSome then
      throw (.defect chapter (.taken (name x)))
    keep shelf x
    keepUnique chapter family shelf name rest

end Rulebase.Policy
