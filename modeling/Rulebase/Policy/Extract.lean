import Rulebase.Policy.Groups
import Rulebase.Policy.Rules

/-!
# Extracting a policy

The sections are extracted in a fixed order, each stored before the next is looked at: leaves of
addresses, groups of addresses, leaves of services, groups of services, and rules. The first defect
ends the extraction, and what was stored before it stays stored.
-/

namespace Rulebase.Policy

def extractLeaves {α : Type} [Stored α] (document : Fields) (chapter : Chapter) (family : Family)
    (shelf : Shelf α) (name : α → String) (leaf : Fields → Extracted α) : Load Unit := do
  keepUnique chapter family shelf name (← extracted (leaves document chapter leaf))

def extractGroups (document : Fields) (family : Family) (shelf : Shelf Group) : Load Unit := do
  keepAll shelf (← groups document family)

def extract (document : Fields) : Load Unit := do
  extractLeaves document .hosts .address .hosts (·.name) host
  extractLeaves document .networks .address .networks (·.name) network
  extractLeaves document .ranges .address .ranges (·.name) range
  extractGroups document .address .groups
  extractLeaves document .ports .service .ports (·.name) port
  extractLeaves document .portRanges .service .portRanges (·.name) portRange
  extractGroups document .service .portGroups
  keepAll .rules (← rules document)
  let inventory := (← get).inventory
  record (.loaded inventory.rules.size inventory.groups.size inventory.portGroups.size)

end Rulebase.Policy
