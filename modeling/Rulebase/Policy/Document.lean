import Rulebase.Policy.Extract
import Rulebase.Yaml.Document

/-!
# Policy documents

A policy is written as a YAML document. An empty document is a policy without sections; a document of
any other kind than a mapping is refused.
-/

namespace Rulebase.Policy

def sections (text : List Char) : Extracted Fields :=
  match Yaml.read text with
  | .ok .null => .ok []
  | .ok (.mapping fields) => .ok fields
  | .ok _ => .error .notSections
  | .error .malformed => .error .unreadable
  | .error (.numeral cause) => .error (.numeral cause)

structure Loaded where
  inventory : Extracted Inventory
  registry : Registry
  log : List Event

/-- Loads a policy from its text. The groups are entered in a registry that may hold others. -/
def load (registry : Registry) (sourceFile : String) (text : List Char) : Loaded :=
  match sections text with
  | .error cause => ⟨.error cause, registry, []⟩
  | .ok document =>
    match written (field document "name") with
    | .error cause => ⟨.error cause, registry, []⟩
    | .ok name =>
      let (outcome, state) := (extract document).run.run { registry, inventory := { name, sourceFile } }
      ⟨outcome.map fun _ => state.inventory, state.registry, state.log⟩

end Rulebase.Policy
