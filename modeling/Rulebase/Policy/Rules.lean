import Rulebase.Policy.Loading

/-!
# The section of rules

A rule has an integer number, an action, and three groups of its own for the objects that it names as
source, destination and service.
-/

namespace Rulebase.Policy

def ruleNumber (fields : Fields) : Extracted Int := do
  match ← require .rules fields "number" with
  | .int number => return number
  | given => blame .rules (.notNumber given)

/-- Whether a word for an action lets traffic pass. -/
def allows? (word : String) : Option Bool :=
  [("allow", true), ("accept", true), ("permit", true), ("deny", false), ("drop", false),
    ("reject", false)].lookup word.toLower

/-- Whether a rule lets traffic pass, which it does when nothing is said. -/
def ruleAction (fields : Fields) (number : Int) : Extracted Bool :=
  match (Value.get? fields "action").getD (.text "allow") with
  | .bool b => .ok b
  | given =>
    return ← match allows? (← written given) with
    | some b => .ok b
    | none => blame .rules (.unknownAction number given)

def sideGroup (family : Family) (number side : String) : Load { g : Group // g.family = family } :=
  newGroup family { name := "rule-" ++ number ++ "-" ++ side }

def fillSide (fields : Fields) (g : Group) (find : String → Option Object) (side : String) : Load Unit := do
  addMembers .rules g find (← extracted (memberNames .rules fields side))

def rule (inventory : Inventory) (fields : Fields) : Load Rule := do
  let number ← extracted (ruleNumber fields)
  let allowed ← extracted (ruleAction fields number)
  let numeral ← extracted (written (.int number))
  let source ← sideGroup .address numeral "source"
  let destination ← sideGroup .address numeral "destination"
  let service ← sideGroup .service numeral "service"
  fillSide fields source.1 inventory.findAddress "source"
  fillSide fields destination.1 inventory.findAddress "destination"
  fillSide fields service.1 inventory.findService "service"
  let comment ← extracted (written (field fields "comment"))
  return {
    number := .int number
    source := source.1
    destination := destination.1
    service := service.1
    action := .bool allowed
    comment
    sourceFamily := source.2
    destinationFamily := destination.2
    serviceFamily := service.2 }

def ruleList (inventory : Inventory) : List Fields → Load (List Rule)
  | [] => return []
  | fields :: rest => do
    let first ← rule inventory fields
    return first :: (← ruleList inventory rest)

def rules (document : Fields) : Load (List Rule) := do
  let inventory := (← get).inventory
  ruleList inventory (← extracted (entries document .rules))

end Rulebase.Policy
