import Rulebase.Policy.Leaves
import Rulebase.Policy.Loading

/-!
# Group sections

The groups of a section are created first and filled second, so a group may name one that stands
further down. Their names must be new, among themselves and among the objects of the family.
-/

namespace Rulebase.Policy

def groupChapter : Family → Chapter
  | .address => .groups
  | .service => .portGroups

/-- The groups of some entries, created in order; `created` are those of the entries before. -/
def createGroups (family : Family) (taken : String → Bool) :
    (created : List Group) → List Fields → Load (List Group)
  | created, [] => return created
  | created, fields :: rest => do
    let name ← extracted (requireText (groupChapter family) fields "name")
    if created.any (·.name = name) || taken name then
      throw (.defect (groupChapter family) (.taken name))
    let g ← newGroup family (← extracted (label fields name))
    createGroups family taken (created ++ [g.1]) rest

def fillGroups (family : Family) (find : String → Option Object) : List (Fields × Group) → Load Unit
  | [] => return
  | (fields, g) :: rest => do
    let names ← extracted (memberNames (groupChapter family) fields "members")
    addMembers (groupChapter family) g find names
    record (.extracted g ((← get).registry.count g))
    fillGroups family find rest

/-- The object of a name, groups in the making before those that are stored. -/
def findAmong (created : List Group) (find : String → Option Object) (name : String) : Option Object :=
  ((created.find? (·.name = name)).map .group) <|> find name

def groups (document : Fields) (family : Family) : Load (List Group) := do
  let inventory := (← get).inventory
  let entries ← extracted (entries document (groupChapter family))
  let created ← createGroups family (fun name => (inventory.find family name).isSome) [] entries
  fillGroups family (findAmong created (inventory.find family)) (entries.zip created)
  return created

end Rulebase.Policy
