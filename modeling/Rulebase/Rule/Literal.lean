import Rulebase.Object.Literal
import Rulebase.Rule

/-!
# Literals of groups and rules

A group is written out with all that it holds, a list for each kind, and a rule with its three sides.
-/

namespace Rulebase

def Registry.literal (registry : Registry) (uid : Object → String) : Nat → Object → String
  | _, .leaf x => x.literal (uid (.leaf x))
  | 0, .group _ => "..."
  | depth + 1, .group g =>
    let content := registry.content g
    let literals (objects : List Object) := listLiteral (objects.map (registry.literal uid depth))
    recordLiteral g.family.groupTypeName <|
      [("name", Text.quote g.name), ("comment", Text.quote g.comment),
        ("uid", Text.quote (uid (.group g)))] ++
      g.family.kinds.map (fun kind => (kind.listName, literals ((content.leaves kind).map .leaf))) ++
      [("groups", literals (content.groups.map .group))]

def Rule.literal (uid : String) (sides : List String) (rule : Rule) : String :=
  recordLiteral "Rule" <|
    [("number", rule.number.literal)] ++ ["source", "destination", "service"].zip sides ++
    [("action", rule.action.literal), ("comment", Text.quote rule.comment), ("uid", Text.quote uid)]

end Rulebase
