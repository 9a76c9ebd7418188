import Rulebase.Inventory
import Rulebase.Query.Parse

/-!
# Reports

What is shown to a user: the rules that a query asks for, a line for each of them, a line for each token
of a query, and a summary of what a policy holds.
-/

namespace Rulebase

/-- The text with blanks in front, to a width at least. -/
def padLeft (width : Nat) (s : String) : String :=
  String.ofList (List.replicate (width - s.length) ' ') ++ s

def padRight (width : Nat) (s : String) : String :=
  s ++ String.ofList (List.replicate (width - s.length) ' ')

def reportedKinds : Family → List Kind
  | .address => [.host, .network, .range]
  | .service => [.portRange, .port]

def memberList (registry : Registry) (g : Group) : String :=
  let content := registry.content g
  let leafNames := (reportedKinds g.family).flatMap fun kind => (content.leaves kind).map Leaf.name
  let names := ",".intercalate (leafNames ++ content.groups.map (·.name))
  if names = "" then "-" else names

/-- The line of a rule whose number can be written: number, action, members of its groups, and comment. -/
def Rule.line (registry : Registry) (rule : Rule) : String :=
  padLeft 5 rule.number.plain ++ "  " ++ padRight 5 rule.actionName ++ "  src=" ++
    memberList registry rule.source ++ "  dst=" ++ memberList registry rule.destination ++ "  svc=" ++
    memberList registry rule.service ++ (if rule.comment = "" then "" else "  # " ++ rule.comment)

/-- The line of a token: offset, type and text. -/
def Query.Token.line (token : Query.Token) : String :=
  padLeft 4 (Text.numeral token.offset) ++ "  " ++ padRight 12 token.lexeme.typeName ++ " " ++
    Text.quote token.lexeme.text

/-- Why a search gives no rules: the query is refused, or a rule fails to be tested. -/
inductive SearchError where
  | refused (cause : Query.QueryError)
  | failed (cause : TestError)
  deriving Repr

namespace Inventory

def select (inventory : Inventory) (registry : Registry) (condition : Condition Atom) :
    Except TestError (List Rule) :=
  inventory.rules.values.filterM fun rule => Query.holds registry rule condition

def search (inventory : Inventory) (registry : Registry) (query : String) :
    Except SearchError (List Rule) :=
  match Query.parse (some inventory.catalog) query with
  | .error cause => .error (.refused cause)
  | .ok condition => (inventory.select registry condition).mapError .failed

def summaryRule : String := String.ofList (List.replicate 60 '=')

def summary (inventory : Inventory) : List String :=
  let line (title : String) (size : Nat) := "  " ++ padRight 22 (title ++ ":") ++ Text.numeral size
  ["", summaryRule, "  wherecp Policy Summary " ++ inventory.sourceFile, summaryRule,
    line "Hosts" inventory.hosts.size, line "Networks" inventory.networks.size,
    line "Ranges" inventory.ranges.size, line "Groups" inventory.groups.size,
    line "Ports" inventory.ports.size, line "Port Ranges" inventory.portRanges.size,
    line "Port Groups" inventory.portGroups.size, line "Rules" inventory.rules.size, summaryRule]

end Inventory

end Rulebase
