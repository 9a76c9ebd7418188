import Rulebase.Group.Basic
import Rulebase.Store.Basic

/-!
# The log

What happens while a policy is loaded and queried is recorded as events, each of a level, and put into
words when the log is shown.
-/

namespace Rulebase

inductive Level where
  | debug
  | info
  | error
  deriving DecidableEq, Repr

inductive Event where
  | reading (path : String)
  | stored (kind : StoreKind) (uid : Uid)
  | added (object : Object) (group : Group) (index : Nat)
  | extracted (group : Group) (count : Nat)
  | loaded (rules groups portGroups : Nat)
  | parsed (query : String)
  | matched (found total : Nat)
  | notFound (path : String)
  | notReadable (path reason : String)
  | failed (message : String)
  deriving DecidableEq, Repr

def Event.level : Event → Level
  | reading .. | stored .. | added .. | extracted .. | parsed .. => .debug
  | loaded .. | matched .. => .info
  | notFound .. | notReadable .. | failed .. => .error

def Level.name : Level → String
  | debug => "DEBUG"
  | info => "INFO"
  | error => "ERROR"

def Event.text (uidText : Uid → String) : Event → String
  | reading path => "Reading policy: " ++ path
  | stored kind uid => "Stored " ++ kind.name ++ " " ++ uidText uid
  | added object group index =>
    "Added " ++ object.text ++ " to " ++ group.family.groupName ++ " '" ++ group.name ++ "' at index " ++
      Text.numeral index
  | extracted group count => "Extracted " ++ group.text ++ " with " ++ Text.numeral count ++ " member(s)"
  | loaded rules groups portGroups =>
    "Loaded " ++ Text.numeral rules ++ " rule(s), " ++ Text.numeral groups ++ " group(s), " ++
      Text.numeral portGroups ++ " port group(s)"
  | parsed query => "Parsed query: " ++ query
  | matched found total => Text.numeral found ++ " of " ++ Text.numeral total ++ " rule(s) matched"
  | notFound path => "Policy file not found: " ++ path
  | notReadable path reason => "Cannot read policy file " ++ path ++ ": " ++ reason
  | failed message => message

def Event.line (uidText : Uid → String) (event : Event) : String :=
  event.level.name ++ ": " ++ event.text uidText ++ "\n"

/-- The lines of a log: debugging events are shown on demand. -/
def logText (uidText : Uid → String) (verbose : Bool) (events : List Event) : String :=
  String.join ((events.filter fun event => verbose || event.level ≠ .debug).map (Event.line uidText))

end Rulebase
