import Rulebase.Group.Basic
import Rulebase.Object.Build
import Rulebase.Store.Basic

/-!
# Sections and entries of a policy

A policy document is a mapping of sections, each a list of entries, and an entry is a mapping of
fields. Here fields are read and defects of a document are put into words.
-/

namespace Rulebase.Policy

abbrev Fields := List (Value × Value)

/-- The sections of a policy, in the order in which they are extracted. -/
inductive Chapter where
  | hosts
  | networks
  | ranges
  | groups
  | ports
  | portRanges
  | portGroups
  | rules
  deriving DecidableEq, Repr

def Chapter.key : Chapter → String
  | hosts => "hosts"
  | networks => "networks"
  | ranges => "ranges"
  | groups => "groups"
  | ports => "ports"
  | portRanges => "port_ranges"
  | portGroups => "port_groups"
  | rules => "rules"

inductive Defect where
  | notList
  | notMapping (entry : Value)
  | missing (label : Value) (key : String)
  | invalid (kind : StoreKind) (name : String) (cause : Invalid)
  | unknownMember (group : String) (member : Value)
  | refused (group : String) (cause : MembershipError)
  | notNames (key : String)
  | taken (name : String)
  | notNumber (given : Value)
  | unknownAction (number : Int) (action : Value)
  deriving DecidableEq, Repr

def Defect.message : Defect → String
  | notList => "section must be a list"
  | notMapping entry => "entry must be a mapping: " ++ entry.literal
  | missing label key => "'" ++ label.plain ++ "' is missing '" ++ key ++ "'"
  | invalid kind name cause => kind.name ++ " '" ++ name ++ "': " ++ cause.message
  | unknownMember group member => "'" ++ group ++ "' refers to unknown object '" ++ member.plain ++ "'"
  | refused group cause => "'" ++ group ++ "': " ++ cause.message
  | notNames key => "'" ++ key ++ "' must be a list of names"
  | taken name => "duplicate object name '" ++ name ++ "'"
  | notNumber given => "rule number must be an integer: " ++ given.literal
  | unknownAction number action =>
    "rule " ++ Text.integer number ++ ": unknown action '" ++ action.plain ++ "'"

def Defect.isWritable : Defect → Bool
  | notMapping given | missing given _ | unknownMember _ given | notNumber given => given.isWritable
  | invalid _ _ cause => cause.isWritable
  | unknownAction number action => Text.isWritable number && action.isWritable
  | notList | refused _ _ | notNames _ | taken _ => true

/-- Why a policy is not loaded: its text is no document, the document is no mapping, a section has a
defect, a numeral cannot be read or written, or a store refuses an object. -/
inductive LoadError where
  | unreadable
  | notSections
  | defect (chapter : Chapter) (cause : Defect)
  | numeral (cause : Text.NumeralError)
  | store (cause : StoreError)
  deriving DecidableEq, Repr

def LoadError.message : LoadError → String
  | unreadable => "invalid YAML"
  | notSections => "policy file must be a mapping of sections"
  | defect chapter cause => "[" ++ chapter.key ++ "] " ++ cause.message
  | numeral cause => cause.message
  | store cause => cause.message

def LoadError.chapterKey : LoadError → String
  | defect chapter _ => chapter.key
  | _ => ""

abbrev Extracted (α : Type) := Except LoadError α

/-- A section has a defect; where what it shows cannot be written, that is reported instead. -/
def blame {α : Type} (chapter : Chapter) (cause : Defect) : Extracted α :=
  if cause.isWritable then .error (.defect chapter cause) else .error (.numeral .tooLarge)

def field (fields : Fields) (key : String) : Value :=
  (Value.get? fields key).getD .null

/-- The text of a value: none for null. -/
def textOf : Value → String
  | .null => ""
  | v => v.plain

def written (v : Value) : Extracted String :=
  if v.isWritable then .ok (textOf v) else .error (.numeral .tooLarge)

/-- How messages call an entry: by its name, else by its number, else by a question mark. -/
def labelOf (fields : Fields) : Value :=
  (Value.get? fields "name").getD ((Value.get? fields "number").getD (.text "?"))

/-- A field that must not be absent, null or an empty text. -/
def require (chapter : Chapter) (fields : Fields) (key : String) : Extracted Value :=
  match field fields key with
  | .null | .text "" => blame chapter (.missing (labelOf fields) key)
  | v => .ok v

def requireText (chapter : Chapter) (fields : Fields) (key : String) : Extracted String :=
  require chapter fields key >>= written

def fieldsOf (chapter : Chapter) : Value → Extracted Fields
  | .mapping fields => .ok fields
  | v => blame chapter (.notMapping v)

def entries (document : Fields) (chapter : Chapter) : Extracted (List Fields) :=
  let v := field document chapter.key
  if !v.truthy then .ok []
  else match v with
    | .list items => items.mapM (fieldsOf chapter)
    | _ => blame chapter .notList

/-- The object built for a name, or the defect that kept it from being built. -/
def built {α : Type} (chapter : Chapter) (kind : StoreKind) (name : String) : Built α → Extracted α
  | .ok x => .ok x
  | .error (.invalid cause) => blame chapter (.invalid kind name cause)
  | .error (.numeral cause) => .error (.numeral cause)

/-- The names in a field: a list of them, a single text, or none. -/
def memberNames (chapter : Chapter) (fields : Fields) (key : String) : Extracted (List Value) :=
  let v := field fields key
  if !v.truthy then .ok []
  else match v with
    | .text _ => .ok [v]
    | .list items => .ok items
    | _ => blame chapter (.notNames key)

end Rulebase.Policy
