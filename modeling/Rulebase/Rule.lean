import Rulebase.Group.Containment
import Rulebase.Group.Membership
import Rulebase.Value

/-!
# Rules

A rule refers to three groups: where traffic comes from, where it goes and which services it uses. A
side selects one of them, or source and destination together, as a group made for the occasion in
which both are nested. That group is labelled with the number of the rule, so it is not made when the
number has too many digits to be written.
-/

namespace Rulebase

structure Rule where
  number : Value
  source : Group
  destination : Group
  service : Group
  action : Value := .bool true
  comment : String := ""
  sourceFamily : source.family = .address
  destinationFamily : destination.family = .address
  serviceFamily : service.family = .service

/-- A rule in words, where its number can be written. -/
def Rule.text (rule : Rule) : String :=
  "rule " ++ rule.number.plain

/-- A rule in words, unless its number has too many digits. -/
def Rule.written (rule : Rule) : Except Text.NumeralError String :=
  if rule.number.isWritable then .ok rule.text else .error .tooLarge

def Rule.actionName (rule : Rule) : String :=
  if rule.action.truthy then "allow" else "deny"

inductive Side where
  | source
  | destination
  | service
  | any
  deriving DecidableEq, Repr

/-- Two groups in the order of their names, the first one first when the names are equal. -/
def byName (g h : Group) : List Group :=
  if nameBefore h.name g.name then [h, g] else [g, h]

/-- What the group of both ends of a rule is called, given the rule in words. -/
def bothLabel (words : String) : Label where
  name := "any"
  comment := "source and destination of " ++ words

/-- A group that nests the source and the destination of a rule, and the registry that holds it. -/
def Rule.nest (rule : Rule) (registry : Registry) (label : Label) : Group × Registry :=
  let (g, registry) := registry.create .address label
  (g, registry.setContent g ⟨fun _ => [], byName rule.source rule.destination⟩)

/-- The group of both ends of a rule, labelled with the rule in words before it is made. -/
def Rule.both (rule : Rule) (registry : Registry) : Except Text.NumeralError (Group × Registry) := do
  return rule.nest registry (bothLabel (← rule.written))

/-- The group a side selects, and the registry to read it in. -/
def Rule.select (rule : Rule) (registry : Registry) :
    Side → Except Text.NumeralError (Group × Registry)
  | .source => .ok (rule.source, registry)
  | .destination => .ok (rule.destination, registry)
  | .service => .ok (rule.service, registry)
  | .any => rule.both registry

/-- Why a test of a rule has no answer. -/
inductive TestError where
  /-- The group of the side refuses the object. -/
  | refused (cause : MembershipError)
  /-- The number of the rule cannot be written. -/
  | numeral (cause : Text.NumeralError)
  deriving DecidableEq, Repr

/-- A question put to the group that a side selects. -/
def Rule.ask (rule : Rule) (registry : Registry) (side : Side)
    (question : Registry → Group → Except MembershipError Bool) : Except TestError Bool := do
  let (g, registry) ← (rule.select registry side).mapError .numeral
  (question registry g).mapError .refused

/-- A test of one side of a rule: that it has an object, or that it contains one. -/
inductive Atom where
  | has (object : Object) (side : Side)
  | contains (object : Object) (side : Side)
  deriving DecidableEq, Repr

/-- Whether a rule passes a test. -/
def Atom.holds (registry : Registry) (rule : Rule) : Atom → Except TestError Bool
  | has object side => rule.ask registry side (·.hasObject · object)
  | contains object side => rule.ask registry side (·.groupContains · object)

end Rulebase
