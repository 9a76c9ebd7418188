import Rulebase.Store.Kinds

/-!
# Stores of anything

A store can be given objects of other kinds than its own. In a store of rules each needs a number to
have a place, and a search by value asks each for what its kind of store compares.
-/

namespace Rulebase

inductive Item where
  | object (object : Object)
  | rule (rule : Rule)

namespace Item

def typeName : Item → String
  | object x => x.typeName
  | rule _ => "Rule"

/-- The number that places an item among rules. -/
def number? : Item → Option Value
  | object (.leaf (.port p)) => some (.int p.number)
  | object _ => none
  | rule r => some r.number

/-- Why an item has no such part. -/
def lacks (item : Item) (part : String) : Misuse := .missing item.typeName part

/-- An item is at an address: a host, or a network with this base. -/
def isAt (address : Address) : Item → Except Misuse Bool
  | object (.leaf (.host h)) => .ok (h.address = address)
  | object (.leaf (.network n)) => .ok (n.address = address)
  | item => .error (item.lacks "address")

def same (x : Leaf) : Item → Except Misuse Bool
  | object (.leaf y) => .ok (y.same x)
  | object (.group _) => .ok false
  | item => .error (item.lacks "match")

instance : Stored Item where
  name?
    | object x => some x.name
    | rule _ => none
  text
    | object x => x.text
    | rule r => r.text
  place kind entry entries :=
    match kind, entry.2.number? with
    | .rule, none => .error (.misused (entry.2.lacks "number"))
    | .rule, some _ => placeByNumber (fun item => item.number?.getD .null) entry entries
    | _, _ => .ok (entries ++ [entry])

end Item

end Rulebase
