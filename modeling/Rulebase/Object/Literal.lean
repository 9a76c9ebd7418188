import Rulebase.Object.Leaf

/-!
# Literals of leaves

A leaf is written out as the name of its type and its fields in order, texts quoted. Identifiers are kept
elsewhere and are given to the writer.
-/

namespace Rulebase

def recordLiteral (typeName : String) (fields : List (String × String)) : String :=
  typeName ++ "(" ++ ", ".intercalate (fields.map fun (name, text) => name ++ "=" ++ text) ++ ")"

def listLiteral (literals : List String) : String :=
  "[" ++ ", ".intercalate literals ++ "]"

def Address.literal (a : Address) : String :=
  "Address(" ++ Text.quote a.text ++ ")"

def Protocol.literal (p : Protocol) : String :=
  "<Protocol." ++ p.capitals ++ ": " ++ Text.numeral p.number ++ ">"

def Span.literal : Span → String
  | addresses a b => recordLiteral "NetworkInterval" [("start", a.literal), ("end", b.literal)]
  | ports p a b =>
    recordLiteral "PortInterval"
      [("start", Text.integer a), ("end", Text.integer b), ("protocol", p.literal)]

namespace Leaf

def valueFields : Leaf → List (String × String)
  | host x => [("address", x.address.literal)]
  | network x => [("address", x.address.literal), ("mask", x.mask.literal)]
  | range x => [("start_address", x.first.literal), ("end_address", x.last.literal)]
  | port x => [("number", Text.numeral x.number), ("protocol", x.protocol.literal)]
  | portRange x =>
    [("start", Text.numeral x.first), ("end", Text.numeral x.last), ("protocol", x.protocol.literal)]

def literal (uid : String) (x : Leaf) : String :=
  recordLiteral x.typeName <| [("name", Text.quote x.name)] ++ x.valueFields ++
    [("comment", Text.quote x.label.comment), ("uid", Text.quote uid)]

end Leaf

end Rulebase
