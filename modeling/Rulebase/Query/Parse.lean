import Rulebase.Condition
import Rulebase.Query.Error
import Rulebase.Query.Literal
import Rulebase.Rule

/-!
# Parsing queries

A query is one expression in parentheses: `has` or `contains` with a quoted literal and perhaps a side
of the rule, `and` or `or` with at least one expression, or `not` with exactly one. Line feeds may stand
between any two tokens. Without a side, a service is looked up in the service of the rule and any other
object in source and destination together.
-/

namespace Rulebase.Query

/-- What parsing depends on besides the tokens: the objects that can be named, and the token that stands
at the end. -/
structure Setting where
  catalog : Option Catalog
  finish : Token

/-- A part of the parsing: it takes tokens from the front of the list, or fails. -/
abbrev Parser := StateT (List Token) (Except QueryError)

def fail {m : Type → Type} [MonadExcept QueryError m] {α : Type} (complaint : Complaint) (offset : Nat) :
    m α :=
  throw (.malformed complaint offset)

/-- The next token that is no line feed; a fault in its place is an error. -/
def next (setting : Setting) : Parser Token
  | [] => .ok (setting.finish, [])
  | token :: rest =>
    match token.lexeme with
    | .newline => next setting rest
    | .fault fault => .error (.fault fault token.offset)
    | _ => .ok (token, rest)

def expect {α : Type} (setting : Setting) (wanted : Wanted) (pick : Lexeme → Option α) :
    Parser (α × Nat) := do
  let token ← next setting
  match pick token.lexeme with
  | some a => return (a, token.offset)
  | none => fail (.expected wanted token.lexeme) token.offset

/-- A token without a text of its own. -/
def exactly (lexeme : Lexeme) (found : Lexeme) : Option Unit :=
  if found = lexeme then some () else none

def keyword? : Lexeme → Option String
  | .keyword word => some word
  | _ => none

def parameter? : Lexeme → Option String
  | .parameter word => some word
  | _ => none

def denoted (catalog : Option Catalog) (literal : String) (offset : Nat) : Except QueryError Object :=
  let cs := Text.trim literal.toList
  if cs = [] then fail .emptyLiteral offset
  else match (Literal.ofChars cs).build with
    | .ok (.inl leaf) => .ok (.leaf leaf)
    | .ok (.inr name) =>
      match lookup catalog name with
      | some object => .ok object
      | none => fail (.unknownGroup name) offset
    | .error (.invalid cause) => fail (.invalidLiteral literal cause) offset
    | .error (.numeral cause) => .error (.numeral cause)

def quotedObject (setting : Setting) : Parser Object := do
  let _ ← expect setting .openingQuote (exactly .quote)
  let (literal, offset) ← expect setting .literal parameter?
  let _ ← expect setting .closingQuote (exactly .quote)
  denoted setting.catalog literal offset

def side? (word : String) : Option Side :=
  [("src", Side.source), ("source", .source), ("dst", .destination), ("destination", .destination),
    ("svc", .service), ("service", .service), ("any", .any)].lookup word

/-- The side where an object is looked up by default. -/
def defaultSide : Family → Side
  | .address => .any
  | .service => .service

/-- The side that a word names for an object: services stand with the service, and nothing else does. -/
def sideFor (object : Object) (word : String) (offset : Nat) : Except QueryError Side :=
  match side? word with
  | none => fail (.unknownSide word) offset
  | some side =>
    match object.family with
    | .service => if side = .service then .ok side else fail (.serviceElsewhere word) offset
    | .address => if side = .service then fail .addressInService offset else .ok side

/-- The rest of a test after its literal: a side, bare or in parentheses, and the closing parenthesis. -/
def selector (setting : Setting) (object : Object) : Parser Side := do
  let token ← next setting
  match token.lexeme with
  | .rightParen => return defaultSide object.family
  | .leftParen =>
    let (word, offset) ← expect setting .selectorWord keyword?
    if word = "in" then
      let (side, offset) ← expect setting .side parameter?
      let _ ← expect setting .closingSelector (exactly .rightParen)
      let _ ← expect setting .closing (exactly .rightParen)
      sideFor object side offset
    else fail (.expected .selectorWord (.keyword word)) offset
  | .parameter "in" =>
    let (side, offset) ← expect setting .side parameter?
    let _ ← expect setting .closing (exactly .rightParen)
    sideFor object side offset
  | got => fail (.expected .selector got) token.offset

def atom (setting : Setting) (make : Object → Side → Atom) : Parser (Condition Atom) := do
  let object ← quotedObject setting
  return .test (make object (← selector setting object))

mutual

/-- An expression after its opening parenthesis. Every step takes a token, so as many steps as there
are tokens are enough. -/
def expression (setting : Setting) : (steps : Nat) → Parser (Condition Atom)
  | 0 => fail .empty setting.finish.offset
  | steps + 1 => do
    let (word, offset) ← expect setting .keyword keyword?
    match word with
    | "has" => atom setting .has
    | "contains" => atom setting .contains
    | "and" => return .all (← operands setting .all true steps)
    | "or" => return .any (← operands setting .any true steps)
    | "not" =>
      let _ ← expect setting .negated (exactly .leftParen)
      let condition ← expression setting steps
      let _ ← expect setting .closingNot (exactly .rightParen)
      return .not condition
    | _ => fail (.unknownKeyword word) offset

def operands (setting : Setting) (junction : Junction) (first : Bool) :
    (steps : Nat) → Parser (List (Condition Atom))
  | 0 => fail .empty setting.finish.offset
  | steps + 1 => do
    let token ← next setting
    match token.lexeme with
    | .leftParen =>
      let condition ← expression setting steps
      return condition :: (← operands setting junction false steps)
    | .rightParen => if first then fail (.noOperands junction) token.offset else return []
    | got => fail (.expected (.operand junction) got) token.offset

end

def query (setting : Setting) (steps : Nat) : Parser (Condition Atom) := do
  let token ← next setting
  match token.lexeme with
  | .finish => fail .empty token.offset
  | .leftParen =>
    let condition ← expression setting steps
    let token ← next setting
    if token.lexeme = .finish then return condition
    else fail (.trailing token.lexeme) token.offset
  | got => fail (.expected .opening got) token.offset

def parse (catalog : Option Catalog) (text : String) : Except QueryError (Condition Atom) :=
  let found := tokens text
  (query ⟨catalog, finish text⟩ found.length).run' found

def holds (registry : Registry) (rule : Rule) (query : Condition Atom) :
    Except TestError Bool :=
  query.eval (Atom.holds registry rule)

end Rulebase.Query
