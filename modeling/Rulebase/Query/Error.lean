import Rulebase.Object.Invalid
import Rulebase.Query.Token

/-!
# Errors of queries

A query is refused because of a fault in its text, because its tokens are no query, or because of a
numeral that cannot be read. The first two are placed at an offset of the text.
-/

namespace Rulebase.Query

inductive Junction where
  | all
  | any
  deriving DecidableEq, Repr

def Junction.word : Junction → String
  | all => "and"
  | any => "or"

inductive Wanted where
  | opening
  | keyword
  | openingQuote
  | literal
  | closingQuote
  | operand (junction : Junction)
  | negated
  | closingNot
  | selectorWord
  | side
  | closingSelector
  | selector
  | closing
  deriving DecidableEq, Repr

def Wanted.text : Wanted → String
  | opening => "'('"
  | keyword => "keyword"
  | openingQuote => "opening quote"
  | literal => "quoted literal"
  | closingQuote => "closing quote"
  | operand junction => "'(' or ')' in '" ++ junction.word ++ "'"
  | negated => "'(' after 'not'"
  | closingNot => "')' closing 'not'"
  | selectorWord => "'in'"
  | side => "rule side"
  | closingSelector => "')' closing 'in'"
  | selector => "'in' or ')'"
  | closing => "')'"

inductive Complaint where
  | empty
  | expected (wanted : Wanted) (got : Lexeme)
  | trailing (got : Lexeme)
  | unknownKeyword (word : String)
  | noOperands (junction : Junction)
  | emptyLiteral
  | invalidLiteral (literal : String) (cause : Invalid)
  | unknownGroup (name : String)
  | unknownSide (word : String)
  | serviceElsewhere (word : String)
  | addressInService
  deriving DecidableEq, Repr

def Complaint.message : Complaint → String
  | empty => "empty query"
  | expected wanted got => "expected " ++ wanted.text ++ " but got " ++ got.describe
  | trailing got => "unexpected " ++ got.describe ++ " after end of expression"
  | unknownKeyword word => "unknown keyword: " ++ Text.quote word
  | noOperands junction => "'" ++ junction.word ++ "' needs at least one expression"
  | emptyLiteral => "empty literal"
  | invalidLiteral literal cause => "invalid literal " ++ Text.quote literal ++ ": " ++ cause.message
  | unknownGroup name => "unknown group: " ++ Text.quote name
  | unknownSide word => "unknown rule side: " ++ Text.quote word
  | serviceElsewhere word =>
    "services can only be looked up in the service, not " ++ Text.quote word
  | addressInService => "only services can be looked up in the service"

inductive QueryError where
  | fault (fault : Fault) (offset : Nat)
  | malformed (complaint : Complaint) (offset : Nat)
  | numeral (cause : Text.NumeralError)
  deriving DecidableEq, Repr

def QueryError.message : QueryError → String
  | .fault f offset => "offset " ++ Text.numeral offset ++ ": " ++ f.message
  | .malformed complaint offset => "offset " ++ Text.numeral offset ++ ": " ++ complaint.message
  | .numeral cause => cause.message

end Rulebase.Query
