import Rulebase.CommandLine.Arguments
import Rulebase.CommandLine.Path
import Rulebase.Policy.Document
import Rulebase.Report
import Rulebase.Text.Utf8

/-!
# Answers

What the program prints, what it logs and how it ends. It ends well when a rule satisfies the query;
when none does the code is one, and when something fails it is two. A numeral that cannot be read is
not reported in the log but ends the program.
-/

namespace Rulebase.CommandLine

inductive Place where
  | nothing
  | directory
  | unreadable (reason : String)
  | file (bytes : List UInt8)
  deriving Repr

/-- What the program does: the code it ends with, the lines it prints, and the log. -/
structure Answer where
  code : Nat
  lines : List String := []
  log : List Event := []
  deriving Repr

def versionLine : String := "wherecp 0.1.0"

def Answer.output (answer : Answer) : String :=
  String.join (answer.lines.map (· ++ "\n"))

/-- An answer after a failure: the log so far and what failed. -/
def failure (log : List Event) (event : Event) : Answer :=
  { code := 2, log := log ++ [event] }

def tokenAnswer (query : String) : Answer :=
  { code := 0, lines := (Query.tokenize query).map Query.Token.line }

def found (search : Search) (inventory : Inventory) (registry : Registry) (rules : List Rule)
    (log : List Event) : Answer where
  code := if rules.isEmpty then 1 else 0
  lines := rules.map (Rule.line registry) ++ if search.summary then inventory.summary else []
  log := log ++ [.matched rules.length inventory.rules.size]

def queried (search : Search) (inventory : Inventory) (registry : Registry) (log : List Event) :
    Except Text.NumeralError Answer :=
  let parsed := log ++ [.parsed search.query]
  match inventory.search registry search.query with
  | .error (.refused (.numeral cause)) | .error (.failed (.numeral cause)) => .error cause
  | .error (.refused cause) => .ok (failure log (.failed cause.message))
  | .error (.failed (.refused cause)) => .ok (failure parsed (.failed cause.message))
  | .ok rules => .ok (found search inventory registry rules parsed)

def searched (search : Search) (path : String) (text : List Char) (log : List Event) :
    Except Text.NumeralError Answer :=
  let loaded := Policy.load {} path text
  let log := log ++ loaded.log
  match loaded.inventory with
  | .ok inventory => queried search inventory loaded.registry log
  | .error (.numeral cause) => .error cause
  | .error cause => .ok (failure log (.failed cause.message))

def answer (search : Search) (place : Place) : Except Text.NumeralError Answer :=
  let path := shortPath search.path
  let log := [Event.reading path]
  match place with
  | .nothing => .ok (failure [] (.notFound path))
  | .directory =>
    .ok (failure log (.notReadable path ("[Errno 21] Is a directory: " ++ Text.quote path)))
  | .unreadable reason => .ok (failure log (.notReadable path reason))
  | .file bytes => searched search path (Text.unifyLineEnds (Text.decodeUtf8 bytes)) log

end Rulebase.CommandLine
