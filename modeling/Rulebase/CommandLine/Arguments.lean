import Rulebase.Text.Digit
import Rulebase.Text.Split

/-!
# Arguments

The command line takes two operands, a policy file and a query, and flags that may stand anywhere. A
flag can be shortened as long as it stays unique, and short flags can share one dash; two dashes alone
end the flags. A shortened flag that could be several makes the whole command line senseless. Otherwise
arguments count in the order in which they stand, so a request for help or for the version is granted
even when something is wrong further on.
-/

namespace Rulebase.CommandLine

inductive Flag where
  | help
  | tokens
  | summary
  | verbose
  | version
  deriving DecidableEq, Repr

def Flag.names : List (String × Flag) :=
  [("-h", .help), ("--help", .help), ("--tokens", .tokens), ("--summary", .summary), ("-v", .verbose),
    ("--verbose", .verbose), ("--version", .version)]

def Flag.named? (name : List Char) : Option Flag :=
  Flag.names.lookup (String.ofList name)

/-- The flags that a name in full or in part can stand for. -/
def Flag.startingWith (start : List Char) : List Flag :=
  (Flag.names.filter fun entry => start.isPrefixOf entry.1.toList).map Prod.snd

inductive Argument where
  | operand (text : String)
  | flags (flags : List Flag)
  /-- Something that looks like a flag and is none. -/
  | unknown
  /-- A flag with a value, which none takes, or flags that share a dash with something else. -/
  | misused
  /-- The start of several flags. -/
  | ambiguous
  deriving DecidableEq, Repr

def Argument.ofLetters (letters : List Char) : Argument :=
  match letters.mapM fun letter => Flag.named? ['-', letter] with
  | some all => .flags all
  | none => .misused

def isFigures (cs : List Char) : Bool :=
  let figures := if cs.getLast? = some '\n' then cs.dropLast else cs
  !figures.isEmpty && figures.all Text.isDecimal

/-- A negative number, which is an operand although it starts with a dash. -/
def isNegativeNumber (cs : List Char) : Bool :=
  match cs with
  | '-' :: figures =>
    match Text.split '.' figures with
    | [whole] => isFigures whole
    | [whole, fraction] => whole.all Text.isDecimal && isFigures fraction
    | _ => false
  | _ => false

/-- An argument that starts with a dash and names no flag. -/
def Argument.ofOther (cs : List Char) : Argument :=
  if isNegativeNumber cs || cs.contains ' ' then .operand (String.ofList cs) else .unknown

/-- What an argument is. A value of a short flag is read as more letters behind the dash. -/
def Argument.ofText (text : String) : Argument :=
  let cs := text.toList
  match Flag.named? cs, cs with
  | some flag, _ => .flags [flag]
  | none, '-' :: '-' :: _ =>
    match Flag.named? (cs.takeWhile (· ≠ '=')), Flag.startingWith (cs.takeWhile (· ≠ '=')) with
    | some _, _ => .misused
    | none, [] => ofOther cs
    | none, [flag] => if cs.contains '=' then .misused else .flags [flag]
    | none, _ => .ambiguous
  | none, '-' :: letter :: letters =>
    match Flag.named? ['-', letter], letters with
    | some _, ['='] => .misused
    | some _, '=' :: more => ofLetters (letter :: more)
    | some _, _ => ofLetters (letter :: letters)
    | none, _ => ofOther cs
  | none, _ => .operand text

structure Search where
  path : String
  query : String
  summary : Bool := false
  verbose : Bool := false
  deriving DecidableEq, Repr

inductive Request where
  | help
  | version
  | tokens (query : String)
  | search (search : Search)
  /-- The arguments make no sense. -/
  | misused
  deriving DecidableEq, Repr

structure Given where
  operands : List String := []
  flags : List Flag := []
  hasUnknown : Bool := false
  /-- The last of them was an operand. -/
  endsInOperand : Bool := false
  deriving DecidableEq, Repr

def Given.request (given : Given) : Request :=
  match given.hasUnknown, given.operands with
  | false, [path, query] =>
    if .tokens ∈ given.flags then .tokens query
    else
      let summary := decide (.summary ∈ given.flags)
      let verbose := decide (.verbose ∈ given.flags)
      .search { path, query, summary, verbose }
  | _, _ => .misused

/-- What is asked for when two dashes end the flags and the rest are operands. The dashes belong to the
operand before them, or after a flag to the one behind them, which must be wanted. A query of two dashes
is empty unless other dashes belong to it. -/
def Given.endFlags (given : Given) (rest : List String) : Request :=
  let filled := { given with operands := given.operands ++ rest }
  match given.operands, given.endsInOperand, rest with
  | [], _, [path, "--"] => { filled with operands := [path, ""] }.request
  | [path], true, ["--"] => { filled with operands := [path, ""] }.request
  | [_, _], false, _ => .misused
  | _, _, _ => filled.request

def Flag.request? : Flag → Option Request
  | help => some .help
  | version => some .version
  | tokens | summary | verbose => none

def Given.read (given : Given) : List String → Request
  | [] => given.request
  | text :: rest =>
    if text = "--" then given.endFlags rest
    else match Argument.ofText text with
      | .misused | .ambiguous => .misused
      | .operand text =>
        { given with operands := given.operands ++ [text], endsInOperand := true }.read rest
      | .flags flags =>
        (flags.findSome? Flag.request?).getD <|
          { given with flags := given.flags ++ flags, endsInOperand := false }.read rest
      | .unknown => { given with hasUnknown := true, endsInOperand := false }.read rest

def Request.ofArguments (arguments : List String) : Request :=
  if (arguments.takeWhile (· ≠ "--")).any (Argument.ofText · = .ambiguous) then .misused
  else Given.read {} arguments

end Rulebase.CommandLine
