import Rulebase.Text.Quoted
import Rulebase.Text.Word

/-!
# Tokens of queries

A query text is scanned character by character. Blanks separate words, a line feed is a token of its
own except after an opening parenthesis, and a quote takes everything up to the next one. What fits
nowhere becomes a fault, and scanning goes on, so one bad character does not hide the rest. A scanner
gives the tokens one at a time and reads no further than it must.
-/

namespace Rulebase.Query

inductive Fault where
  /-- No keyword follows an opening parenthesis, but this character or the end. -/
  | missingKeyword (next : Option Char)
  /-- A character that starts no token. -/
  | stray (c : Char)
  /-- A quote without its partner. -/
  | unclosedQuote
  deriving DecidableEq, Repr

inductive Lexeme where
  | finish
  | fault (fault : Fault)
  | leftParen
  | rightParen
  | keyword (word : String)
  | parameter (word : String)
  | quote
  | newline
  deriving DecidableEq, Repr

structure Token where
  lexeme : Lexeme
  offset : Nat
  deriving DecidableEq, Repr

def Fault.message : Fault → String
  | missingKeyword none => "expected keyword after '(' but got: end of input"
  | missingKeyword (some c) =>
    "expected keyword after '(' but got: " ++ Text.quote (String.singleton c)
  | stray c => "expected parameter but got: " ++ Text.quote (String.singleton c)
  | unclosedQuote => "missing closing quote"

/-- The text of a token, and what a fault says. -/
def Lexeme.text : Lexeme → String
  | finish => ""
  | fault f => f.message
  | leftParen => "("
  | rightParen => ")"
  | keyword word => word
  | parameter word => word
  | quote => "\""
  | newline => "\n"

def Lexeme.typeName : Lexeme → String
  | finish => "EOF"
  | fault _ => "ERROR"
  | leftParen => "LEFT_PAREN"
  | rightParen => "RIGHT_PAREN"
  | keyword _ => "KEYWORD"
  | parameter _ => "PARAMETER"
  | quote => "QUOTE"
  | newline => "NEWLINE"

def Lexeme.describe (lexeme : Lexeme) : String :=
  if lexeme = .finish then "end of input"
  else lexeme.typeName.toLower ++ " " ++ Text.quote lexeme.text

/-- A blank of a query text; the line feed is not one. -/
def isGap (c : Char) : Bool :=
  c == ' ' || c == '\t' || c == '\r'

def isWordChar (c : Char) : Bool :=
  c == '_' || Text.isAlphanumeric c

def isKeywordChar (c : Char) : Bool :=
  !isGap c && c != '(' && c != ')' && c != '"' && c != '\n'

inductive Mode where
  /-- Between tokens. -/
  | plain
  /-- Past an opening parenthesis, before its keyword. -/
  | awaiting
  /-- Inside a keyword, its characters so far in reverse. -/
  | keyword (start : Nat) (read : List Char)
  /-- Inside a word, its characters so far in reverse. -/
  | word (start : Nat) (read : List Char)
  /-- Inside quotes, the characters so far in reverse. -/
  | quoted (start : Nat) (read : List Char)
  deriving DecidableEq, Repr

/-- The word whose characters were read in reverse. -/
def wordOf (read : List Char) : String :=
  String.ofList read.reverse

def stepPlain (offset : Nat) (c : Char) : List Token × Mode :=
  if isGap c then ([], .plain)
  else if c = '\n' then ([⟨.newline, offset⟩], .plain)
  else if c = '(' then ([⟨.leftParen, offset⟩], .awaiting)
  else if c = ')' then ([⟨.rightParen, offset⟩], .plain)
  else if c = '"' then ([⟨.quote, offset⟩], .quoted (offset + 1) [])
  else if isWordChar c then ([], .word offset [c])
  else ([⟨.fault (.stray c), offset⟩], .plain)

/-- One character: the tokens it completes, and the mode after it. -/
def step (mode : Mode) (offset : Nat) (c : Char) : List Token × Mode :=
  match mode with
  | .plain => stepPlain offset c
  | .awaiting =>
    if isGap c || c == '\n' then ([], .awaiting)
    else if isKeywordChar c then ([], .keyword offset [c])
    else
      let (tokens, mode) := stepPlain offset c
      (⟨.fault (.missingKeyword (some c)), offset⟩ :: tokens, mode)
  | .keyword start read =>
    if isKeywordChar c then ([], .keyword start (c :: read))
    else
      let (tokens, mode) := stepPlain offset c
      (⟨.keyword (wordOf read), start⟩ :: tokens, mode)
  | .word start read =>
    if isWordChar c then ([], .word start (c :: read))
    else
      let (tokens, mode) := stepPlain offset c
      (⟨.parameter (wordOf read), start⟩ :: tokens, mode)
  | .quoted start read =>
    if c = '"' then ([⟨.parameter (wordOf read), start⟩, ⟨.quote, offset⟩], .plain)
    else ([], .quoted start (c :: read))

/-- What the end of the text completes. -/
def close (offset : Nat) : Mode → List Token
  | .plain => []
  | .awaiting => [⟨.fault (.missingKeyword none), offset⟩]
  | .keyword start read => [⟨.keyword (wordOf read), start⟩]
  | .word start read => [⟨.parameter (wordOf read), start⟩]
  | .quoted start _ => [⟨.fault .unclosedQuote, start⟩]

/-- The tokens of the characters from an offset on, read in a mode. -/
def scan : Mode → (offset : Nat) → List Char → List Token
  | mode, offset, [] => close offset mode
  | mode, offset, c :: cs => (step mode offset c).1 ++ scan (step mode offset c).2 (offset + 1) cs

def tokens (text : String) : List Token :=
  scan .plain 0 text.toList

def finish (text : String) : Token :=
  ⟨.finish, text.length⟩

def tokenize (text : String) : List Token :=
  tokens text ++ [finish text]

/-- A scanner between two tokens: what it is reading, the offset it has come to, the characters still
unread, and the tokens that are complete but not yet given out. -/
structure Scanner where
  mode : Mode
  offset : Nat
  unread : List Char
  ready : List Token
  deriving DecidableEq, Repr

namespace Scanner

def start (text : String) : Scanner :=
  ⟨.plain, 0, text.toList, []⟩

/-- Reads on until a token is complete. Past the last character there is the end and nothing else. -/
def read : Mode → (offset : Nat) → List Char → Token × Scanner
  | mode, offset, [] =>
    match close offset mode with
    | [] => (⟨.finish, offset⟩, ⟨.plain, offset, [], []⟩)
    | token :: ready => (token, ⟨.plain, offset, [], ready⟩)
  | mode, offset, c :: cs =>
    match step mode offset c with
    | ([], mode) => read mode (offset + 1) cs
    | (token :: ready, mode) => (token, ⟨mode, offset + 1, cs, ready⟩)

def next (scanner : Scanner) : Token × Scanner :=
  match scanner.ready with
  | token :: ready => (token, { scanner with ready })
  | [] => read scanner.mode scanner.offset scanner.unread

/-- The tokens of so many calls in a row. -/
def pull (scanner : Scanner) : (count : Nat) → List Token
  | 0 => []
  | count + 1 =>
    let (token, scanner) := scanner.next
    token :: scanner.pull count

end Scanner

def pull (text : String) (count : Nat) : List Token :=
  (Scanner.start text).pull count

end Rulebase.Query
