import Rulebase.Yaml.Scalar

/-!
# Marked characters

A document is read as a list of characters, each marked with its line and column, because nesting is
shown by columns and a key must stand on one line. Here are the parts without structure: blanks and
comments, quoted scalars and the lines of a plain scalar. A line ends in a line feed, or in one of the
separators of lines and paragraphs, which stay themselves where a line feed would become a space.
-/

namespace Rulebase.Yaml

/-- A character with its line and column, both counted from zero. -/
structure Mark where
  char : Char
  line : Nat
  column : Nat
  deriving DecidableEq, Repr

def isBreak (c : Char) : Bool :=
  c == '\n' || c.toNat == 0x2028 || c.toNat == 0x2029

/-- The characters marked from a position on. -/
def marksFrom (line column : Nat) : List Char → List Mark
  | [] => []
  | c :: cs =>
    ⟨c, line, column⟩ :: if isBreak c then marksFrom (line + 1) 0 cs else marksFrom line (column + 1) cs

abbrev Behind (α : Type) := α × List Mark

abbrev Reading := Except YamlError

def malformed {α : Type} : Reading α := .error .malformed

def atBlank : List Mark → Bool
  | [] => true
  | m :: _ => m.char == ' ' || m.char == '\t' || isBreak m.char

def atFlowEnd : List Mark → Bool
  | m :: _ => m.char ∈ [',', '[', ']', '{', '}']
  | [] => false

/-- The marks from the next token on; spaces, line ends and comments are skipped. -/
def skip (comment : Bool) : List Mark → List Mark
  | [] => []
  | m :: ms =>
    if isBreak m.char then skip false ms
    else if comment then skip true ms
    else if m.char = ' ' then skip false ms
    else if m.char = '#' then skip true ms
    else m :: ms

def skipSpaces (ms : List Mark) : List Mark :=
  ms.dropWhile (·.char = ' ')

/-- A line that starts or ends a document comes next. -/
def atDocumentLine : List Mark → Bool
  | a :: b :: c :: rest =>
    a.column == 0 && a.char == b.char && b.char == c.char && (a.char == '-' || a.char == '.') && atBlank rest
  | _ => false

/-- The line ends in front, spaces around them left out and tabs where they may stand, and the marks
behind. -/
def lineEnds (tabs : Bool) : List Mark → Behind (List Char)
  | [] => ([], [])
  | m :: ms =>
    if isBreak m.char then
      let (breaks, rest) := lineEnds tabs ms
      (m.char :: breaks, rest)
    else if m.char = ' ' ∨ (tabs ∧ m.char = '\t') then lineEnds tabs ms
    else ([], m :: ms)

/-- What line ends inside a scalar stand for: a space for one line feed, and all but the first line feed
otherwise. -/
def folded : List Char → List Char
  | ['\n'] => [' ']
  | '\n' :: breaks => breaks
  | breaks => breaks

def escaped? (c : Char) : Option Char :=
  [('0', 0x00), ('a', 0x07), ('b', 0x08), ('t', 0x09), ('\t', 0x09), ('n', 0x0A), ('v', 0x0B),
    ('f', 0x0C), ('r', 0x0D), ('e', 0x1B), (' ', 0x20), ('"', 0x22), ('\\', 0x5C), ('/', 0x2F),
    ('N', 0x85), ('_', 0xA0), ('L', 0x2028), ('P', 0x2029)].lookup c |>.map Char.ofNat

def escapeWidth? (c : Char) : Option Nat :=
  [('x', 2), ('u', 4), ('U', 8)].lookup c

def hexRow (width : Nat) (ms : List Mark) : Reading (Behind Nat) :=
  let row := (ms.take width).map Mark.char
  if row.length = width ∧ row.all isHex then .ok (placeIn 16 row, ms.drop width) else malformed

/-- The character of the two halves of a surrogate pair. -/
def joined? (high low : Nat) : Option Char :=
  if 0xD800 ≤ high ∧ high < 0xDC00 ∧ 0xDC00 ≤ low ∧ low < 0xE000 then
    some (Char.ofNat (0x10000 + 0x400 * (high - 0xD800) + (low - 0xDC00)))
  else none

/-- The character of a number whose escape was read, together with the escape behind it if the two are a
surrogate pair. A half by itself is replaced. -/
def escapedNumber (n : Nat) (ms : List Mark) : Behind Char :=
  let joined := match ms with
    | a :: b :: rest =>
      if a.char = '\\' ∧ b.char = 'u' then
        match hexRow 4 rest with
        | .ok (low, rest) => (joined? n low).map fun c => (c, rest)
        | .error _ => none
      else none
    | _ => none
  joined.getD (if n.isValidChar then Char.ofNat n else '\uFFFD', ms)

/-- The character of an escape whose backslash was read. -/
def escape : List Mark → Reading (Behind Char)
  | [] => malformed
  | m :: ms =>
    match escaped? m.char, escapeWidth? m.char with
    | some c, _ => .ok (c, ms)
    | none, some width => do
      let (n, ms) ← hexRow width ms
      return escapedNumber n ms
    | none, none => malformed

/-- The characters of a quoted scalar whose opening quote was read. Every step takes a character. -/
def quotedRest (double : Bool) : (steps : Nat) → List Mark → Reading (Behind (List Char))
  | 0, _ | _, [] => malformed
  | steps + 1, m :: ms => do
    if double ∧ m.char = '"' then return ([], ms)
    else if !double ∧ m.char = '\'' then
      match ms with
      | next :: rest =>
        if next.char = '\'' then
          let (cs, ms) ← quotedRest double steps rest
          return ('\'' :: cs, ms)
        else return ([], ms)
      | [] => return ([], [])
    else if double ∧ m.char = '\\' then
      match ms with
      | next :: rest =>
        if isBreak next.char then
          let (breaks, rest) := lineEnds true rest
          if atDocumentLine rest then malformed
          else
            let (cs, ms) ← quotedRest double steps rest
            return (breaks ++ cs, ms)
        else
          let (c, ms) ← escape ms
          let (cs, ms) ← quotedRest double steps ms
          return (c :: cs, ms)
      | [] => malformed
    else if atBlank [m] then
      let (breaks, rest) := lineEnds true (m :: ms)
      if breaks.isEmpty then
        let (cs, ms) ← quotedRest double steps ms
        return (m.char :: cs, ms)
      else if atDocumentLine rest then malformed
      else
        let (cs, ms) ← quotedRest double steps rest
        return (folded breaks ++ cs, ms)
    else
      let (cs, ms) ← quotedRest double steps ms
      return (m.char :: cs, ms)

/-- A plain scalar ends here: at a blank, at a colon that ends a key, and in a flow collection at one of
its own characters. -/
def endsPlain (flow : Bool) : List Mark → Bool
  | [] => true
  | m :: ms =>
    atBlank (m :: ms) || (m.char == ':' && (atBlank ms || (flow && atFlowEnd ms))) ||
      (flow && (atFlowEnd (m :: ms) || m.char == '?'))

def startsPlain (flow : Bool) : List Mark → Bool
  | [] => false
  | m :: ms =>
    !(atBlank [m] || m.char ∈ "-?:,[]\x7b\x7d#&*!|>'\"%@\x60".toList) ||
      (!atBlank ms && (m.char == '-' || (!flow && (m.char == '?' || m.char == ':'))))

def plainWord (flow : Bool) : List Mark → Behind (List Char)
  | [] => ([], [])
  | m :: ms =>
    if endsPlain flow (m :: ms) then ([], m :: ms)
    else
      let (cs, rest) := plainWord flow ms
      (m.char :: cs, rest)

def plainLine (flow : Bool) : (steps : Nat) → List Mark → Behind (List Char)
  | 0, ms => ([], ms)
  | steps + 1, ms =>
    let (word, rest) := plainWord flow ms
    let behind := skipSpaces rest
    if endsPlain flow behind || (behind.head?.map Mark.char) = some '#' then (word, rest)
    else
      let (cs, ms) := plainLine flow steps behind
      (word ++ List.replicate (rest.length - behind.length) ' ' ++ cs, ms)

/-- The further lines of a plain scalar: they go on at a column or behind it. -/
def plainLines (flow : Bool) (least : Nat) : (steps : Nat) → List Mark → Behind (List Char)
  | 0, ms => ([], ms)
  | steps + 1, ms =>
    let (breaks, next) := lineEnds false ms
    let indented := flow || (next.head?.map fun m => decide (least ≤ m.column)).getD false
    if breaks.isEmpty || !indented || atDocumentLine next || endsPlain flow next ||
        (next.head?.map Mark.char) = some '#' then
      ([], ms)
    else
      let (line, rest) := plainLine flow (next.length + 1) next
      let (cs, ms) := plainLines flow least steps rest
      (folded breaks ++ line ++ cs, ms)

end Rulebase.Yaml
