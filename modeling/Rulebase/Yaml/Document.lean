import Rulebase.Yaml.Flow

/-!
# Documents

A block sequence has a dash in front of each member and a block mapping a key with a colon; members of
one collection stand in one column, and what belongs to a member stands behind that column or, a
sequence under a key, in it. A text holds at most one document; an empty one is null. The whole text
must be well formed before any part of it has a value.
-/

namespace Rulebase.Yaml

def atDash : List Mark → Bool
  | m :: ms => m.char == '-' && atBlank ms
  | [] => false

/-- The colon of a key comes next, with a blank behind it. -/
def atKeyEnd (key ms : List Mark) : Bool :=
  atColon key ms && atBlank (ms.drop 1)

def endsBefore (column : Nat) : List Mark → Bool
  | [] => true
  | m :: ms => decide (m.column < column) || atDocumentLine (m :: ms)

def columnOf (ms : List Mark) : Nat :=
  (ms.head?.map Mark.column).getD 0

def isBroken (ms next : List Mark) : Bool :=
  match ms, next with
  | m :: _, n :: _ => m.line != n.line
  | _, _ => true

/-- A scalar or a flow collection in block context. A plain scalar goes on at a column or behind it, but as
a key it has one line. -/
def inlineNode (isKey : Bool) (least : Nat) : List Mark → Reading (Behind Node)
  | [] => malformed
  | m :: ms =>
    if m.char = '[' ∨ m.char = '{' then flowNode (2 * ms.length + 4) (m :: ms)
    else if m.char = '"' ∨ m.char = '\'' then quotedScalar (m :: ms)
    else if startsPlain false (m :: ms) then
      if isKey then
        let (cs, rest) := plainLine false (ms.length + 2) (m :: ms)
        .ok (.plain (String.ofList cs), rest)
      else .ok (plainScalar false least (m :: ms))
    else malformed

def keyNode (ms : List Mark) : Reading (Behind Node) := do
  let (key, rest) ←
    if (ms.head?.map Mark.char) = some '!' then do
      let (tag, rest) ← tag ms
      let rest := skipSpaces rest
      if atKeyEnd ms rest then pure (tag.apply .empty, rest)
      else do
        let (node, rest) ← inlineNode true 0 rest
        pure (tag.apply node, rest)
    else inlineNode true 0 ms
  if atKeyEnd ms (skipSpaces rest) then return (key, skipSpaces rest) else malformed

def atKey (ms : List Mark) : Bool :=
  (keyNode ms).toBool

mutual

/-- A node in block context. It stands at a column or behind, or a sequence at a column of its own or behind;
nothing there is an empty node. A block collection may start where a line starts or behind a dash. -/
def blockNode (least leastDash : Nat) (fresh tagged : Bool) :
    (steps : Nat) → List Mark → Reading (Behind Node)
  | 0, _ => malformed
  | steps + 1, ms =>
    let next := skip false ms
    let fresh := fresh || isBroken ms next
    if endsBefore (if atDash next then leastDash else least) next then .ok (.empty, ms)
    else if atDash next then if fresh then blockItems (columnOf next) steps [] next else malformed
    else if fresh && atKey next then blockEntries (columnOf next) steps [] next
    else if (next.head?.map Mark.char) = some '!' ∧ !tagged then do
      let (tag, rest) ← tag next
      let (node, rest) ← blockNode least leastDash false true steps rest
      return (tag.apply node, rest)
    else inlineNode false least next
termination_by structural steps => steps

/-- The members of a block sequence after those before, each on a line of its own and all in a column. -/
def blockItems (column : Nat) : (steps : Nat) → (before : List Node) → List Mark → Reading (Behind Node)
  | 0, _, _ => malformed
  | steps + 1, before, ms => do
    let next := skip false ms
    if endsBefore column next || !atDash next || columnOf next ≠ column ||
        !(before.isEmpty || isBroken ms next) then
      return (.sequence before, ms)
    let (item, rest) ← blockNode (column + 1) (column + 1) true false steps (next.drop 1)
    blockItems column steps (before ++ [item]) rest
termination_by structural steps => steps

/-- The entries of a block mapping after those before, each on a line of its own and all in a column. -/
def blockEntries (column : Nat) : (steps : Nat) → (before : List (Node × Node)) → List Mark →
    Reading (Behind Node)
  | 0, _, _ => malformed
  | steps + 1, before, ms => do
    let next := skip false ms
    if endsBefore column next then return (.mapping before, ms)
    if columnOf next ≠ column || !(before.isEmpty || isBroken ms next) then malformed
    let (key, rest) ← keyNode next
    let (value, rest) ← blockNode (column + 1) column false false steps (rest.drop 1)
    blockEntries column steps (before ++ [(key, value)]) rest
termination_by structural steps => steps

end

def isAllowed (c : Char) : Bool :=
  let n := c.toNat
  n == 0x09 || n == 0x0A || n == 0x0D || (0x20 ≤ n && n ≤ 0x7E) || n == 0x85 ||
    (0xA0 ≤ n && n ≤ 0xFFFD) || 0x10000 ≤ n

/-- The characters with every carriage return, alone or before a line feed, and every next-line character
made a line feed. -/
def lineFeeds : List Char → List Char
  | [] => []
  | '\r' :: '\n' :: cs => '\n' :: lineFeeds cs
  | c :: cs => (if c.toNat ∈ [0x0D, 0x85] then '\n' else c) :: lineFeeds cs

/-- The marks of a text; a byte order mark in front does not count. -/
def marks : List Char → List Mark
  | [] => []
  | c :: cs => marksFrom 0 0 (lineFeeds (if c.toNat = 0xFEFF then cs else c :: cs))

def isFinished : (steps : Nat) → List Mark → Bool
  | _, [] => true
  | 0, _ => false
  | steps + 1, m :: ms =>
    atDocumentLine (m :: ms) && m.char == '.' && isFinished steps (skip false (ms.drop 2))

/-- The node of a document from its first token on. The line that may start it is no place for a block
collection, and the line that ends it cannot come first. -/
def documentNode (ms : List Mark) : Reading (Behind Node) :=
  let steps := 4 * ms.length + 4
  if !atDocumentLine ms then blockNode 0 0 true false steps ms
  else if (ms.head?.map Mark.char) = some '-' then blockNode 0 0 false false steps (ms.drop 3)
  else malformed

def read (cs : List Char) : Except YamlError Value := do
  if !cs.all isAllowed then malformed
  let (node, rest) ← documentNode (skip false (marks cs))
  let rest := skip false rest
  if isFinished rest.length rest then node.value? else malformed

end Rulebase.Yaml
