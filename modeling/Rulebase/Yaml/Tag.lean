import Rulebase.Yaml.Marks
import Rulebase.Yaml.Node

/-!
# Tags

An exclamation mark in front of a node starts a tag, which says what kind of value the node has. No tag
is known but the lone exclamation mark: it makes a quoted scalar count as a plain one.
-/

namespace Rulebase.Yaml

inductive Tag where
  | lone
  | named
  deriving DecidableEq, Repr

def Tag.apply : Tag → Node → Node
  | named, _ => .foreign
  | lone, .quoted text => .plain text
  | lone, node => node

def isTagChar (c : Char) : Bool :=
  c.isAlphanum || c ∈ "-;/?:@&=+$,_.!~*'()[]%".toList

/-- Two hexadecimal digits stand behind every percent sign. -/
def escapesEnd : List Char → Bool
  | '%' :: a :: b :: cs => isHex a && isHex b && escapesEnd cs
  | '%' :: _ => false
  | _ :: cs => escapesEnd cs
  | [] => true

def behindTagName (ms : List Mark) : Except YamlError (List Mark) :=
  let name := (ms.takeWhile (isTagChar ·.char)).map Mark.char
  if !name.isEmpty && escapesEnd name then .ok (ms.drop name.length) else malformed

def bracketedTag (ms : List Mark) : Reading (Behind Tag) := do
  match ← behindTagName ms with
  | [] => malformed
  | m :: rest =>
    if m.char ≠ '>' then malformed
    let isLone := (ms.take (ms.length - rest.length - 1)).map Mark.char = ['!']
    return (if isLone then .lone else .named, rest)

/-- A tag whose exclamation mark was read. A second one may follow it, but none after other characters. -/
def openTag : List Mark → Reading (Behind Tag)
  | [] => .ok (.lone, [])
  | m :: ms =>
    if m.char = '<' then bracketedTag ms
    else if atBlank [m] then .ok (.lone, m :: ms)
    else if m.char = '!' then return (.named, ← behindTagName ms)
    else if (ms.takeWhile fun n => !(n.char = ' ' || isBreak n.char)).any (·.char = '!') then malformed
    else return (.named, ← behindTagName (m :: ms))

/-- A tag, its exclamation mark in front. A space or the end of the line or text stands behind it. -/
def tag (ms : List Mark) : Reading (Behind Tag) := do
  let (tag, rest) ← openTag (ms.drop 1)
  if atBlank rest && (rest.head?.map Mark.char) ≠ some '\t' then return (tag, rest) else malformed

end Rulebase.Yaml
