import Rulebase.Yaml.Tag

/-!
# Flow collections

A flow sequence stands in brackets and a flow mapping in braces, with commas between the members. A key
and its colon stand on one line and near each other.
-/

namespace Rulebase.Yaml

def quotedScalar : List Mark → Reading (Behind Node)
  | [] => malformed
  | m :: ms => do
    let (cs, ms) ← quotedRest (m.char == '"') (ms.length + 1) ms
    return (.quoted (String.ofList cs), ms)

def plainScalar (flow : Bool) (least : Nat) (ms : List Mark) : Behind Node :=
  let (first, rest) := plainLine flow (ms.length + 1) ms
  let (more, rest) := plainLines flow least (rest.length + 1) rest
  (.plain (String.ofList (first ++ more)), rest)

/-- The most characters from the start of a key to its colon. -/
def keyReach : Nat := 1024

/-- The colon of a key comes next: on the line where the key starts, and within reach. -/
def atColon (key : List Mark) (ms : List Mark) : Bool :=
  match key, ms with
  | k :: _, m :: _ => m.char == ':' && m.line == k.line && decide (key.length ≤ ms.length + keyReach)
  | _, _ => false

def startsFlow (ms : List Mark) : Bool :=
  match ms with
  | m :: _ => m.char ∈ ['[', '{', '"', '\''] || startsPlain true ms
  | [] => false

/-- The marks behind a comma, or from the closing character on. -/
def flowComma (closing : Char) : List Mark → Except YamlError (List Mark)
  | [] => malformed
  | m :: ms =>
    if m.char = ',' then .ok (skip false ms)
    else if m.char = closing then .ok (m :: ms)
    else malformed

mutual

def flowNode : (steps : Nat) → List Mark → Reading (Behind Node)
  | 0, _ | _, [] => malformed
  | steps + 1, m :: ms =>
    if atDocumentLine (m :: ms) then malformed
    else if m.char = '[' then flowItems steps [] (skip false ms)
    else if m.char = '{' then flowEntries steps [] (skip false ms)
    else if m.char = '"' ∨ m.char = '\'' then quotedScalar (m :: ms)
    else if m.char = '!' then do
      let (tag, rest) ← tag (m :: ms)
      let next := skip false rest
      if !startsFlow next then return (tag.apply .empty, next)
      let (node, rest) ← flowNode steps next
      return (tag.apply node, rest)
    else if startsPlain true (m :: ms) then .ok (plainScalar true 0 (m :: ms))
    else malformed

def flowItems : (steps : Nat) → (before : List Node) → List Mark → Reading (Behind Node)
  | 0, _, _ | _, _, [] => malformed
  | steps + 1, before, m :: ms => do
    if m.char = ']' then return (.sequence before, ms)
    let (item, rest) ← flowNode steps (m :: ms)
    let rest := skip false rest
    let (item, rest) ←
      if atColon (m :: ms) rest then do
        let (value, rest) ← flowValue steps (rest.drop 1)
        pure (Node.mapping [(item, value)], rest)
      else pure (item, rest)
    flowItems steps (before ++ [item]) (← flowComma ']' rest)

def flowEntries : (steps : Nat) → (before : List (Node × Node)) → List Mark → Reading (Behind Node)
  | 0, _, _ | _, _, [] => malformed
  | steps + 1, before, m :: ms => do
    if m.char = '}' then return (.mapping before, ms)
    let (key, rest) ← flowNode steps (m :: ms)
    let rest := skip false rest
    let (value, rest) ←
      if atColon (m :: ms) rest then flowValue steps (rest.drop 1) else pure (Node.empty, rest)
    flowEntries steps (before ++ [(key, value)]) (← flowComma '}' rest)

/-- The value behind a colon, which may be nothing. -/
def flowValue : (steps : Nat) → List Mark → Reading (Behind Node)
  | 0, _ => malformed
  | steps + 1, ms => do
    match skip false ms with
    | [] => malformed
    | m :: rest =>
      if m.char = ',' ∨ m.char = ']' ∨ m.char = '}' then return (.empty, m :: rest)
      let (value, rest) ← flowNode steps (m :: rest)
      return (value, skip false rest)

end

end Rulebase.Yaml
