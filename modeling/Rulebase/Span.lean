import Rulebase.Address.Dotted
import Rulebase.Protocol

/-!
# Spans

A span is a closed interval of addresses, or of port numbers under one protocol; every object of a
policy stands for one. Spans of one kind are ordered by first end, last end and protocol, in this
order. A span whose first end lies after its last one is empty, but it can still be compared.
-/

namespace Rulebase

inductive Span where
  | addresses (first last : Address)
  | ports (protocol : Protocol) (first last : Int)
  deriving DecidableEq, Repr

namespace Span

/-- The ends of another span of the same space lie within this one. -/
def covers : Span → Span → Bool
  | addresses a b, addresses c d => a ≤ c && d ≤ b
  | ports p a b, ports q c d => p == q && a ≤ c && d ≤ b
  | _, _ => false

/-- The order of spans: by first end, then last end, then protocol, with addresses before ports. -/
def before : Span → Span → Bool
  | addresses a b, addresses c d => a < c || (a == c && b < d)
  | ports p a b, ports q c d => a < c || (a == c && (b < d || (b == d && p.number < q.number)))
  | addresses .., ports .. => true
  | ports .., addresses .. => false

def text : Span → String
  | addresses a b => a.text ++ "-" ++ b.text
  | ports p a b =>
    if a = b then p.name ++ "/" ++ Text.integer a
    else p.name ++ "/" ++ Text.integer a ++ "-" ++ Text.integer b

end Span

end Rulebase
