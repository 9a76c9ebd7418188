import Rulebase.Text.Blank

/-!
# Protocols

The protocols a service can name, numbered from one, with their names in either case.
-/

namespace Rulebase

inductive Protocol where
  | tcp
  | udp
  | icmp
  | arp
  | ip
  deriving DecidableEq, Repr

namespace Protocol

def all : List Protocol := [tcp, udp, icmp, arp, ip]

def number : Protocol → Nat
  | tcp => 1
  | udp => 2
  | icmp => 3
  | arp => 4
  | ip => 5

def name : Protocol → String
  | tcp => "tcp"
  | udp => "udp"
  | icmp => "icmp"
  | arp => "arp"
  | ip => "ip"

/-- The capital of a letter of a protocol name: beyond ASCII only the dotless i has one of them. -/
def capital (c : Char) : Char :=
  if c = 'ı' then 'I' else c.toUpper

def capitals (p : Protocol) : String := String.ofList (p.name.toList.map capital)

/-- The protocol that a text names in any case, blanks at either end left out. -/
def parse? (s : String) : Option Protocol :=
  let name := (Text.trim s.toList).map capital
  all.find? fun p => p.name.toList.map capital = name

theorem number_inj {p q : Protocol} : p.number = q.number ↔ p = q := by
  cases p <;> cases q <;> decide

end Protocol

end Rulebase
