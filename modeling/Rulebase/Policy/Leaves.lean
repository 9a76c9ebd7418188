import Rulebase.Policy.Entry

/-!
# Leaf sections

Each entry of the sections of hosts, networks, ranges, ports and port ranges gives one leaf. A network
has its mask in a field of its own or behind its address, and a range its ends in two fields or in one.
-/

namespace Rulebase.Policy

def label (fields : Fields) (name : String) : Extracted Label :=
  return { name, comment := ← written (field fields "comment") }

def host (fields : Fields) : Extracted Host := do
  let name ← requireText .hosts fields "name"
  let address ← requireText .hosts fields "address"
  let label ← label fields name
  built .hosts .host name (Host.build label (.text address))

def network (fields : Fields) : Extracted Network := do
  let name ← requireText .networks fields "name"
  let address ← requireText .networks fields "address"
  let label ← label fields name
  match field fields "mask" with
  | .null => built .networks .network name (Network.ofCidr label address)
  | mask => built .networks .network name (Network.build label (.text address) (.text (← written mask)))

def range (fields : Fields) : Extracted Range := do
  let name ← requireText .ranges fields "name"
  let label ← label fields name
  let text := field fields "range"
  if text.truthy then built .ranges .range name (Range.ofText label (← written text))
  else
    let first ← requireText .ranges fields "start"
    let last ← requireText .ranges fields "end"
    built .ranges .range name (Range.build label (.text first) (.text last))

/-- The protocol of an entry, TCP when the field is absent. -/
def protocolOf (fields : Fields) : Extracted Value :=
  return .text (← written ((Value.get? fields "protocol").getD (.text "tcp")))

def port (fields : Fields) : Extracted Port := do
  let name ← requireText .ports fields "name"
  let number ← require .ports fields "port"
  let protocol ← protocolOf fields
  let label ← label fields name
  built .ports .port name (Port.build label number protocol)

def portRange (fields : Fields) : Extracted PortRange := do
  let name ← requireText .portRanges fields "name"
  let first ← require .portRanges fields "start"
  let last ← require .portRanges fields "end"
  let protocol ← protocolOf fields
  let label ← label fields name
  built .portRanges .portRange name (PortRange.build label first last protocol)

def leaves {α : Type} (document : Fields) (chapter : Chapter) (leaf : Fields → Extracted α) :
    Extracted (List α) := do
  (← entries document chapter).mapM leaf

end Rulebase.Policy
