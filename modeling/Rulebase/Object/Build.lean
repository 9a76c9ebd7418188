import Rulebase.Object.Invalid
import Rulebase.Object.Leaf

/-!
# Building objects from given values

Each part of an object is given as a value, a text as a rule, and is checked in the order in which the
parts stand. What is built satisfies the conditions that its type demands.
-/

namespace Rulebase

open Text

abbrev Built (α : Type) := Except BuildError α

def refuse {α : Type} (cause : Invalid) : Built α := .error (.invalid cause)

def isDigits (cs : List Char) : Bool :=
  !cs.isEmpty && cs.all isDigit

/-- The number a text denotes; a numeral that cannot be read is an error of its own. -/
def buildNumeral (s : String) : Built Nat :=
  match readNumeral s with
  | .ok n => .ok n
  | .error e => .error (.numeral e)

namespace Address

def ofInteger (given : Value) : Built Address :=
  match given with
  | .int i => if 0 ≤ i ∧ i ≤ greatest then .ok (ofNat i.toNat) else refuse (.addressOutOfRange i)
  | _ => refuse (.addressNotInteger given)

def build (given : Value) : Built Address :=
  match given with
  | .text s => match parse? s with
    | some a => .ok a
    | none => refuse (.malformedAddress given)
  | _ => refuse (.malformedAddress given)

/-- The netmask whose length is a number or a row of digits. -/
def buildNetmask (given : Value) : Built Address :=
  let ofLength (length : Int) : Built Address :=
    if 0 ≤ length ∧ length ≤ 32 then .ok (netmask length.toNat) else refuse (.maskLength (.int length))
  match given with
  | .int i => ofLength i
  | .text s => if isDigits s.toList then do ofLength (← buildNumeral s) else refuse (.maskLength given)
  | _ => refuse (.maskLength given)

/-- The netmask that a value denotes, as a length or in dotted notation. -/
def buildMask (given : Value) : Built { mask : Address // mask.isNetmask = true } := do
  let contiguous (mask : Address) : Built { mask : Address // mask.isNetmask = true } :=
    if h : mask.isNetmask = true then .ok ⟨mask, h⟩ else refuse (.scatteredMask mask)
  let byLength := match given with
    | .int _ | .bool _ => true
    | .text s => isDigits s.toList
    | _ => false
  if byLength then contiguous (← buildNetmask given)
  else match given with
    | .text s => match parse? s with
      | some mask => contiguous mask
      | none => refuse (.malformedMask given)
    | _ => refuse (.malformedMask given)

end Address

def Protocol.build (given : Value) : Built Protocol :=
  match given with
  | .text s => match Protocol.parse? s with
    | some p => .ok p
    | none => refuse (.unknownProtocol s)
  | _ => refuse (.unknownProtocol given.literal)

def buildPortNumber (given : Value) : Built { number : Nat // number ≤ greatestPort } :=
  let bounded (i : Int) : Built { number : Nat // number ≤ greatestPort } :=
    if h : 0 ≤ i ∧ i ≤ greatestPort then .ok ⟨i.toNat, by omega⟩ else refuse (.portOutOfRange i)
  match given with
  | .int i => bounded i
  | .text s =>
    if isDigits (trim s.toList) then do bounded (← buildNumeral s) else refuse (.malformedPort given)
  | _ => refuse (.malformedPort given)

def Host.build (label : Label) (address : Value) : Built Host := do
  return { label with address := ← Address.build address }

def Network.ofMask (label : Label) (address : Address)
    (mask : { mask : Address // mask.isNetmask = true }) : Built Network :=
  if h : address.base mask.1 = address then
    .ok { label with address, mask := mask.1, isNetmask := mask.2, isBase := h }
  else refuse (.hostBits address mask.1)

def Network.build (label : Label) (address mask : Value) : Built Network := do
  let address ← Address.build address
  Network.ofMask label address (← Address.buildMask mask)

/-- A network in the notation of base address and mask length. -/
def Network.ofCidr (label : Label) (cidr : String) : Built Network :=
  let cs := trim cidr.toList
  match cs.dropWhile (· ≠ '/') with
  | [] => refuse (.missingMaskLength cidr)
  | _ :: length => do
    let mask ← Address.buildNetmask (.text (String.ofList length))
    let address ← Address.build (.text (String.ofList (cs.takeWhile (· ≠ '/'))))
    if h : mask.isNetmask = true then Network.ofMask label address ⟨mask, h⟩
    else refuse (.scatteredMask mask)

def Range.build (label : Label) (first last : Value) : Built Range := do
  let first ← Address.build first
  let last ← Address.build last
  if h : first ≤ last then return { label with first, last, ordered := h }
  else refuse (.reversedAddresses first last)

def Range.ofText (label : Label) (text : String) : Built Range :=
  match split '-' (trim text.toList) with
  | [first, last] => Range.build label (.text (String.ofList first)) (.text (String.ofList last))
  | _ => refuse (.malformedRange text)

def Port.build (label : Label) (number protocol : Value) : Built Port := do
  let number ← buildPortNumber number
  return { label with number := number.1, bounded := number.2, protocol := ← Protocol.build protocol }

def PortRange.build (label : Label) (first last protocol : Value) : Built PortRange := do
  let first ← buildPortNumber first
  let last ← buildPortNumber last
  let protocol ← Protocol.build protocol
  if h : first.1 ≤ last.1 then
    return { label with first := first.1, last := last.1, ordered := h, bounded := last.2, protocol }
  else refuse (.reversedPorts first.1 last.1)

end Rulebase
