import Rulebase.Address.Dotted
import Rulebase.Value

/-!
# Why an object cannot be built

Building an object fails because a part of it is not what it has to be, or because a numeral in it
cannot be read as a number.
-/

namespace Rulebase

inductive Invalid where
  | addressNotInteger (given : Value)
  | addressOutOfRange (given : Int)
  | malformedAddress (given : Value)
  | maskLength (given : Value)
  | malformedMask (given : Value)
  | scatteredMask (mask : Address)
  | missingMaskLength (given : String)
  | hostBits (address mask : Address)
  | reversedAddresses (first last : Address)
  | malformedRange (given : String)
  | malformedPort (given : Value)
  | portOutOfRange (given : Int)
  | reversedPorts (first last : Nat)
  | unknownProtocol (given : String)
  deriving DecidableEq, Repr

inductive BuildError where
  | invalid (cause : Invalid)
  | numeral (cause : Text.NumeralError)
  deriving DecidableEq, Repr

def Invalid.isWritable : Invalid → Bool
  | addressNotInteger given | malformedAddress given | maskLength given | malformedMask given
  | malformedPort given => given.isWritable
  | addressOutOfRange given | portOutOfRange given => Text.isWritable given
  | scatteredMask _ | missingMaskLength _ | hostBits _ _ | reversedAddresses _ _ | malformedRange _
  | reversedPorts _ _ | unknownProtocol _ => true

def Invalid.message : Invalid → String
  | addressNotInteger given => "address value must be an integer: " ++ given.literal
  | addressOutOfRange given => "address value out of range: " ++ Text.integer given
  | malformedAddress given => "invalid address: " ++ given.literal
  | maskLength given => "invalid subnet mask: /" ++ given.plain
  | malformedMask given => "invalid subnet mask: " ++ given.literal
  | scatteredMask mask => "invalid subnet mask: " ++ mask.text
  | missingMaskLength given => "missing prefix length: " ++ Text.quote given
  | hostBits address mask =>
    "address not the network address for supplied subnet: " ++ address.text ++ "/" ++ mask.text
  | reversedAddresses first last =>
    "range start must not be greater than the end: " ++ first.text ++ "-" ++ last.text
  | malformedRange given => "invalid range string: " ++ Text.quote given
  | malformedPort given => "invalid port number: " ++ given.literal
  | portOutOfRange given => "port number out of range: " ++ Text.integer given
  | reversedPorts first last =>
    "range start must not be greater than the end: " ++ Text.numeral first ++ "-" ++ Text.numeral last
  | unknownProtocol given => "invalid protocol: " ++ Text.quote given

end Rulebase
