import Rulebase.Text.Numeral

/-!
# Misuse

An operation fails when it is given something that lacks a part it asks for, that it cannot go through
part by part, or that it cannot write.
-/

namespace Rulebase

inductive Misuse where
  /-- Things of the type have no such part. -/
  | missing (typeName part : String)
  /-- Things of the type cannot be gone through. -/
  | notIterable (typeName : String)
  /-- Things of the type cannot be gone through backwards. -/
  | notReversible (typeName : String)
  /-- A number is not written. -/
  | numeral (cause : Text.NumeralError)
  deriving DecidableEq, Repr

def Misuse.message : Misuse → String
  | missing typeName part => "'" ++ typeName ++ "' object has no attribute '" ++ part ++ "'"
  | notIterable typeName => "'" ++ typeName ++ "' object is not iterable"
  | notReversible typeName => "'" ++ typeName ++ "' object is not reversible"
  | numeral cause => cause.message

end Rulebase
