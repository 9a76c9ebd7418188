import Rulebase.Text.CodeRanges

/-!
# Blank characters and trimming

The white space of every script, with the four separators of the ASCII controls, and the trimming of
a text at both ends.
-/

namespace Rulebase.Text

def blankRanges : CodeRanges :=
  [(0x09, 0x0D), (0x1C, 0x20), (0x85, 0x85), (0xA0, 0xA0), (0x1680, 0x1680), (0x2000, 0x200A),
   (0x2028, 0x2029), (0x202F, 0x202F), (0x205F, 0x205F), (0x3000, 0x3000)]

/-- White space of any script, or a separator of the ASCII controls. -/
def isBlank (c : Char) : Bool :=
  blankRanges.has c

def trim (cs : List Char) : List Char :=
  ((cs.dropWhile isBlank).reverse.dropWhile isBlank).reverse

def strip (s : String) : String :=
  String.ofList (trim s.toList)

@[simp] theorem trim_nil : trim [] = [] := rfl

end Rulebase.Text
