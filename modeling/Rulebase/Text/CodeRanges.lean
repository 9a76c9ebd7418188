/-!
# Sets of code points

A character class beyond ASCII is a list of closed ranges of code points; membership is the search
for a range that holds the character.
-/

namespace Rulebase.Text

abbrev CodeRanges := List (Nat × Nat)

def CodeRanges.has (ranges : CodeRanges) (c : Char) : Bool :=
  ranges.any fun range => range.1 ≤ c.toNat && c.toNat ≤ range.2

end Rulebase.Text
