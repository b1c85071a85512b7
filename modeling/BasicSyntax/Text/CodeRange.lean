/-! # Ranges of code points — how a character class is tabled

    A class of characters is a list of inclusive ranges in increasing order. -/

namespace BasicSyntax.Text

/-- Inclusive ranges of code points, in increasing order. -/
abbrev CodeRanges := List (Nat × Nat)

/-- Whether a character lies in one of the ranges. -/
def CodeRanges.has (ranges : CodeRanges) (c : Char) : Bool :=
  ranges.any fun range => range.1 ≤ c.toNat && c.toNat ≤ range.2

end BasicSyntax.Text
