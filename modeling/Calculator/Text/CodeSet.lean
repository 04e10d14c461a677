/-!
# Sets of characters by code point

A character class of the Unicode standard is kept as the list of closed
intervals of code points that make it up. `CodeSet.holds` decides membership;
the modules `Blank`, `Letter`, `Digit` and `Printable` each give one table.
-/

namespace Calculator.Text

/-- Closed intervals of code points, in increasing order. -/
abbrev CodeSet := List (Nat × Nat)

/-- Membership of a character in one of the intervals. -/
def CodeSet.holds (s : CodeSet) (c : Char) : Bool :=
  s.any fun r => r.1 ≤ c.toNat && c.toNat ≤ r.2

end Calculator.Text
