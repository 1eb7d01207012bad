/-!
# Tables of code points

A character class given as a table: a list of ranges of code points, both
ends included.
-/

namespace ConstGraph.Text

/-- A class of characters as ranges of code points. -/
abbrev RangeTable := List (Nat × Nat)

/-- The character lies in one of the ranges. -/
def RangeTable.contains (table : RangeTable) (c : Char) : Bool :=
  table.any fun r => r.1 ≤ c.toNat && c.toNat ≤ r.2

end ConstGraph.Text
