/-!
# Sets of code points given by ranges

The character classes of the Unicode standard are unions of many short ranges. A class is written
here as a list of closed ranges of code points, and membership is a search of that list.

## Main definitions

* `RangeTable` - a list of closed ranges of code points
* `RangeTable.contains` - whether a character lies in one of the ranges
-/

namespace SuiteMigration.Text

/-- Closed ranges of code points, in increasing order. -/
abbrev RangeTable := List (Nat × Nat)

/-- The character lies in one of the ranges of the table. -/
def RangeTable.contains (table : RangeTable) (c : Char) : Bool :=
  table.any fun range => range.1 ≤ c.toNat && c.toNat ≤ range.2

end SuiteMigration.Text
