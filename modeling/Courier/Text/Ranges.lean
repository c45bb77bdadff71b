/-!
# Sets of characters as ranges of code points

A property of characters is kept as the list of its ranges, both ends included,
in ascending order.
-/

namespace Courier.Text

abbrev Ranges := List (Nat × Nat)

def Ranges.contains (ranges : Ranges) (c : Char) : Bool :=
  ranges.any fun range => range.1 ≤ c.toNat && c.toNat ≤ range.2

end Courier.Text
