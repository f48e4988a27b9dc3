namespace ExprTree.Text

structure Ranges where
  ranges : List (Nat × Nat)

namespace Ranges

-- Whether a code point is in one of the ranges. The search ends at the first range above it.
def search (n : Nat) : List (Nat × Nat) → Bool
  | [] => false
  | (low, high) :: above => low ≤ n && (n ≤ high || search n above)

def contains (r : Ranges) (c : Char) : Bool :=
  search c.toNat r.ranges

end Ranges

end ExprTree.Text
