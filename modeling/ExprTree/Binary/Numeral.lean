import ExprTree.Binary.Format
import ExprTree.Text.Digits

namespace ExprTree.Binary

def reach : Int := 400

-- The pattern nearest to `digits * 10 ^ exponent`, unless that is beyond the finite numbers. The
-- exponent may be far too large to form its power of ten, so numbers beyond the reach of the format
-- are told by the number of their digits.
def Format.ofNumeral? (f : Format) (digits : List Char) (exponent : Int) : Option Nat :=
  let digits := digits.dropWhile (· == '0')
  let n := Text.numeral 10 digits
  let size := digits.length + exponent
  if n = 0 || size < -reach then some 0
  else if reach < size then none
  else
    let bits := f.nearest (n * Nat.pow 10 exponent.toNat) (Nat.pow 10 (-exponent).toNat)
    if bits < f.infinity then some bits else none

end ExprTree.Binary
