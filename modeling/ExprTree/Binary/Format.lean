import ExprTree.Rounding

namespace ExprTree.Binary

structure Format where
  fractionBits : Nat
  exponentBits : Nat

namespace Format

def single : Format := ⟨23, 8⟩

def double : Format := ⟨52, 11⟩

variable (f : Format)

def infinity : Nat :=
  (Nat.pow 2 f.exponentBits - 1) * Nat.pow 2 f.fractionBits

def signBit : Nat :=
  Nat.pow 2 (f.fractionBits + f.exponentBits)

-- The power of two that the last bit of the smallest numbers counts.
def leastExponent : Int :=
  2 - Int.ofNat (Nat.pow 2 (f.exponentBits - 1)) - f.fractionBits

def isNegative (bits : Nat) : Bool :=
  f.signBit ≤ bits

def magnitude (bits : Nat) : Nat :=
  bits % f.signBit

def exponentField (magnitude : Nat) : Nat :=
  magnitude / Nat.pow 2 f.fractionBits

def significand (magnitude : Nat) : Nat :=
  let fraction := magnitude % Nat.pow 2 f.fractionBits
  if f.exponentField magnitude = 0 then fraction else Nat.pow 2 f.fractionBits + fraction

def exponent (magnitude : Nat) : Int :=
  f.leastExponent + (f.exponentField magnitude - 1 : Nat)

end Format

def floorLog2 (n d : Nat) : Int :=
  let e : Int := Int.ofNat n.log2 - Int.ofNat d.log2
  if d * Nat.pow 2 e.toNat ≤ n * Nat.pow 2 (-e).toNat then e else e - 1

-- The patterns without a sign are in the order of their numbers. So rounding up past the largest
-- fraction carries into the exponent, and past the largest finite number it gives infinity.
def Format.nearest (f : Format) (n d : Nat) : Nat :=
  if n = 0 then 0
  else
    let e := max f.leastExponent (floorLog2 n d - f.fractionBits)
    let significand := divRoundEven (n * Nat.pow 2 (-e).toNat) (d * Nat.pow 2 e.toNat)
    (e - f.leastExponent).toNat * Nat.pow 2 f.fractionBits + significand

end ExprTree.Binary
