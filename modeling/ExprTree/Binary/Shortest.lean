import ExprTree.Binary.Format

namespace ExprTree.Binary

structure Scientific where
  digits   : Nat
  exponent : Int
deriving DecidableEq, Repr

structure Interval where
  low      : Nat
  value    : Nat
  high     : Nat
  denom    : Nat
  closed   : Bool

namespace Interval

-- The interval of a finite magnitude other than zero. Below a power of two the neighbours are half
-- as far apart, so it is counted in quarters of the last bit.
def ofMagnitude (f : Format) (magnitude : Nat) : Interval :=
  let m := f.significand magnitude
  let e := f.exponent magnitude - 2
  let unit := Nat.pow 2 e.toNat
  let below := if m = Nat.pow 2 f.fractionBits && 1 < f.exponentField magnitude then 1 else 2
  { low    := (4 * m - below) * unit
    value  := 4 * m * unit
    high   := (4 * m + 2) * unit
    denom  := Nat.pow 2 (-e).toNat
    closed := m % 2 == 0 }

def contains (i : Interval) (n d : Nat) : Bool :=
  if i.closed then i.low * d ≤ n * i.denom && n * i.denom ≤ i.high * d
  else i.low * d < n * i.denom && n * i.denom < i.high * d

def floorLog10 (i : Interval) : Int :=
  let width (n : Nat) : Int := (Nat.toDigits 10 n).length
  let e := width i.value - width i.denom
  if i.denom * Nat.pow 10 e.toNat ≤ i.value * Nat.pow 10 (-e).toNat then e else e - 1

-- The multiple of `10 ^ e` that stands for the number, if there is one: the one just below the
-- value or the one just above it.
def multiple? (i : Interval) (e : Int) : Option Nat :=
  let up := Nat.pow 10 e.toNat
  let down := Nat.pow 10 (-e).toNat
  let n := i.value * down
  let d := i.denom * up
  let below := n / d
  let hitsBelow := i.contains (below * up) down
  let hitsAbove := i.contains ((below + 1) * up) down
  if hitsBelow && hitsAbove then some (if 2 * (n % d) < d then below else below + 1)
  else if hitsBelow then some below
  else if hitsAbove then some (below + 1)
  else none

def maxDigits : Nat := 18

-- Of the decimals in the interval, one with the fewest digits, and of these the nearest one, or the
-- larger one of two that are equally near.
def shortest (i : Interval) : Scientific :=
  let e := i.floorLog10
  let found := (List.range maxDigits).findSome? fun (k : Nat) =>
    (i.multiple? (e - k)).map fun n => (⟨n, e - k⟩ : Scientific)
  found.getD ⟨0, 0⟩

end Interval

structure Layout where
  -- Exponents of the leading digit that are written out with zeros.
  leastPositional    : Int
  greatestPositional : Int

def Layout.standard : Layout := ⟨-4, 15⟩

def Layout.digits (l : Layout) (digits : List Char) (e : Int) : String :=
  let zeros (n : Int) : List Char := List.replicate n.toNat '0'
  let places := digits.length
  if e < l.leastPositional || l.greatestPositional < e then
    let fraction := if places ≤ 1 then [] else '.' :: digits.drop 1
    String.ofList (digits.take 1 ++ fraction) ++ "e" ++ toString e
  else if e < 0 then "0." ++ String.ofList (zeros (-e - 1) ++ digits)
  else
    let whole := e.toNat + 1
    let fraction := if places ≤ whole then ['0'] else digits.drop whole
    String.ofList (digits.take whole ++ zeros (whole - places) ++ '.' :: fraction)

def Format.text (f : Format) (bits : Nat) : String :=
  let sign := if f.isNegative bits then "-" else ""
  let magnitude := f.magnitude bits
  if f.infinity < magnitude then "NaN"
  else if magnitude = f.infinity then sign ++ "inf"
  else if magnitude = 0 then sign ++ "0.0"
  else
    let s := (Interval.ofMagnitude f magnitude).shortest
    let all := Nat.toDigits 10 s.digits
    let digits := (all.reverse.dropWhile (· == '0')).reverse
    sign ++ Layout.standard.digits digits (s.exponent + all.length - 1)

end ExprTree.Binary
