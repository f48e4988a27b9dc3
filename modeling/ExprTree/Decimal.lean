import ExprTree.Text.Digits

namespace ExprTree

structure Decimal where
  mantissa : Int
  scale    : Nat
deriving DecidableEq, Repr

namespace Decimal

def maxScale : Nat := 28

-- `2 ^ 96`
def mantissaLimit : Nat := 0x1000000000000000000000000

def fit? (mantissa scale : Nat) : Option Decimal :=
  if mantissa < mantissaLimit then some ⟨mantissa, scale⟩ else none

-- The value of a run of digits without zeros at its start, as a word of 128 bits. 30 digits or more
-- never fit a mantissa, and 29 always fit the word.
def mantissa? (digits : List Char) : Option (BitVec 128) :=
  match digits.length with
  | 0 => some 0
  | n + 1 => if n < 29 then (Text.natural? (Nat.pow 2 128) digits).map (.ofNat 128) else none

def roundsUp (mantissa : BitVec 128) (dropped : List Char) : Bool :=
  let first := dropped.headD '0'
  let sticky := dropped.tail.any (· != '0')
  '5' < first || (first == '5' && (sticky || mantissa % 2 == 1))

def roundHalfEven? (digits : List Char) (drop : Nat) : Option (BitVec 128) :=
  if digits.length < drop then some 0
  else do
    let (kept, dropped) := digits.splitAt (digits.length - drop)
    let mantissa ← mantissa? kept
    return if roundsUp mantissa dropped then mantissa + 1 else mantissa

-- The mantissa and the scale of digits without zeros at their start, of which some stand behind the
-- point. A negative number of them may be far too large to write out the zeros that it stands for.
def scaled? (digits : List Char) : Int → Option (BitVec 128 × Nat)
  | .ofNat scale =>
    if scale ≤ maxScale then (mantissa? digits).map (·, scale)
    else (roundHalfEven? digits (scale - maxScale)).map (·, maxScale)
  | .negSucc n =>
    let zeros := n + 1
    if digits.isEmpty then some (0, 0)
    else if 29 < digits.length + zeros then none
    else (mantissa? (digits ++ List.replicate zeros '0')).map (·, 0)

def ofNumeral? (integral fraction : List Char) (exponent : Int) : Option Decimal :=
  let digits := (integral ++ fraction).dropWhile (· == '0')
  (scaled? digits (fraction.length - exponent)).bind fun (mantissa, scale) =>
    fit? mantissa.toNat scale

def text (d : Decimal) : String :=
  let sign := if d.mantissa < 0 then "-" else ""
  let digits := Nat.toDigits 10 d.mantissa.natAbs
  if d.scale = 0 then sign ++ String.ofList digits
  else
    let padded := List.replicate (d.scale + 1 - digits.length) '0' ++ digits
    let whole := padded.length - d.scale
    sign ++ String.ofList (padded.take whole) ++ "." ++ String.ofList (padded.drop whole)

end Decimal

end ExprTree
