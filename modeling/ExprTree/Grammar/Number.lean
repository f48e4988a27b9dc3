import ExprTree.Binary.Numeral
import ExprTree.Grammar.Token

namespace ExprTree.Grammar

open ExprTree.Parser

def digits : Rule (List Char) :=
  (satisfy Char.isDigit).many1

def hexDigits : Rule (List Char) :=
  (satisfy Text.isHexDigit).many1

inductive IntegerSuffix where
  | unsigned | long | unsignedLong
deriving DecidableEq, Repr

def integerSuffix : Rule IntegerSuffix :=
  oneOf [
    (fun _ => .unsignedLong) <$> textIgnoringCase "ul",
    (fun _ => .unsignedLong) <$> textIgnoringCase "lu",
    (fun _ => .unsigned) <$> textIgnoringCase "u",
    (fun _ => .long) <$> textIgnoringCase "l"]

def integerLiteral (value : Nat) (suffix : Option IntegerSuffix) : Literal :=
  let uint := Literal.uint (.ofNat value)
  let long := Literal.long (.ofNat value)
  let ulong := Literal.ulong (.ofNat value)
  match suffix with
  | none =>
    if value < 0x80000000 then .int (.ofNat value)
    else if value < 0x100000000 then uint
    else if value < 0x8000000000000000 then long
    else ulong
  | some .unsigned => if value < 0x100000000 then uint else ulong
  | some .long => if value < 0x8000000000000000 then long else ulong
  | some .unsignedLong => ulong

def word64 (base : Nat) (p : Rule (List Char)) : Rule Nat :=
  p.filterMap fun ds =>
    let value := Text.numeral base ds
    if value < 0x10000000000000000 then some value else none

def integer : Rule Literal :=
  let value := (textIgnoringCase "0x" *> word64 16 hexDigits) <|> word64 10 digits
  let literal := (fun (n, suffix) => integerLiteral n suffix) <$> value.pair integerSuffix.optional
  token (literal.notFollowedBy (satisfy isIdentifierPart))

inductive RealSuffix where
  | float | double | decimal
deriving DecidableEq, Repr

def realSuffix : Rule RealSuffix :=
  oneOf [
    (fun _ => .float) <$> textIgnoringCase "f",
    (fun _ => .double) <$> textIgnoringCase "d",
    (fun _ => .decimal) <$> textIgnoringCase "m"]

-- The exponent's digits have to fit into 31 bits.
def exponent : Rule Int :=
  let sign : Rule (Option Char) := (character '+' <|> character '-').optional
  let marker : Rule Char := character 'e' <|> character 'E'
  (marker *> sign.pair digits).filterMap fun (sign, ds) =>
    let n := Text.numeral 10 ds
    if n < 0x80000000 then some (if sign = some '-' then -n else n) else none

structure RealParts where
  integral : Option (List Char)
  fraction : Option (List Char)
  exponent : Option Int
  suffix   : Option RealSuffix

namespace RealParts

def isComplete (r : RealParts) : Bool :=
  (r.integral.isSome || r.fraction.isSome) &&
    (r.fraction.isSome || r.exponent.isSome || r.suffix.isSome)

def literal? (r : RealParts) : Option Literal :=
  let integral := r.integral.getD []
  let fraction := r.fraction.getD []
  let exponent := r.exponent.getD 0
  let nearest (f : Binary.Format) : Option Nat :=
    f.ofNumeral? (integral ++ fraction) (exponent - fraction.length)
  match r.suffix.getD .double with
  | .float => (nearest .single).map fun bits => .float (.ofNat bits)
  | .double => (nearest .double).map fun bits => .double (.ofNat bits)
  | .decimal => (Decimal.ofNumeral? integral fraction exponent).map .decimal

end RealParts

def realParts : Rule RealParts := do
  let integral ← digits.optional
  let fraction ← (character '.' *> digits).optional
  let exponent ← exponent.optional
  let suffix ← realSuffix.optional
  return ⟨integral, fraction, exponent, suffix⟩

def real : Rule Literal :=
  let literal := (realParts.filter RealParts.isComplete).filterMap RealParts.literal?
  token (literal.notFollowedBy (satisfy isIdentifierPart))

end ExprTree.Grammar
