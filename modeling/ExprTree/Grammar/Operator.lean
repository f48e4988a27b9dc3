import ExprTree.Grammar.Token
import ExprTree.Parser.Chain

namespace ExprTree.Grammar

open ExprTree.Parser

-- A binary operator and the next characters that would make it another one.
structure OperatorToken where
  op        : BinaryOp
  notBefore : List Char

def OperatorToken.rule (t : OperatorToken) : Rule (Expr → Expr → Option Expr) :=
  (operator t.op.symbol t.notBefore).filterMapState fun s _ =>
    some fun left right => (s.builder.binary t.op left right).toOption

def tiers : List (List OperatorToken) :=
  [[⟨.multiply, ['=']⟩, ⟨.divide, ['=']⟩, ⟨.modulo, ['=']⟩],
   [⟨.add, ['+', '=']⟩, ⟨.subtract, ['-', '=']⟩],
   [⟨.leftShift, ['=']⟩, ⟨.rightShift, ['=']⟩],
   [⟨.lessThanOrEqual, []⟩, ⟨.greaterThanOrEqual, []⟩, ⟨.lessThan, ['<', '=']⟩,
    ⟨.greaterThan, ['>', '=']⟩],
   [⟨.equal, []⟩, ⟨.notEqual, []⟩],
   [⟨.and, ['&', '=']⟩],
   [⟨.exclusiveOr, ['=']⟩],
   [⟨.or, ['|', '=']⟩],
   [⟨.andAlso, []⟩],
   [⟨.orElse, []⟩]]

def tierOperator (tier : List OperatorToken) : Rule (Expr → Expr → Option Expr) :=
  oneOf (tier.map OperatorToken.rule)

def tierOperators : List (Rule (Expr → Expr → Option Expr)) :=
  tiers.map tierOperator

def coalesceOperator : Rule (Expr → Expr → Option Expr) :=
  OperatorToken.rule ⟨.coalesce, ['=']⟩

def binaryChain (operand : Rule Expr) : Rule Expr :=
  (tierOperators.foldl chainLeft operand).chainRight coalesceOperator

def leadingOperator : Rule UnaryOp :=
  oneOf [
    (fun _ => .preIncrement) <$> operator "++" [],
    (fun _ => .preDecrement) <$> operator "--" [],
    (fun _ => .negate) <$> operator "-" ['='],
    (fun _ => .plus) <$> operator "+" ['='],
    (fun _ => .not) <$> operator "!" ['='],
    (fun _ => .complement) <$> operator "~" []]

def trailingOperator : Rule UnaryOp :=
  oneOf [
    (fun _ => .postIncrement) <$> operator "++" [],
    (fun _ => .postDecrement) <$> operator "--" []]

end ExprTree.Grammar
