import ExprTree.Expr.Basic

namespace ExprTree

def Symbol.declaration (s : Symbol) : String :=
  s.ty.text ++ " " ++ s.name

def BinaryOp.precedence : BinaryOp → Nat
  | coalesce => 1
  | orElse => 2
  | andAlso => 3
  | or => 4
  | exclusiveOr => 5
  | and => 6
  | equal | notEqual => 7
  | lessThan | greaterThan | lessThanOrEqual | greaterThanOrEqual => 8
  | leftShift | rightShift => 9
  | add | subtract => 10
  | multiply | divide | modulo => 11

namespace Expr

def lowestPrecedence : Nat := 0

def unaryPrecedence : Nat := 12

def primaryPrecedence : Nat := 13

def precedence : Expr → Nat
  | binary op _ _ _ => op.precedence
  | unary op _ _ => if op.isTrailing then primaryPrecedence else unaryPrecedence
  | conditional .. | lambda .. | assign .. => lowestPrecedence
  | _ => primaryPrecedence

def isBlock : Expr → Bool
  | block .. => true
  | _ => false

-- A node's text in a place that asks for some precedence.
def fitted (slot : Nat) (e : Expr) (text : String) : String :=
  if e.precedence < slot then "(" ++ text ++ ")" else text

def indentation (depth : Nat) : String :=
  String.join (List.replicate depth "    ")

mutual

def textAt (depth : Nat) : Expr → String
  | constant value _ => value.text
  | var s => s.name
  | defaultValue t => "default(" ++ t.text ++ ")"
  | unary op e _ =>
    if op.isTrailing then fitted primaryPrecedence e (textAt depth e) ++ op.symbol
    -- An operator before another one is kept apart from it, so that `-(-x)` is no `--x`.
    else op.symbol ++ fitted (unaryPrecedence + 1) e (textAt depth e)
  | binary op l r _ =>
    -- `??` groups to the right, and every other operator to the left.
    let (left, right) :=
      if op = .coalesce then (op.precedence + 1, op.precedence)
      else (op.precedence, op.precedence + 1)
    fitted left l (textAt depth l) ++ " " ++ op.symbol ++ " " ++ fitted right r (textAt depth r)
  | conditional c a b _ =>
    fitted 1 c (textAt depth c) ++ " ? " ++ textAt depth a ++ " : " ++ textAt depth b
  | member e _ name _ => fitted primaryPrecedence e (textAt depth e) ++ "." ++ name
  | staticMember owner name _ => owner.text ++ "." ++ name
  | call e _ method args _ =>
    fitted primaryPrecedence e (textAt depth e) ++ "." ++ method ++ "(" ++ listAt depth args ++ ")"
  | staticCall owner method args _ =>
    owner.text ++ "." ++ method ++ "(" ++ listAt depth args ++ ")"
  | invoke e args _ =>
    fitted primaryPrecedence e (textAt depth e) ++ "(" ++ listAt depth args ++ ")"
  | index e args _ =>
    fitted primaryPrecedence e (textAt depth e) ++ "[" ++ listAt depth args ++ "]"
  | newArray element items _ =>
    let filled := if items.isEmpty then "" else " \x7b " ++ listAt depth items ++ " \x7d"
    "new " ++ element.text ++ "[]" ++ filled
  | lambda params body _ =>
    "(" ++ ", ".intercalate (params.map Symbol.declaration) ++ ") => " ++ textAt depth body
  | convert e t => "Convert(" ++ textAt depth e ++ ", " ++ t.text ++ ")"
  | block locals body _ =>
    let inner := indentation (depth + 1)
    let declared := String.join (locals.map fun s => inner ++ Symbol.declaration s ++ ";\n")
    "\x7b\n" ++ declared ++ statementsAt (depth + 1) body ++ indentation depth ++ "\x7d"
  | assign target value _ =>
    fitted primaryPrecedence target (textAt depth target) ++ " = " ++ textAt depth value

def listAt (depth : Nat) : List Expr → String
  | [] => ""
  | e :: es => textAt depth e ++ furtherAt depth es

def furtherAt (depth : Nat) : List Expr → String
  | [] => ""
  | e :: es => ", " ++ textAt depth e ++ furtherAt depth es

def statementsAt (depth : Nat) : List Expr → String
  | [] => ""
  | e :: es =>
    let terminator := if e.isBlock then "\n" else ";\n"
    indentation depth ++ textAt depth e ++ terminator ++ statementsAt depth es

end

def text (e : Expr) : String :=
  textAt 0 e

end Expr

end ExprTree
