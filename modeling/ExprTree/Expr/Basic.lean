import ExprTree.Literal

namespace ExprTree

structure Symbol where
  name : String
  ty   : Ty
deriving DecidableEq

inductive UnaryOp where
  | negate | plus | not | complement
  | preIncrement | preDecrement | postIncrement | postDecrement
deriving DecidableEq, Repr

namespace UnaryOp

def isMutating : UnaryOp → Bool
  | preIncrement | preDecrement | postIncrement | postDecrement => true
  | _ => false

def isTrailing : UnaryOp → Bool
  | postIncrement | postDecrement => true
  | _ => false

def symbol : UnaryOp → String
  | negate => "-"
  | plus => "+"
  | not => "!"
  | complement => "~"
  | preIncrement | postIncrement => "++"
  | preDecrement | postDecrement => "--"

end UnaryOp

inductive BinaryOp where
  | add | subtract | multiply | divide | modulo | leftShift | rightShift
  | lessThan | greaterThan | lessThanOrEqual | greaterThanOrEqual | equal | notEqual
  | and | exclusiveOr | or | andAlso | orElse | coalesce
deriving DecidableEq, Repr

def BinaryOp.symbol : BinaryOp → String
  | add => "+"
  | subtract => "-"
  | multiply => "*"
  | divide => "/"
  | modulo => "%"
  | leftShift => "<<"
  | rightShift => ">>"
  | lessThan => "<"
  | greaterThan => ">"
  | lessThanOrEqual => "<="
  | greaterThanOrEqual => ">="
  | equal => "=="
  | notEqual => "!="
  | and => "&"
  | exclusiveOr => "^"
  | or => "|"
  | andAlso => "&&"
  | orElse => "||"
  | coalesce => "??"

inductive Expr where
  | constant (value : Literal) (ty : Ty)
  | var (symbol : Symbol)
  | defaultValue (ty : Ty)
  | unary (op : UnaryOp) (operand : Expr) (ty : Ty)
  | binary (op : BinaryOp) (left right : Expr) (ty : Ty)
  | conditional (condition yes no : Expr) (ty : Ty)
  | member (target : Expr) (owner : Ty) (name : String) (ty : Ty)
  | staticMember (owner : Ty) (name : String) (ty : Ty)
  | call (target : Expr) (owner : Ty) (method : String) (args : List Expr) (ty : Ty)
  | staticCall (owner : Ty) (method : String) (args : List Expr) (ty : Ty)
  | invoke (delegate : Expr) (args : List Expr) (ty : Ty)
  | index (target : Expr) (args : List Expr) (ty : Ty)
  | newArray (element : Ty) (items : List Expr) (ty : Ty)
  | lambda (params : List Symbol) (body : Expr) (ty : Ty)
  | convert (operand : Expr) (ty : Ty)
  | block (locals : List Symbol) (body : List Expr) (ty : Ty)
  | assign (target value : Expr) (ty : Ty)
deriving Inhabited

namespace Expr

def ty : Expr → Ty
  | var s => s.ty
  | constant _ t | defaultValue t | unary _ _ t | binary _ _ _ t | conditional _ _ _ t
  | member _ _ _ t | staticMember _ _ t | call _ _ _ _ t | staticCall _ _ _ t | invoke _ _ t
  | index _ _ t | newArray _ _ t | lambda _ _ t | convert _ t | block _ _ t | assign _ _ t => t

def isAssignable : Expr → Bool
  | var _ => true
  | index target _ _ =>
    match target.ty with
    | .array _ => true
    | _ => false
  | _ => false

end Expr

end ExprTree
