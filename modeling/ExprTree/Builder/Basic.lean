import ExprTree.Expr.Basic

namespace ExprTree

inductive TypeError where
  | invalidOperator (symbol : String) (operands : List Ty)
  | mismatch (expected found : Ty)
  | unknownMember (owner : Ty) (name : String)
  | noOverload (owner : Ty) (name : String) (args : List Ty)
  | notCallable (ty : Ty)
  | notAssignable
  | invalidVariableType (ty : Ty)
  | lambdaMismatch (ty : Ty)
deriving DecidableEq

def TypeError.message : TypeError → String
  | invalidOperator symbol operands =>
    "operator " ++ symbol ++ " cannot be applied to " ++ Ty.textList operands
  | mismatch expected found => "cannot convert " ++ found.text ++ " to " ++ expected.text
  | unknownMember owner name => owner.text ++ " has no member " ++ name
  | noOverload owner name args =>
    "no overload of " ++ owner.text ++ "." ++ name ++ " takes (" ++ Ty.textList args ++ ")"
  | notCallable t => t.text ++ " cannot be invoked or indexed that way"
  | notAssignable => "the left-hand side of an assignment must be a variable or element"
  | invalidVariableType t => "a variable cannot be of type " ++ t.text
  | lambdaMismatch t => "lambda does not match delegate type " ++ t.text

-- The grammar asks a builder for the node of every construct that it has read. If the builder refuses,
-- the construct does not match.
structure Builder where
  literal      : Literal → Expr
  defaultValue : Ty → Except TypeError Expr
  typeOf       : Ty → Except TypeError Expr
  unary        : UnaryOp → Expr → Except TypeError Expr
  binary       : BinaryOp → Expr → Expr → Except TypeError Expr
  conditional  : Expr → Expr → Expr → Except TypeError Expr
  member       : Expr → String → Except TypeError Expr
  staticMember : Ty → String → Except TypeError Expr
  call         : Expr → String → List Expr → Except TypeError Expr
  staticCall   : Ty → String → List Expr → Except TypeError Expr
  invoke       : Expr → List Expr → Except TypeError Expr
  index        : Expr → List Expr → Except TypeError Expr
  newArray     : Ty → List Expr → Except TypeError Expr
  -- The first argument is the type that the context asks for.
  lambda       : Option Ty → List Symbol → Expr → Except TypeError Expr
  block        : List Symbol → List Expr → Except TypeError Expr
  declare      : String → Ty → Except TypeError Symbol
  assign       : Expr → Expr → Except TypeError Expr
  convert      : Expr → Ty → Except TypeError Expr

section Success

universe u v w

variable {ε : Type u} {α : Type v} {built : Except ε α}

theorem bind_eq_ok {β : Type v} {b : β} {f : α → Except ε β} :
    (built >>= f) = .ok b ↔ ∃ a, built = .ok a ∧ f a = .ok b := by
  cases built <;> simp [bind, Except.bind]

theorem map_eq_ok {β : Type w} {b : β} {f : α → β} :
    built.map f = .ok b ↔ ∃ a, built = .ok a ∧ f a = b := by
  cases built <;> simp [Except.map]

theorem ok_of_toOption {a : α} (h : built.toOption = some a) : built = .ok a := by
  cases built with
  | error e => simp [Except.toOption] at h
  | ok b => exact congrArg Except.ok (Option.some.inj h)

end Success

end ExprTree
