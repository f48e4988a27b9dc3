import ExprTree.Grammar.Statement
import ExprTree.Parser.Outcome

namespace ExprTree.Grammar

open ExprTree.Parser

-- The rules for `depth` levels of constructs, with other rules below the last of them.
def Nested.over (bottom : Nested) : Nat → Nested
  | 0 => bottom
  | depth + 1 =>
    { expression := ⟨fun c => (expressionOver (Nested.over bottom depth)).run c⟩
      unary      := ⟨fun c => (unaryOver (Nested.over bottom depth)).run c⟩
      statement  := ⟨fun c => (statementOver (Nested.over bottom depth)).run c⟩ }

theorem Nested.over_succ (bottom : Nested) (depth : Nat) :
    Nested.over bottom (depth + 1) =
      ⟨expressionOver (Nested.over bottom depth), unaryOver (Nested.over bottom depth),
        statementOver (Nested.over bottom depth)⟩ := by
  rw [Nested.over]

def Nested.nothing : Nested :=
  ⟨fail, fail, fail⟩

def Nested.at (depth : Nat) : Nested :=
  Nested.over .nothing depth

theorem Nested.at_succ (depth : Nat) :
    Nested.at (depth + 1) =
      ⟨expressionOver (Nested.at depth), unaryOver (Nested.at depth),
        statementOver (Nested.at depth)⟩ :=
  Nested.over_succ _ depth

theorem Nested.at_induction {P : Nested → Prop} (nothing : P .nothing)
    (deeper : ∀ nested, P nested →
      P ⟨expressionOver nested, unaryOver nested, statementOver nested⟩) (depth : Nat) :
    P (Nested.at depth) := by
  induction depth with
  | zero => exact nothing
  | succ depth ih =>
    rw [Nested.at_succ]
    exact deeper _ ih

-- A construct contains others only behind its first token, so the number of bytes that are left bounds
-- the depth of the constructs in them.
def unbounded {α : Type} (rule : Nested → Rule α) : Rule α where
  run c := (rule (Nested.at c.remaining)).run c

theorem parses_unbounded {α : Type} (rule : Nested → Rule α) (c : Cursor Scope) :
    (unbounded rule).parses c = (rule (Nested.at c.remaining)).parses c := rfl

def expression : Rule Expr := unbounded expressionOver

def nonAssignment : Rule Expr := unbounded nonAssignmentOver

def lambda : Rule Expr := unbounded lambdaOver

def block : Rule Expr := unbounded blockOver

def declaration : Rule (List Expr) := unbounded declarationOver

def statement : Rule (List Expr) := unbounded statementOver

def expressionUnit : Rule Expr :=
  whitespace *> expression <* endOfInput

-- A statement outside of a block gets a block of its own for the variables that it declares.
def statementUnit : Rule Expr :=
  whitespace *> (block <|> inBlock statement) <* endOfInput

def typeUnit : Rule Ty :=
  whitespace *> typeName <* endOfInput

end Grammar

def parseExpression (source : String) (scope : Scope) : Except ParseError Expr :=
  (Grammar.expressionUnit.parse source scope).map (·.value)

def parseStatement (source : String) (scope : Scope) : Except ParseError Expr :=
  (Grammar.statementUnit.parse source scope).map (·.value)

def parseType (source : String) (scope : Scope) : Except ParseError Ty :=
  (Grammar.typeUnit.parse source scope).map (·.value)

end ExprTree
