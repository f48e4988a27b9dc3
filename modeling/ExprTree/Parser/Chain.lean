import ExprTree.Parser.Repetition

namespace ExprTree.Parser

universe u v

variable {σ : Type u} {α : Type v}

-- `operand (operator operand)*`, applied from the left. The chain ends before an operator whose
-- application is refused.
def chainLeft (operand : Parser σ α) (operator : Parser σ (α → α → Option α)) : Parser σ α := do
  let a ← operand
  (operator.pair operand).repeated 0 none a fun acc link => link.1 acc link.2

def chainLeftOr (operand : Parser σ α) (operator : Parser σ (α → α → Option α)) (default : α) :
    Parser σ α :=
  operand.chainLeft operator <|> Parser.pure default

structure Link (σ : Type u) (α : Type v) where
  apply   : α → α → Option α
  operand : α
  tail    : Cursor σ

def Link.foldRight (head : α) (apply : α → α → Option α) (right : α) : List (Link σ α) → Option α
  | [] => apply head right
  | before :: earlier => do
    let folded ← apply before.operand right
    foldRight head before.apply folded earlier

-- The fold of the longest part of a chain that folds. The links come last one first.
def Link.cutBack (head : Parsed σ α) : List (Link σ α) → Parsed σ α
  | [] => head
  | last :: earlier =>
    match foldRight head.value last.apply last.operand earlier with
    | some a => ⟨a, last.tail⟩
    | none => cutBack head earlier

def Link.parser (operand : Parser σ α) (operator : Parser σ (α → α → Option α)) :
    Parser σ (Link σ α) where
  run c := ((operator.pair operand).run c).map fun r => ⟨⟨r.value.1, r.value.2, r.tail⟩, r.tail⟩

-- `operand (operator operand)*`, applied from the right. The whole chain is read first; where an
-- application is refused, the chain is cut back to the longest part that folds.
def chainRight (operand : Parser σ α) (operator : Parser σ (α → α → Option α)) : Parser σ α where
  run c := (operand.run c).flatMap fun head =>
    let links := (Link.parser operand operator).manyFold [] fun acc link => link :: acc
    (links.run head.tail).map fun found => Link.cutBack head found.value

def suffixed (operand : Parser σ α) (suffix : Parser σ (α → Option α)) : Parser σ α := do
  let a ← operand
  suffix.repeated 0 none a fun acc apply => apply acc

end ExprTree.Parser
