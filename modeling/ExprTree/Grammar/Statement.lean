import ExprTree.Grammar.Expression

namespace ExprTree.Grammar

open ExprTree.Parser

def assignOperator : Rule String :=
  operator "=" ['=', '>']

def declareLocal (v : Symbol) : Rule Unit :=
  updateState (·.declare v)

section Over

variable (nested : Nested)

-- The variable is in scope in its own initial value.
def declarator (t : Ty) : Rule (Option Expr) := do
  let v ← identifier.filterMapState fun s name => (s.builder.declare name t).toOption
  declareLocal v
  let initial := (assignOperator *> expecting (some t) nested.expression).optional
  initial.filterMapState fun s value =>
    match value with
    | some value => (s.builder.assign (.var v) value).toOption.map some
    | none => some none

def typedDeclaration : Rule (List Expr) :=
  let declarators : Rule (List (Option Expr)) := do
    let t ← typeName
    (declarator nested t).separatedBy (symbol ",")
  List.reduceOption <$> declarators <* symbol ";"

-- The variable has the type of its initial value, and is declared behind it.
def implicitDeclaration : Rule (List Expr) :=
  let named := (keyword "var" *> identifier).pair (assignOperator *> nested.expression)
  let assigned : Rule (Symbol × Expr) := named.filterMapState fun s (name, value) => do
    let v ← (s.builder.declare name value.ty).toOption
    let assignment ← (s.builder.assign (.var v) value).toOption
    return (v, assignment)
  let declared : Rule (List Expr) := do
    let (v, assignment) ← assigned
    declareLocal v
    return [assignment]
  declared <* symbol ";"

def declarationOver : Rule (List Expr) :=
  typedDeclaration nested <|> implicitDeclaration nested

def expressionStatement : Rule Expr :=
  let statement : Rule Expr := do
    let target ← expressionOver nested
    let value := assignOperator *> expecting (some target.ty) nested.expression
    let assigned := value.filterMapState fun s value => (s.builder.assign target value).toOption
    assigned <|> pure target
  statement <* symbol ";"

def statementOver : Rule (List Expr) :=
  oneOf [
    (fun e => [e]) <$> blockOver nested,
    declarationOver nested,
    (fun e => [e]) <$> expressionStatement nested,
    (fun _ => []) <$> symbol ";"]

end Over

end ExprTree.Grammar
