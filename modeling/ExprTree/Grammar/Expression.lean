import ExprTree.Grammar.Literal
import ExprTree.Grammar.Operator
import ExprTree.Grammar.TypeName

namespace ExprTree.Grammar

open ExprTree.Parser

structure Nested where
  expression : Rule Expr
  unary      : Rule Expr
  statement  : Rule (List Expr)

-- A rule with another expected type; the outer one holds again behind it.
def expecting (expected : Option Ty) (rule : Rule Expr) : Rule Expr :=
  withState (·.withExpected expected) rule

def variableUse : Rule Expr :=
  identifier.filterMapState fun s name => (s.lookup name).map .var

def constant : Rule Expr :=
  literal.filterMapState fun s value => some (s.builder.literal value)

def parenthesizedType (word : String) : Rule Ty :=
  keyword word *> between (symbol "(") typeName (symbol ")")

def typeOf : Rule Expr :=
  (parenthesizedType "typeof").filterMapState fun s t => (s.builder.typeOf t).toOption

def defaultValue : Rule Expr :=
  (parenthesizedType "default").filterMapState fun s t => (s.builder.defaultValue t).toOption

def accessMembers (b : Builder) (target : Expr) : List String → Option (List Expr) → Option Expr
  | [], _ => some target
  | [name], some args => (b.call target name args).toOption
  | name :: names, args => do
    let value ← (b.member target name).toOption
    accessMembers b value names args

def accessStatic (b : Builder) (owner : Ty) : List String → Option (List Expr) → Option Expr
  | [], _ => none
  | [name], some args => (b.staticCall owner name args).toOption
  | name :: names, args => do
    let value ← (b.staticMember owner name).toOption
    accessMembers b value names args

-- The longest beginning of a path that names a type, and the rest of the path, which has to be
-- nonempty.
def splitOwner? (resolver : Resolver) (segments : List String) : Option (Ty × List String) :=
  (List.range (segments.length - 1)).reverse.findSome? fun i =>
    let n := i + 1
    (resolver (dotted (segments.take n))).toOption.map fun owner => (owner, segments.drop n)

def resolveStatic (s : Scope) (owner : Option Ty) (segments : List String)
    (args : Option (List Expr)) : Option Expr := do
  let (owner, members) ← match owner with
    | some owner => some (owner, segments)
    | none => splitOwner? s.resolver segments
  accessStatic s.builder owner members args

def staticPath : Rule (Option Ty × List String) :=
  let keywordOwner : Rule (Option Ty × List String) :=
    (fun (owner, segments) => (some owner, segments)) <$> (predefinedType <* symbol ".").pair path
  let namedOwner : Rule (Option Ty × List String) := (fun segments => (none, segments)) <$> path
  keywordOwner <|> namedOwner

def explicitParameters : Rule (List Symbol) :=
  let params := ((typeName.pair identifier).separatedBy (symbol ",")).optional
  (between (symbol "(") params (symbol ")")).filterMapState fun s params =>
    (params.getD []).mapM fun (t, name) => (s.builder.declare name t).toOption

def implicitParameters : Rule (List Symbol) :=
  let one : Rule (List String) := (fun name => [name]) <$> identifier
  let several := between (symbol "(") (identifier.separatedBy (symbol ",")) (symbol ")")
  (one <|> several).filterMapState fun s names => do
    let signature ← (← s.expected).signature?
    if signature.params.length = names.length then
      (names.zip signature.params).mapM fun (name, t) => (s.builder.declare name t).toOption
    else none

def inBlock (statements : Rule (List Expr)) : Rule Expr :=
  let parts : Rule (List Symbol × List Expr) := do
    let outer ← getState
    setState outer.enterBlock
    let body ← statements
    let inner ← getState
    setState outer
    return (inner.declared, body)
  parts.filterMapState fun s (locals, body) => (s.builder.block locals body).toOption

theorem parses_inBlock (statements : Rule (List Expr)) (c : Cursor Scope) :
    (inBlock statements).parses c =
      (statements.parses (c.withState c.state.enterBlock)).filterMap fun r =>
        (c.state.builder.block r.tail.state.declared r.value).toOption.map
          (⟨·, r.tail.withState c.state⟩) := by
  simp only [inBlock, parses_filterMapState, parses_bind, parses_getState, parses_setState,
    parses_pure, List.flatMap_cons, List.flatMap_nil, List.append_nil]
  rw [← List.map_eq_flatMap, List.filterMap_map]
  rfl

theorem mem_inBlock {statements : Rule (List Expr)} {c : Cursor Scope} {r : Parsed Scope Expr} :
    r ∈ (inBlock statements).parses c ↔
      ∃ s ∈ statements.parses (c.withState c.state.enterBlock),
        c.state.builder.block s.tail.state.declared s.value = .ok r.value ∧
          r.tail = s.tail.withState c.state := by
  simp only [parses_inBlock, List.mem_filterMap, Option.map_eq_some_iff]
  constructor
  case mp =>
    intro ⟨s, mem, e, made, eq⟩
    exact ⟨s, mem, eq ▸ ok_of_toOption made, eq ▸ rfl⟩
  case mpr =>
    intro ⟨s, mem, made, tail⟩
    exact ⟨s, mem, r.value, by rw [made]; rfl, by rw [← tail]⟩

section Over

variable (nested : Nested)

def arguments (left right : String) : Rule (List Expr) :=
  let list := ((expecting none nested.expression).separatedBy (symbol ",")).optional
  (·.getD []) <$> between (symbol left) list (symbol right)

def suffix : Rule (Expr → Option Expr) :=
  let member : Rule (Expr → Option Expr) :=
    ((symbol "." *> identifier).pair (arguments nested "(" ")").optional).filterMapState
      fun s (name, args) => some fun target =>
        match args with
        | some args => (s.builder.call target name args).toOption
        | none => (s.builder.member target name).toOption
  let index : Rule (Expr → Option Expr) :=
    (arguments nested "[" "]").filterMapState fun s args =>
      some fun target => (s.builder.index target args).toOption
  let invoke : Rule (Expr → Option Expr) :=
    (arguments nested "(" ")").filterMapState fun s args =>
      some fun target => (s.builder.invoke target args).toOption
  let step : Rule (Expr → Option Expr) :=
    trailingOperator.filterMapState fun s op =>
      some fun target => (s.builder.unary op target).toOption
  oneOf [member, index, invoke, step]

def staticAccess : Rule Expr :=
  (staticPath.pair (arguments nested "(" ")").optional).filterMapState
    fun s ((owner, segments), args) => resolveStatic s owner segments args

def parenthesized : Rule Expr :=
  between (symbol "(") nested.expression (symbol ")")

def newArray : Rule Expr := do
  let element ← (keyword "new" *> typeName).filterMap fun
    | .array element => some element
    | _ => none
  let items := ((expecting (some element) nested.expression).separatedBy (symbol ",")).optional
  let initializer := between (symbol "\x7b") (items <* (symbol ",").optional) (symbol "\x7d")
  initializer.optional.filterMapState fun s items =>
    (s.builder.newArray element ((items.getD none).getD [])).toOption

def primary : Rule Expr :=
  oneOf [constant, variableUse, staticAccess nested, parenthesized nested, typeOf, defaultValue,
    newArray nested]

def unaryOver : Rule Expr :=
  let applied := (leadingOperator.pair nested.unary).filterMapState fun s (op, operand) =>
    (s.builder.unary op operand).toOption
  applied <|> (primary nested).suffixed (suffix nested)

def conditional : Rule Expr := do
  let condition ← binaryChain (unaryOver nested)
  let yes := between (operator "?" ['?']) nested.expression (symbol ":")
  let chosen := (yes.pair nested.expression).filterMapState fun s (yes, no) =>
    (s.builder.conditional condition yes no).toOption
  chosen <|> pure condition

def nonAssignmentOver : Rule Expr :=
  conditional nested

def blockOver : Rule Expr :=
  symbol "\x7b" *> inBlock (List.flatten <$> nested.statement.many <* symbol "\x7d")

-- The body sees the parameters as the first locals of a block. It is read with the result type of
-- the expected delegate type, if the parameters are the expected ones.
def lambdaOver : Rule Expr := do
  let params ← (explicitParameters <|> implicitParameters) <* symbol "=>"
  let outer ← getState
  let expected := Ty.signatureFor? outer.expected (params.map (·.ty))
  match outer.enterLambda params (expected.map (·.result)) with
  | none => fail
  | some inner =>
    let body := setState inner *> (blockOver nested <|> nested.expression) <* setState outer
    body.filterMap fun body => (outer.builder.lambda outer.expected params body).toOption

def expressionOver : Rule Expr :=
  (nonAssignmentOver nested).notFollowedBy (symbol "=>") <|> lambdaOver nested

end Over

end ExprTree.Grammar
