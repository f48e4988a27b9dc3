import ExprTree.Grammar.Unit
import ExprTree.Proofs.Grammar.Moves
import ExprTree.Proofs.Scope

namespace ExprTree.Grammar

open ExprTree.Parser

-- From the first cursor to the second, the symbols are declared one behind the other: the name of
-- each of them is read behind the names of the symbols before it.
inductive Introduces : Cursor Scope → List Symbol → Cursor Scope → Prop
  | done {c t : Cursor Scope} (moved : c.Leads t) : Introduces c [] t
  | step {c k t : Cursor Scope} {name : Parsed Scope String} {type : Ty} {d : Symbol}
      {s : Scope} {ds : List Symbol}
      (moved : c.Leads k)
      (named : name ∈ identifier.parses k)
      (made : name.tail.state.builder.declare name.value type = .ok d)
      (declared : name.tail.state.declare d = some s)
      (others : Introduces (name.tail.withState s) ds t) :
      Introduces c (d :: ds) t

namespace Introduces

variable {c t u : Cursor Scope} {ds ds' : List Symbol}

theorem after (h : c.Leads t) : Introduces t ds u → Introduces c ds u
  | done moved => .done (h.trans moved)
  | step moved named made declared others => .step (h.trans moved) named made declared others

protected theorem trans (h : Introduces c ds t) (h' : Introduces t ds' u) :
    Introduces c (ds ++ ds') u := by
  induction h with
  | done moved => exact h'.after moved
  | step moved named made declared _ ih => exact .step moved named made declared (ih h')

theorem declares (h : Introduces c ds t) : c.state.Declares ds t.state := by
  induction h with
  | done moved => exact moved.state_eq ▸ .nil _
  | step moved named _ declared _ ih =>
    have same := (moved.trans (identifier_moves _ _ named)).state_eq
    exact .cons (same ▸ declared) ih

theorem leads (h : Introduces c ds t) (s : Scope) : (c.withState s).Leads (t.withState s) := by
  induction h with
  | done moved => exact moved.withState s
  | step moved named _ _ _ ih =>
    have passed := moved.trans (identifier_moves _ _ named)
    exact (passed.withState s).trans ih

end Introduces

def Declaring {α : Type} (p : Rule α) : Prop :=
  ∀ c, ∀ r ∈ p.parses c, ∃ ds, Introduces c ds r.tail

namespace Declaring

variable {α β : Type} {p : Rule α} {q : Rule β}

theorem of_moves (h : p.Moves) : Declaring p :=
  fun c r mem => ⟨[], .done (h c r mem)⟩

theorem iff_keeps :
    Declaring p ↔ ∀ c, p.Keeps (fun t => ∃ ds, Introduces c ds t) fun _ => True where
  mp h := by
    intro c t ⟨ds, before⟩ r mem
    have ⟨ds', behind⟩ := h t r mem
    exact ⟨trivial, ds ++ ds', before.trans behind⟩
  mpr h c r mem := (h c c ⟨[], .done (.refl c)⟩ r mem).2

theorem keeps (h : Declaring p) (c : Cursor Scope) :
    p.Keeps (fun t => ∃ ds, Introduces c ds t) fun _ => True :=
  iff_keeps.mp h c

protected theorem bind {f : α → Rule β} (hp : Declaring p) (hf : ∀ a, Declaring (f a)) :
    Declaring (p >>= f) :=
  iff_keeps.mpr fun c => (hp.keeps c).bind fun a _ => (hf a).keeps c

protected theorem map (hp : Declaring p) (f : α → β) : Declaring (f <$> p) :=
  iff_keeps.mpr fun c => (hp.keeps c).map fun _ _ => trivial

protected theorem seqLeft (hp : Declaring p) (hq : Declaring q) : Declaring (p <* q) :=
  iff_keeps.mpr fun c => (hp.keeps c).seqLeft (hq.keeps c)

protected theorem orElse {p' : Rule α} (hp : Declaring p) (hp' : Declaring p') :
    Declaring (p <|> p') :=
  iff_keeps.mpr fun c => (hp.keeps c).orElse (hp'.keeps c)

theorem atLeast (hp : Declaring p) (min : Nat) : Declaring (p.atLeast min) :=
  iff_keeps.mpr fun c => ((hp.keeps c).atLeast min).mono fun _ _ => trivial

theorem separatedBy (hp : Declaring p) (hq : Declaring q) : Declaring (p.separatedBy q) :=
  iff_keeps.mpr fun c => ((hp.keeps c).separatedBy (hq.keeps c)).mono fun _ _ => trivial

end Declaring

theorem parses_inState {α : Type} (p : Rule α) (inner outer : Scope) (c : Cursor Scope) :
    (setState inner *> p <* setState outer).parses c =
      (p.parses (c.withState inner)).map fun r => ⟨r.value, r.tail.withState outer⟩ := by
  simp [List.map_eq_flatMap]

theorem mem_declareLocal {v : Symbol} {c : Cursor Scope} {r : Parsed Scope Unit} :
    r ∈ (declareLocal v).parses c ↔ ∃ s, c.state.declare v = some s ∧ r = ⟨(), c.withState s⟩ := by
  rw [declareLocal, parses_updateState, Option.mem_toList, Option.map_eq_some_iff]
  simp only [eq_comm]

theorem mem_lambdaOver {nested : Nested} {c : Cursor Scope} {r : Parsed Scope Expr}
    (mem : r ∈ (lambdaOver nested).parses c) :
    ∃ params ∈ ((explicitParameters <|> implicitParameters) <* symbol "=>").parses c,
      ∃ inner result, params.tail.state.enterLambda params.value result = some inner ∧
      ∃ body ∈ (blockOver nested <|> nested.expression).parses (params.tail.withState inner),
        params.tail.state.builder.lambda params.tail.state.expected params.value body.value =
          .ok r.value ∧
        r.tail = body.tail.withState params.tail.state := by
  rw [lambdaOver, parses_bind] at mem
  have ⟨params, read, mem⟩ := List.mem_flatMap.mp mem
  rw [parses_bind, parses_getState, List.flatMap_singleton] at mem
  dsimp only at mem
  split at mem
  case h_1 => simp at mem
  case h_2 inner entered =>
    rw [parses_filterMap, parses_inState] at mem
    have ⟨s, mem, made⟩ := List.mem_filterMap.mp mem
    have ⟨e, made, eq⟩ := Option.map_eq_some_iff.mp made
    obtain ⟨body, inside, rfl⟩ := List.mem_map.mp mem
    rw [← eq]
    exact ⟨params, read, inner, _, entered, body, inside, ok_of_toOption made, rfl⟩

-- The value of a `var` declaration is read and typed before its variable is declared.
theorem mem_implicitDeclaration {nested : Nested} {c : Cursor Scope} {r : Parsed Scope (List Expr)}
    (mem : r ∈ (implicitDeclaration nested).parses c) :
    ∃ word ∈ (keyword "var").parses c, ∃ name ∈ identifier.parses word.tail,
      ∃ value ∈ (assignOperator *> nested.expression).parses name.tail,
      ∃ v s e, value.tail.state.builder.declare name.value value.value.ty = .ok v ∧
        value.tail.state.builder.assign (.var v) value.value = .ok e ∧
        value.tail.state.declare v = some s ∧
        ∃ closing ∈ (symbol ";").parses (value.tail.withState s), r = ⟨[e], closing.tail⟩ := by
  rw [implicitDeclaration, parses_seqLeft, parses_bind] at mem
  simp only [List.mem_flatMap, List.mem_map] at mem
  obtain ⟨_, ⟨_, first, mem⟩, closing, closed, rfl⟩ := mem
  rw [parses_filterMapState, parses_pair, parses_seqRight] at first
  simp only [List.mem_filterMap, List.mem_flatMap, List.mem_map, Option.map_eq_some_iff] at first
  obtain ⟨_, ⟨name, ⟨word, var, named⟩, value, valued, rfl⟩, _, defined, rfl⟩ := first
  have ⟨v, made, defined⟩ := Option.bind_eq_some_iff.mp defined
  have ⟨e, assigned, eq⟩ := Option.bind_eq_some_iff.mp defined
  obtain rfl := Option.some.inj eq
  rw [parses_bind] at mem
  simp only [List.mem_flatMap, mem_declareLocal, parses_pure, List.mem_singleton] at mem
  obtain ⟨_, ⟨s, declared, rfl⟩, rfl⟩ := mem
  exact ⟨word, var, name, named, value, valued, v, s, e, ok_of_toOption made,
    ok_of_toOption assigned, declared, closing, closed, rfl⟩

structure Nested.Frames (nested : Nested) : Prop where
  expression : nested.expression.Moves
  unary      : nested.unary.Moves
  statement  : Declaring nested.statement

theorem expecting_moves {rule : Rule Expr} (h : rule.Moves) (expected : Option Ty) :
    (expecting expected rule).Moves :=
  h.withState _

section Over

variable {nested : Nested} (h : nested.Frames)

include h

section Expression

theorem arguments_moves (left right : String) : (arguments nested left right).Moves := by
  have list := (expecting_moves h.expression none).separatedBy (symbol_moves ",")
  exact ((symbol_moves left).between list.optional (symbol_moves right)).map _

theorem suffix_moves : (suffix nested).Moves := by
  refine .oneOf fun p mem => ?_
  simp only [List.mem_cons, List.not_mem_nil, or_false] at mem
  rcases mem with rfl | rfl | rfl | rfl
  · have name := (symbol_moves ".").seqRight identifier_moves
    exact (name.pair (arguments_moves h _ _).optional).filterMapState _
  · exact (arguments_moves h _ _).filterMapState _
  · exact (arguments_moves h _ _).filterMapState _
  · exact trailingOperator_moves.filterMapState _

theorem newArray_moves : (newArray nested).Moves := by
  refine .bind (((keyword_moves _).seqRight typeName_moves).filterMap _) fun element => ?_
  have item := expecting_moves h.expression (some element)
  have items := (item.separatedBy (symbol_moves ",")).optional
  have listed := items.seqLeft (symbol_moves ",").optional
  exact ((symbol_moves _).between listed (symbol_moves _)).optional.filterMapState _

theorem primary_moves : (primary nested).Moves := by
  refine .oneOf fun p mem => ?_
  simp only [List.mem_cons, List.not_mem_nil, or_false] at mem
  rcases mem with rfl | rfl | rfl | rfl | rfl | rfl | rfl
  · exact constant_moves
  · exact variableUse_moves
  · exact (staticPath_moves.pair (arguments_moves h _ _).optional).filterMapState _
  · exact (symbol_moves _).between h.expression (symbol_moves _)
  · exact typeOf_moves
  · exact defaultValue_moves
  · exact newArray_moves h

theorem unaryOver_moves : (unaryOver nested).Moves := by
  have applied := leadingOperator_moves.pair h.unary
  exact (applied.filterMapState _).orElse ((primary_moves h).suffixed (suffix_moves h))

theorem nonAssignmentOver_moves : (nonAssignmentOver nested).Moves := by
  refine .bind (binaryChain_moves (unaryOver_moves h)) fun condition => ?_
  have yes := (operator_moves "?" ['?']).between h.expression (symbol_moves ":")
  exact ((yes.pair h.expression).filterMapState _).orElse (pure_moves _)

theorem blockOver_moves : (blockOver nested).Moves := by
  have statements := (h.statement.atLeast 0).map List.flatten
  have body := statements.seqLeft (.of_moves (symbol_moves "\x7d"))
  refine (symbol_moves _).seqRight ?_
  intro c r mem
  have ⟨s, mem, _, tail⟩ := mem_inBlock.mp mem
  have ⟨_, declared⟩ := body _ s mem
  exact tail ▸ declared.leads c.state

theorem lambdaOver_moves : (lambdaOver nested).Moves := by
  intro c r mem
  have ⟨params, read, _, _, _, body, mem, _, tail⟩ := mem_lambdaOver mem
  have header := parameters_moves.seqLeft (symbol_moves "=>") c params read
  have moved := (blockOver_moves h).orElse h.expression _ body mem
  exact tail ▸ header.trans (moved.withState params.tail.state)

theorem expressionOver_moves : (expressionOver nested).Moves :=
  ((nonAssignmentOver_moves h).notFollowedBy _).orElse (lambdaOver_moves h)

end Expression

section Statement

theorem declarator_introduces {t : Ty} {c : Cursor Scope} {r : Parsed Scope (Option Expr)}
    (mem : r ∈ (declarator nested t).parses c) : ∃ d, Introduces c [d] r.tail := by
  rw [declarator, parses_bind] at mem
  have ⟨v, first, mem⟩ := List.mem_flatMap.mp mem
  rw [parses_filterMapState] at first
  have ⟨name, named, eq⟩ := List.mem_filterMap.mp first
  have ⟨d, made, eq⟩ := Option.map_eq_some_iff.mp eq
  rw [parses_bind, ← eq] at mem
  have ⟨u, updated, mem⟩ := List.mem_flatMap.mp mem
  have ⟨s, declared, eq'⟩ := mem_declareLocal.mp updated
  have value := (operator_moves "=" ['=', '>']).seqRight (expecting_moves h.expression (some t))
  have moved := value.optional.filterMapState _ _ r mem
  rw [eq'] at moved
  exact ⟨d, .step (.refl c) named (ok_of_toOption made) declared (.done moved)⟩

theorem typedDeclaration_declaring : Declaring (typedDeclaration nested) := by
  have declarators (t : Ty) : Declaring (declarator nested t) := by
    intro c r mem
    have ⟨d, introduced⟩ := declarator_introduces h mem
    exact ⟨[d], introduced⟩
  have list := Declaring.bind (.of_moves typeName_moves) fun t =>
    (declarators t).separatedBy (.of_moves (symbol_moves ","))
  exact (list.map _).seqLeft (.of_moves (symbol_moves _))

theorem implicitDeclaration_introduces {c : Cursor Scope} {r : Parsed Scope (List Expr)}
    (mem : r ∈ (implicitDeclaration nested).parses c) : ∃ d, Introduces c [d] r.tail := by
  obtain ⟨_, var, name, named, value, valued, d, s, _, made, _, declared, closing, closed, rfl⟩ :=
    mem_implicitDeclaration mem
  -- The value leaves the scope alone, so the name could as well be declared before it.
  have passed := (operator_moves "=" ['=', '>']).seqRight h.expression name.tail value valued
  have moved := (passed.withState s).trans (symbol_moves _ _ closing closed)
  rw [passed.state_eq] at made declared
  exact ⟨d, .step (keyword_moves _ _ _ var) named made declared (.done moved)⟩

theorem declarationOver_declaring : Declaring (declarationOver nested) := by
  refine (typedDeclaration_declaring h).orElse fun c r mem => ?_
  have ⟨d, introduced⟩ := implicitDeclaration_introduces h mem
  exact ⟨[d], introduced⟩

theorem expressionStatement_moves : (expressionStatement nested).Moves := by
  refine .seqLeft (.bind (expressionOver_moves h) fun target => ?_) (symbol_moves _)
  have value := (operator_moves "=" ['=', '>']).seqRight
    (expecting_moves h.expression (some target.ty))
  exact (value.filterMapState _).orElse (pure_moves target)

theorem statementOver_introduces {c : Cursor Scope} {r : Parsed Scope (List Expr)}
    (mem : r ∈ (statementOver nested).parses c) :
    ∃ ds, Introduces c ds r.tail ∧ (r ∉ (declarationOver nested).parses c → ds = []) := by
  have mem := mem_oneOf c mem
  simp only [List.mem_cons, List.not_mem_nil, or_false] at mem
  have ⟨rule, listed, mem⟩ := mem
  rcases listed with rfl | rfl | rfl | rfl
  case inr.inl =>
    have ⟨ds, introduced⟩ := declarationOver_declaring h c r mem
    exact ⟨ds, introduced, fun not => absurd mem not⟩
  · exact ⟨[], .done ((blockOver_moves h).map _ c r mem), fun _ => rfl⟩
  · exact ⟨[], .done ((expressionStatement_moves h).map _ c r mem), fun _ => rfl⟩
  · exact ⟨[], .done ((symbol_moves _).map _ c r mem), fun _ => rfl⟩

theorem statementOver_declaring : Declaring (statementOver nested) := by
  intro c r mem
  have ⟨ds, introduced, _⟩ := statementOver_introduces h mem
  exact ⟨ds, introduced⟩

end Statement

end Over

theorem Nested.Frames.nothing : Nested.nothing.Frames :=
  ⟨fail_moves, fail_moves, .of_moves fail_moves⟩

theorem Nested.Frames.deeper {nested : Nested} (h : nested.Frames) :
    Nested.Frames ⟨expressionOver nested, unaryOver nested, statementOver nested⟩ :=
  ⟨expressionOver_moves h, unaryOver_moves h, statementOver_declaring h⟩

theorem Nested.frames_at (depth : Nat) : (Nested.at depth).Frames :=
  Nested.at_induction .nothing (fun _ => .deeper) depth

theorem statement_declaring : Declaring statement :=
  fun c => statementOver_declaring (Nested.frames_at c.remaining) c

end ExprTree.Grammar
