import Mathlib.Data.List.ReduceOption
import ExprTree.Proofs.Builder.Binding
import ExprTree.Proofs.Scope.Lookup

namespace ExprTree

open ExprTree.Parser

def Surroundings.extend (outside : Surroundings) (ds : List Symbol) : Surroundings :=
  fun name => ds.filter (·.name = name) ++ outside name

namespace Surroundings

variable {outside : Surroundings} {ds ds' : List Symbol}

theorem extend_extend (outside : Surroundings) (ds ds' : List Symbol) (name : String) :
    (outside.extend ds).extend ds' name ⊆ outside.extend (ds ++ ds') name := by
  simp only [extend, List.filter_append]
  grind

theorem subset_extend (outside : Surroundings) (ds : List Symbol) (name : String) :
    outside name ⊆ outside.extend ds name :=
  List.subset_append_right _ _

theorem extend_append_left (outside : Surroundings) (ds ds' : List Symbol) (name : String) :
    outside.extend ds name ⊆ outside.extend (ds ++ ds') name := by
  simp only [extend, List.filter_append]
  grind

theorem extend_subset_block (distinct : (Binder.block ds).Distinct) (name : String) :
    outside.extend ds name ⊆ admissible outside name [.block ds] := by
  intro v mem
  refine List.mem_append.mpr ((List.mem_append.mp mem).imp_left fun mem => ?_)
  have ⟨listed, named⟩ := List.mem_filter.mp mem
  rw [Option.mem_toList, ← of_decide_eq_true named]
  exact distinct.find?_eq_some listed

end Surroundings

-- A scope with a certain builder, in which a name means nothing but what it may mean.
structure Scope.Sees (b : Builder) (outside : Surroundings) (s : Scope) : Prop where
  builder : s.builder = b
  keyed   : s.Keyed
  lookup  : ∀ name v, s.lookup name = some v → v ∈ outside name

namespace Scope.Sees

variable {b : Builder} {outside : Surroundings} {s t : Scope} {ds params : List Symbol}

theorem withExpected (h : s.Sees b outside) (expected : Option Ty) :
    (s.withExpected expected).Sees b outside :=
  ⟨h.builder, h.keyed.withExpected expected, h.lookup⟩

theorem enterBlock (h : s.Sees b outside) : s.enterBlock.Sees b outside :=
  ⟨h.builder, h.keyed.enterBlock, h.lookup⟩

theorem declares (h : s.Sees b outside) (declared : s.Declares ds t) :
    t.Sees b (outside.extend ds) where
  builder := declared.builder_eq.trans h.builder
  keyed := h.keyed.declares declared
  lookup name v found := by
    cases declared.lookup_cases h.keyed found with
    | inl new => exact List.mem_append_left _ (List.mem_filter.mpr ⟨new.1, by simpa using new.2⟩)
    | inr old => exact List.mem_append_right _ (h.lookup name v old)

theorem enterLambda (h : s.Sees b outside) {result : Option Ty}
    (entered : s.enterLambda params result = some t) :
    (Binder.lambda params).Distinct ∧
      t.Sees b fun name => admissible outside name [.lambda params] := by
  obtain ⟨u, declares, rfl⟩ := enterLambda_eq entered
  have distinct : (Binder.lambda params).Distinct := declares.distinct_of_enterBlock
  have inner := h.enterBlock.declares declares
  refine ⟨distinct, inner.builder, inner.keyed.withExpected result, fun name v found => ?_⟩
  have found : u.lookup name = some v := found
  rw [declares.lookup_eq h.keyed.enterBlock, Option.or_eq_some_iff] at found
  simp only [admissible]
  cases found with
  | inl found =>
    have listed : v ∈ params := List.mem_reverse.mp (List.mem_of_find?_eq_some found)
    have named : v.name = name := by simpa using List.find?_some found
    have param := distinct.find?_eq_some listed
    rw [named] at param
    simp [param]
  | inr found =>
    obtain ⟨other, found⟩ := found
    have unbound : (Binder.lambda params).find? name = none := by
      simpa [Binder.find?, Binder.symbols] using other
    rw [unbound]
    exact h.lookup name v found

end Scope.Sees

namespace Grammar

variable {b : Builder} {outside : Surroundings}

theorem lexical_composition (lexical : b.Lexical) (outside : Surroundings) :
    Composition b (Scope.Sees b outside) (Expr.Scoped outside) where
  composes := lexical.composes outside
  builder _ hs := hs.builder
  expecting _ expected hs := hs.withExpected expected
  constant := by
    refine (keeps_of_moves literal_moves).filterMapState fun c value e hc _ eq => ?_
    rw [hc.builder] at eq
    exact Option.some.inj eq ▸ lexical.literal outside value
  use := by
    refine (keeps_of_moves identifier_moves).filterMapState fun c name e hc _ found => ?_
    have ⟨v, found, eq⟩ := Option.map_eq_some_iff.mp found
    have named := hc.keyed.named name v found
    exact eq ▸ Expr.scoped_var.mpr (named ▸ hc.lookup name v found)

section Adds

-- A rule that declares symbols, and whose values are about what names mean behind it.
def Adds {α : Type} (b : Builder) (p : Rule α) (W : Surroundings → α → Prop) : Prop :=
  ∀ outside c, c.state.Sees b outside → ∀ r ∈ p.parses c,
    ∃ ds, c.state.Declares ds r.tail.state ∧ W (outside.extend ds) r.value

variable {α β : Type} {p : Rule α} {q : Rule β} {W : Surroundings → α → Prop}

namespace Adds

theorem of_keeps (moves : p.Moves)
    (h : ∀ outside, p.Keeps (In (Scope.Sees b outside)) (W outside)) :
    Adds b p W := by
  intro outside c hc r mem
  have same := (moves c r mem).state_eq
  exact ⟨[], same ▸ .nil c.state, (h outside c hc r mem).1⟩

protected theorem map {V : Surroundings → β → Prop} {f : α → β} (h : Adds b p W)
    (hf : ∀ outside a, W outside a → V outside (f a)) : Adds b (f <$> p) V := by
  intro outside c hc r mem
  rw [parses_map] at mem
  have ⟨s, mem, eq⟩ := List.mem_map.mp mem
  have ⟨ds, declared, value⟩ := h outside c hc s mem
  exact eq ▸ ⟨ds, declared, hf _ _ value⟩

theorem bind_of_moves {f : β → Rule α} (hq : q.Moves) (h : ∀ a, Adds b (f a) W) :
    Adds b (q >>= f) W := by
  intro outside c hc r mem
  rw [parses_bind] at mem
  have ⟨s, first, mem⟩ := List.mem_flatMap.mp mem
  have same := (hq c s first).state_eq
  exact same ▸ h s.value outside s.tail (same.symm ▸ hc) r mem

theorem seqLeft_of_moves (h : Adds b p W) (hq : q.Moves) : Adds b (p <* q) W := by
  intro outside c hc r mem
  rw [parses_seqLeft] at mem
  have ⟨s, mem, closed⟩ := List.mem_flatMap.mp mem
  have ⟨t, closed, eq⟩ := List.mem_map.mp closed
  have ⟨ds, declared, value⟩ := h outside c hc s mem
  rw [← (hq s.tail t closed).state_eq] at declared
  exact eq ▸ ⟨ds, declared, value⟩

protected theorem orElse {p' : Rule α} (h : Adds b p W) (h' : Adds b p' W) :
    Adds b (p <|> p') W := by
  intro outside c hc r mem
  rw [parses_orElse] at mem
  cases List.mem_append.mp (List.mem_of_mem_take mem) with
  | inl mem => exact h outside c hc r mem
  | inr mem => exact h' outside c hc r mem

theorem oneOf {ps : List (Rule α)} (h : ∀ p ∈ ps, Adds b p W) : Adds b (Parser.oneOf ps) W := by
  intro outside c hc r mem
  have ⟨p, listed, mem⟩ := mem_oneOf c mem
  exact h p listed outside c hc r mem

theorem reads (mono : ∀ o o' a, (∀ name, o name ⊆ o' name) → W o a → W o' a) (h : Adds b p W)
    {c t : Cursor Scope} {steps : List (Parsed Scope α)} (read : Reads p c steps t)
    (hc : c.state.Sees b outside) :
    ∃ ds, c.state.Declares ds t.state ∧ ∀ s ∈ steps, W (outside.extend ds) s.value := by
  induction read generalizing outside with
  | nil c => exact ⟨[], .nil c.state, nofun⟩
  | @cons c t s steps mem _ ih =>
    have ⟨ds, declared, value⟩ := h outside c hc s mem
    have ⟨ds', declared', values⟩ := ih (hc.declares declared)
    refine ⟨ds ++ ds', declared.trans declared', List.forall_mem_cons.mpr ⟨?_, fun s mem => ?_⟩⟩
    · exact mono _ _ _ (outside.extend_append_left ds ds') value
    · exact mono _ _ _ (outside.extend_extend ds ds') (values s mem)

end Adds

end Adds

abbrev AddsNodes (b : Builder) (p : Rule (List Expr)) : Prop :=
  Adds b p fun outside es => ∀ e ∈ es, e.Scoped outside

theorem inBlock_scoped (lexical : b.Lexical) {statements : Rule (List Expr)}
    (h : AddsNodes b statements) (outside : Surroundings) :
    (inBlock statements).Keeps (In (Scope.Sees b outside)) (Expr.Scoped outside) := by
  intro c hc r mem
  have ⟨s, mem, block, tail⟩ := mem_inBlock.mp mem
  have ⟨ds, declares, body⟩ := h outside _ hc.enterBlock s mem
  have distinct : (Binder.block ds).Distinct := declares.distinct_of_enterBlock
  rw [hc.builder, declares.declared_eq] at block
  refine ⟨lexical.block outside ds s.value r.value distinct (fun e mem => ?_) block, tail ▸ hc⟩
  exact (body e mem).mono (Surroundings.extend_subset_block distinct)

structure Nested.Scopes (nested : Nested) (b : Builder) : Prop where
  frames     : nested.Frames
  expression : ∀ outside, nested.expression.Keeps (In (Scope.Sees b outside)) (Expr.Scoped outside)
  unary      : ∀ outside, nested.unary.Keeps (In (Scope.Sees b outside)) (Expr.Scoped outside)
  statement  : AddsNodes b nested.statement

theorem scoped_declared (outside : Surroundings) (v : Symbol) :
    (Expr.var v).Scoped (outside.extend [v]) :=
  Expr.scoped_var.mpr (List.mem_append_left _ (by simp))

section Over

variable {nested : Nested} (lexical : b.Lexical) (h : nested.Scopes b)

include lexical h

theorem blockOver_scoped (outside : Surroundings) :
    (blockOver nested).Keeps (In (Scope.Sees b outside)) (Expr.Scoped outside) := by
  refine (keeps_of_moves (symbol_moves _)).seqRight (inBlock_scoped lexical ?_ outside)
  refine .seqLeft_of_moves ?_ (symbol_moves _)
  intro outside c hc r mem
  rw [parses_map] at mem
  have ⟨lists, mem, eq⟩ := List.mem_map.mp mem
  have ⟨steps, read, values⟩ := reads_of_mem_atLeast mem
  have ⟨ds, declared, nodes⟩ := h.statement.reads
    (fun _ _ _ sub nodes e mem => (nodes e mem).mono sub) read hc
  refine eq ▸ ⟨ds, declared, fun e mem => ?_⟩
  have ⟨es, listed, mem⟩ := List.mem_flatten.mp mem
  have ⟨s, step, eq⟩ := List.mem_map.mp (values ▸ listed)
  exact nodes s step e (eq ▸ mem)

theorem lambdaOver_scoped (outside : Surroundings) :
    (lambdaOver nested).Keeps (In (Scope.Sees b outside)) (Expr.Scoped outside) := by
  intro c hc r mem
  have ⟨params, read, inner, _, entered, body, mem, made, tail⟩ := mem_lambdaOver mem
  have same := (parameters_moves.seqLeft (symbol_moves "=>") c params read).state_eq
  rw [same] at entered made tail
  have ⟨distinct, inside⟩ := Scope.Sees.enterLambda hc entered
  have ⟨inScope, _⟩ := (blockOver_scoped lexical h _).orElse (h.expression _)
    (params.tail.withState inner) inside body mem
  have builder : c.state.builder = b := hc.builder
  rw [builder] at made
  exact ⟨lexical.lambda outside _ params.value body.value r.value distinct inScope made, tail ▸ hc⟩

theorem expressionOver_scoped (outside : Surroundings) :
    (expressionOver nested).Keeps (In (Scope.Sees b outside)) (Expr.Scoped outside) :=
  (lexical_composition lexical outside).expressionOver ⟨h.expression outside, h.unary outside⟩
    (lambdaOver_scoped lexical h outside)

theorem declarator_adds (t : Ty) :
    Adds b (declarator nested t) fun outside o => ∀ e ∈ o, e.Scoped outside := by
  intro outside c hc r mem
  rw [declarator, parses_bind] at mem
  obtain ⟨v, first, mem⟩ := List.mem_flatMap.mp mem
  have same := (identifier_moves.filterMapState _ c v first).state_eq
  rw [parses_bind] at mem
  obtain ⟨u, updated, mem⟩ := List.mem_flatMap.mp mem
  obtain ⟨s, declared, eq⟩ := mem_declareLocal.mp updated
  rw [same] at declared
  have declares : c.state.Declares [v.value] s := .cons declared (.nil s)
  have initial := (lexical_composition lexical (outside.extend [v.value])).initialValue
    ⟨h.expression _, h.unary _⟩ t (scoped_declared outside v.value)
  obtain ⟨nodes, _⟩ := initial u.tail (eq ▸ hc.declares declares) r mem
  have moved := (operator_moves "=" ['=', '>']).seqRight
    (expecting_moves h.frames.expression (some t))
  have kept := (moved.optional.filterMapState _ u.tail r mem).state_eq
  rw [eq] at kept
  exact ⟨[v.value], kept ▸ declares, nodes⟩

theorem typedDeclaration_adds : AddsNodes b (typedDeclaration nested) := by
  refine .seqLeft_of_moves (.map (W := fun outside os => ∀ o ∈ os, ∀ e ∈ o, Expr.Scoped outside e)
    ?_ ?_)
    (symbol_moves _)
  · refine .bind_of_moves typeName_moves fun t outside c hc r mem => ?_
    have adds := declarator_adds lexical h t
    have ⟨first, read, steps, others, values⟩ := reads_of_mem_separatedBy mem
    have ⟨ds, declared, value⟩ := adds outside c hc first read
    have ⟨ds', declared', nodes⟩ := Adds.reads (fun _ _ _ sub nodes e mem => (nodes e mem).mono sub)
      (.bind_of_moves (symbol_moves ",") fun _ => adds) others (hc.declares declared)
    refine ⟨ds ++ ds', declared.trans declared', ?_⟩
    rw [values]
    refine List.forall_mem_cons.mpr ⟨fun e mem => ?_, fun o listed e mem => ?_⟩
    · exact (value e mem).mono (outside.extend_append_left ds ds')
    · have ⟨s, step, eq⟩ := List.mem_map.mp listed
      exact (nodes s step e (eq ▸ mem)).mono (outside.extend_extend ds ds')
  · intro outside os hos e mem
    exact hos (some e) (List.reduceOption_mem_iff.mp mem) e rfl

-- The variable is declared behind its initial value, and may not be used in it.
theorem implicitDeclaration_adds : AddsNodes b (implicitDeclaration nested) := by
  intro outside c hc r mem
  obtain ⟨_, var, name, named, value, valued, v, s, e, _, made, declared, closing, closed, rfl⟩ :=
    mem_implicitDeclaration mem
  have header := (keyword_moves _ _ _ var).trans (identifier_moves _ _ named)
  have passed := (operator_moves "=" ['=', '>']).seqRight h.frames.expression name.tail value valued
  rw [(header.trans passed).state_eq] at made declared
  have read := (keeps_of_moves (operator_moves "=" ['=', '>'])).seqRight (h.expression outside)
  have ⟨inScope, _⟩ := read name.tail (In.leads hc header) value valued
  rw [hc.builder] at made
  have node : e.Scoped (outside.extend [v]) :=
    (lexical.composes _).assign (.var v) value.value e (scoped_declared outside v)
      (inScope.mono (outside.subset_extend [v])) made
  refine ⟨[v], ?_, List.forall_mem_singleton.mpr node⟩
  rw [(symbol_moves _ _ closing closed).state_eq]
  exact .cons declared (.nil s)

theorem declarationOver_adds : AddsNodes b (declarationOver nested) :=
  (typedDeclaration_adds lexical h).orElse (implicitDeclaration_adds lexical h)

theorem statementOver_adds : AddsNodes b (statementOver nested) := by
  refine .oneOf fun p mem => ?_
  simp only [List.mem_cons, List.not_mem_nil, or_false] at mem
  rcases mem with rfl | rfl | rfl | rfl
  · have block := Adds.of_keeps (blockOver_moves h.frames) (blockOver_scoped lexical h)
    exact block.map fun _ e he => List.forall_mem_singleton.mpr he
  · exact declarationOver_adds lexical h
  · have single := Adds.of_keeps (expressionStatement_moves h.frames) fun outside =>
      (lexical_composition lexical outside).expressionStatement
        ⟨h.expression outside, h.unary outside⟩ (lambdaOver_scoped lexical h outside)
    exact single.map fun _ e he => List.forall_mem_singleton.mpr he
  · have nothing := Adds.of_keeps (b := b) (W := fun _ _ => True) (symbol_moves ";") fun _ =>
      keeps_of_moves (symbol_moves ";")
    exact nothing.map fun _ _ _ => List.forall_mem_nil _

end Over

theorem Nested.scopes_at (lexical : b.Lexical) (depth : Nat) : (Nested.at depth).Scopes b := by
  have nothing : Nested.nothing.Scopes b :=
    ⟨.nothing, fun _ => fail_keeps, fun _ => fail_keeps, .of_keeps fail_moves fun _ => fail_keeps⟩
  refine Nested.at_induction (P := (·.Scopes b)) nothing (fun nested h => ?_) depth
  refine ⟨h.frames.deeper, expressionOver_scoped lexical h, fun outside => ?_,
    statementOver_adds lexical h⟩
  exact (lexical_composition lexical outside).unaryOver ⟨h.expression outside, h.unary outside⟩

section Unit

variable (lexical : b.Lexical) (outside : Surroundings)

include lexical

theorem expressionUnit_scoped :
    expressionUnit.Keeps (In (Scope.Sees b outside)) (Expr.Scoped outside) := by
  have expression : expression.Keeps (In (Scope.Sees b outside)) (Expr.Scoped outside) :=
    keeps_unbounded fun depth =>
      expressionOver_scoped lexical (Nested.scopes_at lexical depth) outside
  exact ((keeps_of_moves whitespace_moves).seqRight expression).seqLeft endOfInput_keeps

theorem statementUnit_scoped :
    statementUnit.Keeps (In (Scope.Sees b outside)) (Expr.Scoped outside) := by
  have block : block.Keeps (In (Scope.Sees b outside)) (Expr.Scoped outside) :=
    keeps_unbounded fun depth => blockOver_scoped lexical (Nested.scopes_at lexical depth) outside
  have statement : AddsNodes b statement := fun outside c =>
    statementOver_adds lexical (Nested.scopes_at lexical c.remaining) outside c
  have single := inBlock_scoped lexical statement outside
  exact ((keeps_of_moves whitespace_moves).seqRight (block.orElse single)).seqLeft endOfInput_keeps

end Unit

end Grammar

section Parse

variable {scope : Scope} (reachable : scope.Reachable) {source : String} {tree : Expr}
  (h : parseExpression source scope = .ok tree ∨ parseStatement source scope = .ok tree)

include reachable h

theorem parse_inScope (lexical : scope.builder.Lexical) :
    tree.Scoped fun name => (scope.lookup name).toList := by
  have sees : scope.Sees scope.builder fun name => (scope.lookup name).toList :=
    ⟨rfl, reachable.keyed, fun name v found => Option.mem_toList.mpr found⟩
  cases h with
  | inl h =>
    have ⟨r, parsed, eq⟩ := map_eq_ok.mp h
    exact eq ▸ ((Grammar.expressionUnit_scoped lexical _).parse sees parsed).1
  | inr h =>
    have ⟨r, parsed, eq⟩ := map_eq_ok.mp h
    exact eq ▸ ((Grammar.statementUnit_scoped lexical _).parse sees parsed).1

theorem standard_parse_inScope (standard : scope.builder = .standard) :
    tree.Scoped fun name => (scope.lookup name).toList :=
  parse_inScope reachable h (standard ▸ Builder.standard_lexical)

end Parse

-- Every node of a tree stands at a place where it is in order. The parameters of a lambda and the
-- locals of a block have different names. A variable is a symbol that its name may mean there:
-- where the nearest binder of the name is a lambda, it is the parameter, and where there is no
-- binder, it is what the scope of the parse knows.
theorem parse_scoped {scope : Scope} (reachable : scope.Reachable) (lexical : scope.builder.Lexical)
    {source : String} {tree : Expr}
    (h : parseExpression source scope = .ok tree ∨ parseStatement source scope = .ok tree) :
    tree.places.map (·.node) = tree.nodes ∧
    ∀ p ∈ tree.places,
      (∀ b ∈ p.node.binder?, (b.symbols.map (·.name)).Nodup) ∧
      ∀ v, p.node = .var v →
        v ∈ admissible (fun name => (scope.lookup name).toList) v.name p.binders ∧
        (∀ params, p.binders.find? (·.binds v.name) = some (.lambda params) → v ∈ params) ∧
        (p.binders.find? (·.binds v.name) = none → scope.lookup v.name = some v) := by
  refine ⟨tree.map_node_places, fun p placed => ?_⟩
  have ⟨distinct, meaning⟩ := parse_inScope reachable h lexical p placed
  refine ⟨distinct, fun v eq => ⟨meaning v eq, fun params nearest => ?_, fun unbound => ?_⟩⟩
  · exact List.mem_of_find?_eq_some (eq_param_of_admissible nearest (meaning v eq))
  · have outside := meaning v eq
    rw [admissible_of_unbound unbound] at outside
    exact Option.mem_toList.mp outside

theorem parse_scoped_hidden :
    let scope := ((Scope.new Registry.system.resolve .standard).withSymbol
      ⟨"x", .string⟩).withSymbol ⟨"y", .int⟩
    let source := "\x7b var f = (int x) => x + y; string y = null; y = y + f(1); \x7d"
    scope.Reachable ∧ scope.builder.Lexical ∧
      ∃ tree, parseStatement source scope = .ok tree ∧
        ∀ p ∈ tree.places, ∀ v, p.node = .var v →
          v ∈ admissible (fun name => (scope.lookup name).toList) v.name p.binders := by
  intro scope source
  have reachable : scope.Reachable := .withSymbol (.withSymbol (.new _ _) _) _
  have parsed : (parseStatement source scope).toOption.isSome := by
    decide +kernel
  have ⟨tree, eq⟩ := Option.isSome_iff_exists.mp parsed
  have parsed := ok_of_toOption eq
  refine ⟨reachable, Builder.standard_lexical, tree, parsed, fun p placed v node => ?_⟩
  have ⟨_, places⟩ := parse_scoped reachable Builder.standard_lexical (.inr parsed)
  have ⟨_, meaning⟩ := places p placed
  exact (meaning v node).1

end ExprTree
