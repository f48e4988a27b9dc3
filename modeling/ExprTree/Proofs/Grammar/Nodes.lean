import Mathlib.Data.List.ReduceOption
import ExprTree.Proofs.AvlMap.Entries
import ExprTree.Proofs.Grammar.Composition

namespace ExprTree

open ExprTree.Parser

-- A property `W` of nodes and a property `V` of symbols that hold of whatever a builder makes, if
-- they hold of what it is made from.
structure Builder.Preserves (b : Builder) (W : Expr → Prop) (V : Symbol → Prop) : Prop where
  var          : ∀ v, V v → W (.var v)
  literal      : ∀ value, W (b.literal value)
  defaultValue : ∀ t e, b.defaultValue t = .ok e → W e
  typeOf       : ∀ t e, b.typeOf t = .ok e → W e
  unary        : ∀ op operand e, W operand → b.unary op operand = .ok e → W e
  binary       : ∀ op left right e, W left → W right → b.binary op left right = .ok e → W e
  conditional  : ∀ condition yes no e, W condition → W yes → W no →
    b.conditional condition yes no = .ok e → W e
  member       : ∀ target name e, W target → b.member target name = .ok e → W e
  staticMember : ∀ owner name e, b.staticMember owner name = .ok e → W e
  call         : ∀ target name args e, W target → (∀ arg ∈ args, W arg) →
    b.call target name args = .ok e → W e
  staticCall   : ∀ owner name args e, (∀ arg ∈ args, W arg) →
    b.staticCall owner name args = .ok e → W e
  invoke       : ∀ delegate args e, W delegate → (∀ arg ∈ args, W arg) →
    b.invoke delegate args = .ok e → W e
  index        : ∀ target args e, W target → (∀ arg ∈ args, W arg) →
    b.index target args = .ok e → W e
  newArray     : ∀ element items e, (∀ item ∈ items, W item) →
    b.newArray element items = .ok e → W e
  lambda       : ∀ expected params body e, (∀ v ∈ params, V v) → W body →
    b.lambda expected params body = .ok e → W e
  block        : ∀ locals body e, (∀ v ∈ locals, V v) → (∀ e ∈ body, W e) →
    b.block locals body = .ok e → W e
  declare      : ∀ name t v, b.declare name t = .ok v → V v
  assign       : ∀ target value e, W target → W value → b.assign target value = .ok e → W e

structure Scope.Holds (b : Builder) (V : Symbol → Prop) (s : Scope) : Prop where
  builder : s.builder = b
  symbols : ∀ entry ∈ s.symbols.entries, V entry.2

namespace Scope.Holds

variable {b : Builder} {V : Symbol → Prop} {s t : Scope} {v : Symbol}

theorem lookup (h : s.Holds b V) {name : String} (found : s.lookup name = some v) : V v := by
  have ⟨key, mem⟩ := AvlMap.mem_entries_of_get? found
  exact h.symbols (key, v) mem

theorem withExpected (h : s.Holds b V) (expected : Option Ty) :
    (s.withExpected expected).Holds b V :=
  ⟨h.builder, h.symbols⟩

theorem enterBlock (h : s.Holds b V) : s.enterBlock.Holds b V :=
  ⟨h.builder, h.symbols⟩

theorem declare (h : s.Holds b V) (hv : V v) (declared : s.declare v = some t) : t.Holds b V := by
  rw [eq_of_declare declared]
  refine ⟨h.builder, fun entry mem => ?_⟩
  cases AvlMap.mem_entries_replace mem with
  | inl eq => exact eq ▸ hv
  | inr mem => exact h.symbols entry mem

theorem enterLambda (h : s.Holds b V) {params : List Symbol} (hp : ∀ v ∈ params, V v)
    {result : Option Ty} (entered : s.enterLambda params result = some t) : t.Holds b V := by
  have ⟨u, declares, eq⟩ := Option.map_eq_some_iff.mp entered
  have inner : u.Holds b V := Declares.preserves (P := Holds b V)
    (fun _ _ d mem declared holds => holds.declare (hp d mem) declared) declares h.enterBlock
  exact eq ▸ inner.withExpected result

end Scope.Holds

namespace Grammar

variable {b : Builder} {W : Expr → Prop} {V : Symbol → Prop}

def Holds (b : Builder) (V : Symbol → Prop) (c : Cursor Scope) : Prop :=
  c.state.Holds b V

theorem composition (made : b.Preserves W V) : Composition b (Scope.Holds b V) W where
  composes  := { made with }
  builder s hs := hs.builder
  expecting s expected hs := hs.withExpected expected
  constant := by
    refine (keeps_of_moves literal_moves).filterMapState fun c value e hc _ eq => ?_
    rw [hc.builder] at eq
    exact Option.some.inj eq ▸ made.literal value
  use := by
    refine (keeps_of_moves identifier_moves).filterMapState fun c name e hc _ found => ?_
    have ⟨v, found, eq⟩ := Option.map_eq_some_iff.mp found
    exact eq ▸ made.var v (hc.lookup found)

theorem Introduces.forall {c t : Cursor Scope} {ds : List Symbol} (made : b.Preserves W V)
    (h : Introduces c ds t) (hc : c.state.builder = b) : ∀ d ∈ ds, V d := by
  induction h with
  | done => nofun
  | @step c k t name type d s ds moved named declared eq _ ih =>
    have same := (moved.trans (identifier_moves _ _ named)).state_eq
    rw [same, hc] at declared
    rw [same] at eq
    have others := ih (by rw [Scope.eq_of_declare eq]; exact hc)
    exact List.forall_mem_cons.mpr ⟨made.declare _ _ _ declared, others⟩

theorem forall_of_mapM {α β : Type} {f : α → Option β} {P : β → Prop} {as : List α} {bs : List β}
    (h : as.mapM f = some bs) (hf : ∀ a b, f a = some b → P b) : ∀ b ∈ bs, P b := by
  induction as generalizing bs with
  | nil =>
    rw [List.mapM_nil] at h
    exact Option.some.inj h ▸ nofun
  | cons a as ih =>
    rw [List.mapM_cons] at h
    have ⟨b, first, h⟩ := Option.bind_eq_some_iff.mp h
    have ⟨bs', others, eq⟩ := Option.bind_eq_some_iff.mp h
    exact Option.some.inj eq ▸ List.forall_mem_cons.mpr ⟨hf a b first, ih others⟩

section Rules

variable (made : b.Preserves W V)

include made

theorem explicitParameters_keeps :
    explicitParameters.Keeps (Holds b V) fun params => ∀ v ∈ params, V v := by
  have params := ((typeName_moves.pair identifier_moves).separatedBy (symbol_moves ",")).optional
  unfold explicitParameters
  refine (keeps_of_moves ((symbol_moves _).between params (symbol_moves _))).filterMapState ?_
  intro c params vs hc _ eq
  rw [hc.builder] at eq
  refine forall_of_mapM eq fun (t, name) v declared => ?_
  exact made.declare name t v (ok_of_toOption declared)

theorem implicitParameters_keeps :
    implicitParameters.Keeps (Holds b V) fun params => ∀ v ∈ params, V v := by
  have several := (symbol_moves "(").between (identifier_moves.separatedBy (symbol_moves ","))
    (symbol_moves ")")
  unfold implicitParameters
  refine (keeps_of_moves ((identifier_moves.map _).orElse several)).filterMapState ?_
  intro c names vs hc _ eq
  have ⟨_, _, eq⟩ := Option.bind_eq_some_iff.mp eq
  have ⟨signature, _, eq⟩ := Option.bind_eq_some_iff.mp eq
  split at eq
  case isFalse => simp at eq
  case isTrue =>
    rw [hc.builder] at eq
    refine forall_of_mapM eq fun (name, t) v declared => ?_
    exact made.declare name t v (ok_of_toOption declared)

theorem inBlock_keeps {statements : Rule (List Expr)} (declaring : Declaring statements)
    (h : statements.Keeps (Holds b V) fun es => ∀ e ∈ es, W e) :
    (inBlock statements).Keeps (Holds b V) W := by
  intro c hc r mem
  have ⟨s, mem, block, tail⟩ := mem_inBlock.mp mem
  have ⟨body, _⟩ := h (c.withState c.state.enterBlock) hc.enterBlock s mem
  have ⟨ds, introduced⟩ := declaring _ s mem
  have locals : s.tail.state.declared = ds := introduced.declares.declared_eq
  have symbols := introduced.forall made hc.builder
  rw [hc.builder, locals] at block
  exact ⟨made.block ds s.value r.value symbols body block, tail ▸ hc⟩

end Rules

structure Nested.Makes (nested : Nested) (b : Builder) (W : Expr → Prop) (V : Symbol → Prop) :
    Prop where
  frames     : nested.Frames
  expression : nested.expression.Keeps (Holds b V) W
  unary      : nested.unary.Keeps (Holds b V) W
  statement  : nested.statement.Keeps (Holds b V) fun es => ∀ e ∈ es, W e

theorem Nested.Makes.operands {nested : Nested} (h : nested.Makes b W V) :
    nested.Operands (Scope.Holds b V) W :=
  ⟨h.expression, h.unary⟩

section Over

variable {nested : Nested} (made : b.Preserves W V) (h : nested.Makes b W V)

section Expression

include made h

theorem blockOver_keeps : (blockOver nested).Keeps (Holds b V) W := by
  have declaring := ((h.frames.statement.atLeast 0).map List.flatten).seqLeft
    (.of_moves (symbol_moves "\x7d"))
  have statements := (h.statement.atLeast 0).map (f := List.flatten)
    (Q := fun es => ∀ e ∈ es, W e) fun lists hlists e mem => by
      have ⟨es, listed, mem⟩ := List.mem_flatten.mp mem
      exact hlists es listed e mem
  refine (keeps_of_moves (symbol_moves _)).seqRight (inBlock_keeps made declaring ?_)
  exact statements.seqLeft (keeps_of_moves (symbol_moves _))

theorem lambdaOver_keeps : (lambdaOver nested).Keeps (Holds b V) W := by
  have params := (explicitParameters_keeps made).orElse (implicitParameters_keeps made)
  have inside := (blockOver_keeps made h).orElse h.expression
  intro c hc r mem
  have ⟨ps, read, inner, _, entered, body, mem, built, tail⟩ := mem_lambdaOver mem
  have ⟨hparams, houter⟩ := params.seqLeft (keeps_of_moves (symbol_moves "=>")) c hc ps read
  have hinner : inner.Holds b V := houter.enterLambda hparams entered
  have ⟨hbody, _⟩ := inside (ps.tail.withState inner) hinner body mem
  rw [houter.builder] at built
  exact ⟨made.lambda _ ps.value body.value r.value hparams hbody built, tail ▸ houter⟩

theorem expressionOver_keeps : (expressionOver nested).Keeps (Holds b V) W :=
  (composition made).expressionOver h.operands (lambdaOver_keeps made h)

end Expression

section Statement

theorem declareLocal_keeps {v : Symbol} (hv : V v) :
    (declareLocal v).Keeps (Holds b V) fun _ => True :=
  updateState_keeps fun _ _ hc declared => Scope.Holds.declare hc hv declared

include made h

theorem declarator_keeps (t : Ty) :
    (declarator nested t).Keeps (Holds b V) fun o => ∀ e ∈ o, W e := by
  have name := (keeps_of_moves (J := Scope.Holds b V) identifier_moves).filterMapState (R := V)
    (f := fun s name => (s.builder.declare name t).toOption) fun c name v hc _ eq => by
      rw [hc.builder] at eq
      exact made.declare name t v (ok_of_toOption eq)
  exact name.bind fun v hv => (declareLocal_keeps hv).bind fun _ _ =>
    (composition made).initialValue h.operands t (made.var v hv)

theorem typedDeclaration_keeps :
    (typedDeclaration nested).Keeps (Holds b V) fun es => ∀ e ∈ es, W e := by
  have declarators := (keeps_of_moves typeName_moves).bind fun t _ =>
    (declarator_keeps made h t).separatedBy (keeps_of_moves (symbol_moves ","))
  refine (declarators.map fun os hos e mem => ?_).seqLeft (keeps_of_moves (symbol_moves _))
  exact hos (some e) (List.reduceOption_mem_iff.mp mem) e rfl

theorem implicitDeclaration_keeps :
    (implicitDeclaration nested).Keeps (Holds b V) fun es => ∀ e ∈ es, W e := by
  have name := keeps_of_moves (J := Scope.Holds b V)
    ((keyword_moves "var").seqRight identifier_moves)
  have value := (keeps_of_moves (operator_moves "=" ['=', '>'])).seqRight h.expression
  refine .seqLeft ?_ (keeps_of_moves (symbol_moves _))
  refine .bind (P := fun a => V a.1 ∧ W a.2) ((name.pair value).filterMapState ?_) ?_
  · intro c (name, value) (v, assignment) hc ⟨_, hvalue⟩ eq
    have ⟨v', declared, eq⟩ := Option.bind_eq_some_iff.mp eq
    have ⟨e, assigned, eq⟩ := Option.bind_eq_some_iff.mp eq
    rw [hc.builder] at declared assigned
    have hv := made.declare name value.ty v' (ok_of_toOption declared)
    rw [← Option.some.inj eq]
    exact ⟨hv, made.assign (.var v') value e (made.var v' hv) hvalue (ok_of_toOption assigned)⟩
  · intro (v, assignment) ⟨hv, hassignment⟩
    exact (declareLocal_keeps hv).bind fun _ _ =>
      pure_keeps (List.forall_mem_singleton.mpr hassignment)

theorem declarationOver_keeps :
    (declarationOver nested).Keeps (Holds b V) fun es => ∀ e ∈ es, W e :=
  (typedDeclaration_keeps made h).orElse (implicitDeclaration_keeps made h)

theorem statementOver_keeps :
    (statementOver nested).Keeps (Holds b V) fun es => ∀ e ∈ es, W e := by
  refine .oneOf fun p mem => ?_
  simp only [List.mem_cons, List.not_mem_nil, or_false] at mem
  rcases mem with rfl | rfl | rfl | rfl
  · exact (blockOver_keeps made h).map fun e he => List.forall_mem_singleton.mpr he
  · exact declarationOver_keeps made h
  · have single := (composition made).expressionStatement h.operands (lambdaOver_keeps made h)
    exact single.map fun e he => List.forall_mem_singleton.mpr he
  · exact (keeps_of_moves (symbol_moves _)).map fun _ _ => List.forall_mem_nil _

end Statement

end Over

theorem Nested.makes_at (made : b.Preserves W V) (depth : Nat) :
    (Nested.at depth).Makes b W V := by
  have nothing : Nested.nothing.Makes b W V := ⟨.nothing, fail_keeps, fail_keeps, fail_keeps⟩
  refine Nested.at_induction (P := (·.Makes b W V)) nothing (fun nested h => ?_) depth
  exact ⟨h.frames.deeper, expressionOver_keeps made h, (composition made).unaryOver h.operands,
    statementOver_keeps made h⟩

section Unit

variable (made : b.Preserves W V)

include made

theorem expressionUnit_keeps : expressionUnit.Keeps (Holds b V) W := by
  have expression : expression.Keeps (Holds b V) W :=
    keeps_unbounded fun depth => expressionOver_keeps made (Nested.makes_at made depth)
  exact ((keeps_of_moves whitespace_moves).seqRight expression).seqLeft endOfInput_keeps

theorem statementUnit_keeps : statementUnit.Keeps (Holds b V) W := by
  have block : block.Keeps (Holds b V) W :=
    keeps_unbounded fun depth => blockOver_keeps made (Nested.makes_at made depth)
  have statement : statement.Keeps (Holds b V) fun es => ∀ e ∈ es, W e :=
    keeps_unbounded fun depth => statementOver_keeps made (Nested.makes_at made depth)
  have single := inBlock_keeps made statement_declaring statement
  exact ((keeps_of_moves whitespace_moves).seqRight (block.orElse single)).seqLeft endOfInput_keeps

end Unit

end Grammar

-- Every tree of a text has the property, if the symbols of the scope have it.
theorem parse_preserves {b : Builder} {W : Expr → Prop} {V : Symbol → Prop}
    (made : b.Preserves W V) {source : String} {scope : Scope} (host : scope.Holds b V)
    {tree : Expr}
    (h : parseExpression source scope = .ok tree ∨ parseStatement source scope = .ok tree) :
    W tree := by
  cases h with
  | inl h =>
    have ⟨r, parsed, eq⟩ := map_eq_ok.mp h
    exact eq ▸ ((Grammar.expressionUnit_keeps made).parse host parsed).1
  | inr h =>
    have ⟨r, parsed, eq⟩ := map_eq_ok.mp h
    exact eq ▸ ((Grammar.statementUnit_keeps made).parse host parsed).1

end ExprTree
