import ExprTree.Proofs.Grammar.Frame

namespace ExprTree

open ExprTree.Parser

-- A property of nodes that holds of whatever a builder makes out of nodes with the property, where
-- no names are bound.
structure Builder.Composes (b : Builder) (W : Expr → Prop) : Prop where
  defaultValue : ∀ t e, b.defaultValue t = .ok e → W e
  typeOf       : ∀ t e, b.typeOf t = .ok e → W e
  unary        : ∀ op operand e, W operand → b.unary op operand = .ok e → W e
  binary       : ∀ op left right e, W left → W right → b.binary op left right = .ok e → W e
  conditional  : ∀ condition yes no e, W condition → W yes → W no →
    b.conditional condition yes no = .ok e → W e
  member       : ∀ target name e, W target → b.member target name = .ok e → W e
  staticMember : ∀ owner name e, b.staticMember owner name = .ok e → W e
  call         : ∀ target name args e, W target → (∀ arg ∈ args, W arg) →
    b.call target name args = .ok e → W e
  staticCall   : ∀ owner name args e, (∀ arg ∈ args, W arg) →
    b.staticCall owner name args = .ok e → W e
  invoke       : ∀ delegate args e, W delegate → (∀ arg ∈ args, W arg) →
    b.invoke delegate args = .ok e → W e
  index        : ∀ target args e, W target → (∀ arg ∈ args, W arg) →
    b.index target args = .ok e → W e
  newArray     : ∀ element items e, (∀ item ∈ items, W item) →
    b.newArray element items = .ok e → W e
  assign       : ∀ target value e, W target → W value → b.assign target value = .ok e → W e

namespace Grammar

def In (J : Scope → Prop) (c : Cursor Scope) : Prop :=
  J c.state

-- Scopes with a certain builder, in which the leaves of the grammar have a property that the
-- builder hands on.
structure Composition (b : Builder) (J : Scope → Prop) (W : Expr → Prop) : Prop where
  composes  : b.Composes W
  builder   : ∀ s, J s → s.builder = b
  expecting : ∀ s expected, J s → J (s.withExpected expected)
  constant  : constant.Keeps (In J) W
  use       : variableUse.Keeps (In J) W

variable {b : Builder} {J : Scope → Prop} {W : Expr → Prop}

theorem In.leads {c t : Cursor Scope} (hc : In J c) (moved : c.Leads t) : In J t := by
  rw [In, moved.state_eq]
  exact hc

theorem keeps_of_moves {α : Type} {p : Rule α} (h : p.Moves) : p.Keeps (In J) fun _ => True :=
  h.keeps fun _ _ hc => hc

theorem keeps_unbounded {α : Type} {rule : Nested → Rule α} {I : Cursor Scope → Prop} {P : α → Prop}
    (h : ∀ depth, (rule (Nested.at depth)).Keeps I P) : (unbounded rule).Keeps I P :=
  fun c => h c.remaining c

section Static

variable (made : b.Composes W)

include made

theorem accessMembers_composes {target e : Expr} {names : List String} {args : Option (List Expr)}
    (htarget : W target) (hargs : ∀ as ∈ args, ∀ arg ∈ as, W arg)
    (h : accessMembers b target names args = some e) : W e := by
  fun_induction accessMembers b target names args with
  | case1 target => exact Option.some.inj h ▸ htarget
  | case2 target name args =>
    exact made.call target name args e htarget (hargs args rfl) (ok_of_toOption h)
  | case3 target name names args _ ih =>
    have ⟨value, read, h⟩ := Option.bind_eq_some_iff.mp h
    exact ih value (made.member target name value htarget (ok_of_toOption read)) hargs h

theorem accessStatic_composes {owner : Ty} {e : Expr} {names : List String}
    {args : Option (List Expr)} (hargs : ∀ as ∈ args, ∀ arg ∈ as, W arg)
    (h : accessStatic b owner names args = some e) : W e := by
  unfold accessStatic at h
  split at h
  case h_1 => simp at h
  case h_2 name args => exact made.staticCall owner name args e (hargs args rfl) (ok_of_toOption h)
  case h_3 args name names _ =>
    have ⟨value, read, h⟩ := Option.bind_eq_some_iff.mp h
    have hvalue := made.staticMember owner name value (ok_of_toOption read)
    exact accessMembers_composes made hvalue hargs h

theorem resolveStatic_composes {s : Scope} (hs : s.builder = b) {owner : Option Ty}
    {segments : List String} {args : Option (List Expr)} {e : Expr}
    (hargs : ∀ as ∈ args, ∀ arg ∈ as, W arg)
    (h : resolveStatic s owner segments args = some e) : W e := by
  unfold resolveStatic at h
  rw [hs] at h
  cases owner with
  | some owner => exact accessStatic_composes made hargs h
  | none =>
    have ⟨_, _, h⟩ := Option.bind_eq_some_iff.mp h
    exact accessStatic_composes made hargs h

end Static

structure Nested.Operands (nested : Nested) (J : Scope → Prop) (W : Expr → Prop) : Prop where
  expression : nested.expression.Keeps (In J) W
  unary      : nested.unary.Keeps (In J) W

namespace Composition

variable (made : Composition b J W)

include made

theorem typeOf : typeOf.Keeps (In J) W := by
  refine (keeps_of_moves (parenthesizedType_moves _)).filterMapState fun c t e hc _ eq => ?_
  rw [made.builder _ hc] at eq
  exact made.composes.typeOf t e (ok_of_toOption eq)

theorem defaultValue : defaultValue.Keeps (In J) W := by
  refine (keeps_of_moves (parenthesizedType_moves _)).filterMapState fun c t e hc _ eq => ?_
  rw [made.builder _ hc] at eq
  exact made.composes.defaultValue t e (ok_of_toOption eq)

theorem operator (t : OperatorToken) : t.rule.Keeps (In J) (Keeps.Operator W) := by
  refine (keeps_of_moves (operator_moves _ _)).filterMapState fun c _ f hc _ eq => ?_
  rw [made.builder _ hc] at eq
  rw [← Option.some.inj eq]
  intro left right e hleft hright eq
  exact made.composes.binary t.op left right e hleft hright (ok_of_toOption eq)

theorem binaryChain {operand : Rule Expr} (h : operand.Keeps (In J) W) :
    (binaryChain operand).Keeps (In J) W := by
  refine .chainRight ?_ (made.operator _)
  rw [tierOperators]
  generalize tiers = tiers
  induction tiers generalizing operand with
  | nil => exact h
  | cons tier tiers ih =>
    refine ih (h.chainLeft (.oneOf fun rule mem => ?_))
    have ⟨t, _, eq⟩ := List.mem_map.mp mem
    exact eq ▸ made.operator t

theorem expecting_keeps {rule : Rule Expr} (h : rule.Keeps (In J) W) (expected : Option Ty) :
    (Grammar.expecting expected rule).Keeps (In J) W :=
  h.withState (fun _ hc => made.expecting _ expected hc) fun _ _ hc _ => hc

section Over

variable {nested : Nested} (h : nested.Operands J W)

include h

theorem arguments (left right : String) :
    (arguments nested left right).Keeps (In J) fun args => ∀ arg ∈ args, W arg := by
  have list := (made.expecting_keeps h.expression none).separatedBy
    (keeps_of_moves (symbol_moves ","))
  refine ((keeps_of_moves (symbol_moves left)).between list.optional
    (keeps_of_moves (symbol_moves right))).map fun args hargs => ?_
  cases args with
  | none => nofun
  | some args => exact hargs args rfl

theorem suffix : (suffix nested).Keeps (In J) (Keeps.Suffix W) := by
  refine .oneOf fun p mem => ?_
  simp only [List.mem_cons, List.not_mem_nil, or_false] at mem
  rcases mem with rfl | rfl | rfl | rfl
  · have name := keeps_of_moves (J := J) ((symbol_moves ".").seqRight identifier_moves)
    refine (name.pair (made.arguments h _ _).optional).filterMapState ?_
    intro c (name, args) f hc ⟨_, hargs⟩ eq
    rw [made.builder _ hc] at eq
    rw [← Option.some.inj eq]
    intro target e htarget eq
    cases args with
    | none => exact made.composes.member target name e htarget (ok_of_toOption eq)
    | some args =>
      exact made.composes.call target name args e htarget (hargs args rfl) (ok_of_toOption eq)
  · refine (made.arguments h _ _).filterMapState fun c args f hc hargs eq => ?_
    rw [made.builder _ hc] at eq
    rw [← Option.some.inj eq]
    intro target e htarget eq
    exact made.composes.index target args e htarget hargs (ok_of_toOption eq)
  · refine (made.arguments h _ _).filterMapState fun c args f hc hargs eq => ?_
    rw [made.builder _ hc] at eq
    rw [← Option.some.inj eq]
    intro target e htarget eq
    exact made.composes.invoke target args e htarget hargs (ok_of_toOption eq)
  · refine (keeps_of_moves trailingOperator_moves).filterMapState fun c op f hc _ eq => ?_
    rw [made.builder _ hc] at eq
    rw [← Option.some.inj eq]
    intro target e htarget eq
    exact made.composes.unary op target e htarget (ok_of_toOption eq)

theorem staticAccess : (staticAccess nested).Keeps (In J) W := by
  have args := (made.arguments h "(" ")").optional
  refine ((keeps_of_moves staticPath_moves).pair args).filterMapState ?_
  intro c ((owner, segments), args) e hc ⟨_, hargs⟩ eq
  exact resolveStatic_composes made.composes (made.builder _ hc) hargs eq

theorem newArray : (newArray nested).Keeps (In J) W := by
  have type := (keyword_moves "new").seqRight typeName_moves
  refine (keeps_of_moves (type.filterMap _)).bind fun element _ => ?_
  have items := (made.expecting_keeps h.expression (some element)).separatedBy
    (keeps_of_moves (symbol_moves ","))
  have listed := items.optional.seqLeft (keeps_of_moves (symbol_moves ",").optional)
  have initializer := (keeps_of_moves (symbol_moves "\x7b")).between listed
    (keeps_of_moves (symbol_moves "\x7d"))
  refine initializer.optional.filterMapState fun c items e hc hitems eq => ?_
  rw [made.builder _ hc] at eq
  refine made.composes.newArray element _ e ?_ (ok_of_toOption eq)
  cases items
  case none => exact List.forall_mem_nil _
  case some items =>
    cases items
    case none => exact List.forall_mem_nil _
    case some items => exact hitems _ rfl items rfl

theorem primary : (primary nested).Keeps (In J) W := by
  refine .oneOf fun p mem => ?_
  simp only [List.mem_cons, List.not_mem_nil, or_false] at mem
  rcases mem with rfl | rfl | rfl | rfl | rfl | rfl | rfl
  · exact made.constant
  · exact made.use
  · exact made.staticAccess h
  · exact (keeps_of_moves (symbol_moves _)).between h.expression (keeps_of_moves (symbol_moves _))
  · exact made.typeOf
  · exact made.defaultValue
  · exact made.newArray h

theorem unaryOver : (unaryOver nested).Keeps (In J) W := by
  refine .orElse ?_ ((made.primary h).suffixed (made.suffix h))
  refine ((keeps_of_moves leadingOperator_moves).pair h.unary).filterMapState ?_
  intro c (op, operand) e hc ⟨_, hoperand⟩ eq
  rw [made.builder _ hc] at eq
  exact made.composes.unary op operand e hoperand (ok_of_toOption eq)

theorem nonAssignmentOver : (nonAssignmentOver nested).Keeps (In J) W := by
  refine (made.binaryChain (made.unaryOver h)).bind fun condition hcondition => ?_
  have yes := (keeps_of_moves (operator_moves "?" ['?'])).between h.expression
    (keeps_of_moves (symbol_moves ":"))
  refine .orElse ((yes.pair h.expression).filterMapState ?_) (pure_keeps hcondition)
  intro c (yes, no) e hc ⟨hyes, hno⟩ eq
  rw [made.builder _ hc] at eq
  exact made.composes.conditional condition yes no e hcondition hyes hno (ok_of_toOption eq)

theorem expressionOver (lambda : (lambdaOver nested).Keeps (In J) W) :
    (expressionOver nested).Keeps (In J) W :=
  ((made.nonAssignmentOver h).notFollowedBy _).orElse lambda

theorem assigned (expected : Option Ty) :
    (assignOperator *> Grammar.expecting expected nested.expression).Keeps (In J) W :=
  (keeps_of_moves (operator_moves _ _)).seqRight (made.expecting_keeps h.expression expected)

theorem initialValue (t : Ty) {v : Symbol} (hv : W (.var v)) :
    ((assignOperator *> Grammar.expecting (some t) nested.expression).optional.filterMapState
      fun s value =>
        match value with
        | some value => (s.builder.assign (.var v) value).toOption.map some
        | none => some none).Keeps (In J) fun o => ∀ e ∈ o, W e := by
  refine (made.assigned h (some t)).optional.filterMapState fun c value o hc hvalue eq => ?_
  match value with
  | none => exact Option.some.inj eq ▸ nofun
  | some value =>
    have ⟨e, assigned, eq⟩ := Option.map_eq_some_iff.mp eq
    rw [made.builder _ hc] at assigned
    intro e' mem
    rw [← eq, Option.mem_some_iff] at mem
    rw [← mem]
    exact made.composes.assign _ value e hv (hvalue value rfl) (ok_of_toOption assigned)

theorem expressionStatement (lambda : (lambdaOver nested).Keeps (In J) W) :
    (expressionStatement nested).Keeps (In J) W := by
  refine .seqLeft ?_ (keeps_of_moves (symbol_moves _))
  refine (made.expressionOver h lambda).bind fun target htarget => .orElse ?_ (pure_keeps htarget)
  refine (made.assigned h _).filterMapState fun c value e hc hvalue eq => ?_
  rw [made.builder _ hc] at eq
  exact made.composes.assign target value e htarget hvalue (ok_of_toOption eq)

end Over

end Composition

end Grammar

end ExprTree
