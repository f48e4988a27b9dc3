import ExprTree.Grammar.Unit
import ExprTree.Proofs.Grammar.Frame
import ExprTree.Proofs.Grammar.Lockstep

namespace ExprTree.Grammar

open ExprTree.Parser

variable {R : Bool → Cursor Scope → Cursor Scope → Prop} {α β : Type} {b : Bool} {k : Nat}
  {p p' : Rule α} {T : Cursor Scope → Cursor Scope → Prop}

def Consumes (p : Rule α) : Prop :=
  ∀ c, c.Valid → ∀ r ∈ p.parses c, r.tail.Valid ∧ r.tail.remaining < c.remaining

section Consumes

theorem text_consumes {s : String} (h : s ≠ "") : Consumes (text s) := by
  intro c valid r mem
  rw [parses_text, List.mem_ite_nil_right, List.mem_singleton] at mem
  have ⟨found, eq⟩ := mem
  have length : 0 < s.length := by
    rw [Nat.pos_iff_ne_zero, Ne, String.length_eq_zero_iff]
    exact h
  have rest : c.rest ≠ [] := by
    intro empty
    rw [empty, List.isPrefixOf_iff_prefix, List.prefix_nil] at found
    exact h (String.toList_eq_nil_iff.mp found)
  exact eq ▸ ⟨valid.drop _, valid.drop_remaining_lt length rest⟩

theorem Consumes.notFollowedBy (h : Consumes p) (next : Rule β) :
    Consumes (p.notFollowedBy next) := by
  intro c valid r mem
  rw [parses_notFollowedBy] at mem
  exact h c valid r (List.mem_of_mem_filter mem)

theorem Consumes.map (h : Consumes p) (f : α → β) : Consumes (f <$> p) := by
  intro c valid r mem
  rw [parses_map] at mem
  have ⟨s, mem, eq⟩ := List.mem_map.mp mem
  exact eq ▸ h c valid s mem

theorem Consumes.seqLeft (h : Consumes p) {q : Rule β} (hq : q.Moves) : Consumes (p <* q) := by
  intro c valid r mem
  rw [parses_seqLeft] at mem
  have ⟨s, mem, behind⟩ := List.mem_flatMap.mp mem
  have ⟨u, next, eq⟩ := List.mem_map.mp behind
  have ⟨valid, less⟩ := h c valid s mem
  have moved := hq s.tail u next
  exact eq ▸ ⟨moved.valid valid, Nat.lt_of_le_of_lt moved.remaining_le less⟩

theorem Consumes.token (h : Consumes p) : Consumes (token p) :=
  h.seqLeft whitespace_moves

theorem symbol_consumes (s : String) (h : s ≠ "") : Consumes (symbol s) :=
  (text_consumes h).token

theorem operator_consumes (s : String) (notBefore : List Char) (h : s ≠ "") :
    Consumes (operator s notBefore) :=
  ((text_consumes h).notFollowedBy _).token

theorem leadingOperator_consumes : Consumes leadingOperator := by
  intro c valid r mem
  have ⟨p, listed, mem⟩ := mem_oneOf c mem
  simp only [List.mem_cons, List.not_mem_nil, or_false] at listed
  rcases listed with rfl | rfl | rfl | rfl | rfl | rfl
  all_goals exact (operator_consumes _ _ (by decide)).map _ c valid r mem

end Consumes

theorem wider (h : p.Agrees p' T (Below R k b)) : p.Agrees p' T (Below R (k + 1) b) :=
  h.mono (fun _ _ => id) fun _ _ ⟨related, left⟩ => ⟨related, Nat.lt_succ_of_lt left⟩

theorem below_zero : p.Agrees p' (Below R 0 b) T :=
  fun _ _ hc => absurd hc.2 (Nat.not_lt_zero _)

-- A function that asks a scope for its resolver and its builder only.
def Impartial (f : Scope → α → Option β) : Prop :=
  ∀ s s' a, s.resolver = s'.resolver → s.builder = s'.builder → f s a = f s' a

theorem Impartial.of_new {f : Scope → α → Option β}
    (h : ∀ s a, f s a = f (.new s.resolver s.builder) a) : Impartial f := by
  intro s s' a resolver builder
  rw [h s, h s', resolver, builder]

section Rules

variable (h : Lockstep R)

include h

theorem shorter (consumes : Consumes p) (hp : p.Respects (Below R (k + 1) b)) :
    p.Agrees p (Below R (k + 1) b) (Below R k b) := by
  intro c c' hc
  refine (hp.mem hc).imp fun r r' ⟨⟨mem, _⟩, hr⟩ => ⟨hr.value, hr.tail.1, ?_⟩
  have ⟨_, less⟩ := consumes c (h.valid hc.1).1 r mem
  exact Nat.lt_of_lt_of_le less (Nat.le_of_lt_succ hc.2)

theorem symbol_shorter (s : String) (nonempty : s ≠ "") :
    (symbol s).Agrees (symbol s) (Below R (k + 1) b) (Below R k b) :=
  shorter h (symbol_consumes s nonempty) (symbol_respects (h.below _) b s)

theorem operator_shorter (s : String) (notBefore : List Char) (nonempty : s ≠ "") :
    (operator s notBefore).Agrees (operator s notBefore) (Below R (k + 1) b) (Below R k b) :=
  shorter h (operator_consumes s notBefore nonempty) (operator_respects (h.below _) b s notBefore)

theorem impartial_agrees {f : Scope → α → Option β} (hp : p.Agrees p' T (R b))
    (hf : Impartial f) : (p.filterMapState f).Agrees (p'.filterMapState f) T (R b) :=
  hp.filterMapState fun _ _ a hc => hf _ _ a (h.resolver hc) (h.builder hc)

section TypeName

theorem predefinedType_respects : predefinedType.Respects (R b) := by
  refine .oneOf <| List.forall₂_same.mpr fun p mem => ?_
  have ⟨_, _, eq⟩ := List.mem_map.mp mem
  exact eq ▸ (keyword_respects h b _).map _

theorem path_respects : path.Respects (R b) :=
  (identifier_respects h b).separatedBy h.remaining_eq (symbol_respects h b ".")

theorem typeNameOver_agrees {inner inner' : Rule Ty}
    (hi : inner.Agrees inner' (Below R k b) (Below R k b)) :
    (typeNameOver inner).Agrees (typeNameOver inner') (Below R (k + 1) b) (Below R (k + 1) b) := by
  have hk := h.below k
  have hk' := h.below (k + 1)
  have list := hi.separatedBy hk.remaining_eq (symbol_respects hk b ",")
  have args := wider ((symbol_shorter h "<" (by decide)).between list (symbol_respects hk b ">"))
  have name := (path_respects hk').pair args.optional
  refine ((predefinedType_respects hk').orElse
    (impartial_agrees hk' name (.of_new fun _ _ => rfl))).bind fun t => ?_
  have rank := (symbol_respects hk' b "[").seqLeft (symbol_respects hk' b "]")
  exact rank.repetition hk'.remaining_eq _ _ _ _

theorem typeNameFrom_agrees (bottom bottom' : Rule Ty) (depth depth' : Nat) :
    (typeNameFrom bottom depth).Agrees (typeNameFrom bottom' depth') (Below R (min depth depth') b)
      (Below R (min depth depth') b) := by
  induction depth generalizing depth' with
  | zero => rw [Nat.zero_min]; exact below_zero
  | succ depth ih =>
    cases depth' with
    | zero => exact below_zero
    | succ depth' =>
      rw [Nat.add_min_add_right]
      exact typeNameOver_agrees h (ih depth')

theorem typeName_respects : typeName.Respects (R b) := by
  intro c c' hc
  rw [parses_typeName, parses_typeName, ← h.remaining_eq c c' hc]
  have agrees := typeNameFrom_agrees h (b := b) fail fail (c.remaining + 1) (c.remaining + 1)
  rw [Nat.min_self] at agrees
  exact (agrees c c' ⟨hc, Nat.lt_succ_self _⟩).imp fun _ _ hr => ⟨hr.value, hr.tail.1⟩

end TypeName

section Operator

theorem operatorToken_respects (t : OperatorToken) : t.rule.Respects (R b) :=
  impartial_agrees h (operator_respects h b _ _) (.of_new fun _ _ => rfl)

theorem tierOperator_respects (tier : List OperatorToken) : (tierOperator tier).Respects (R b) := by
  refine .oneOf <| List.forall₂_same.mpr fun rule mem => ?_
  have ⟨t, _, eq⟩ := List.mem_map.mp mem
  exact eq ▸ operatorToken_respects h t

theorem binaryChain_agrees {operand operand' : Rule Expr}
    (ho : operand.Agrees operand' (R b) (R b)) :
    (binaryChain operand).Agrees (binaryChain operand') (R b) (R b) := by
  refine .chainRight h.remaining_eq ?_ (operatorToken_respects h _)
  rw [tierOperators]
  generalize tiers = tiers
  induction tiers generalizing operand operand' with
  | nil => exact ho
  | cons tier tiers ih => exact ih (ho.chainLeft h.remaining_eq (tierOperator_respects h tier))

theorem leadingOperator_respects : leadingOperator.Respects (R b) := by
  refine .oneOf <| List.forall₂_same.mpr fun p mem => ?_
  simp only [List.mem_cons, List.not_mem_nil, or_false] at mem
  rcases mem with rfl | rfl | rfl | rfl | rfl | rfl <;> exact (operator_respects h b _ _).map _

theorem trailingOperator_respects : trailingOperator.Respects (R b) := by
  refine .oneOf <| List.forall₂_same.mpr fun p mem => ?_
  simp only [List.mem_cons, List.not_mem_nil, or_false] at mem
  rcases mem with rfl | rfl <;> exact (operator_respects h b _ _).map _

end Operator

section Simple

theorem variableUse_respects : variableUse.Respects (R b) := by
  intro c c' hc
  rw [variableUse, parses_filterMapState, parses_filterMapState]
  have names := (identifier_respects h b).mem hc
  refine List.rel_filterMap (fun r r' ⟨⟨mem, mem'⟩, hr⟩ => ?_) names
  have ⟨name, found⟩ := identifier_spec mem
  rw [(identifier_moves c r mem).state_eq, (identifier_moves c' r' mem').state_eq, ← hr.value,
    h.lookup hc r.value name found]
  cases c'.state.lookup r.value with
  | none => exact .none
  | some v => exact .some ⟨rfl, hr.tail⟩

theorem constant_respects : constant.Respects (R b) :=
  impartial_agrees h (literal_respects h b) (.of_new fun _ _ => rfl)

theorem parenthesizedType_respects (word : String) : (parenthesizedType word).Respects (R b) :=
  (keyword_respects h b word).seqRight
    ((symbol_respects h b "(").between (typeName_respects h) (symbol_respects h b ")"))

theorem typeOf_respects : typeOf.Respects (R b) :=
  impartial_agrees h (parenthesizedType_respects h _) (.of_new fun _ _ => rfl)

theorem defaultValue_respects : defaultValue.Respects (R b) :=
  impartial_agrees h (parenthesizedType_respects h _) (.of_new fun _ _ => rfl)

theorem staticPath_respects : staticPath.Respects (R b) := by
  have owner := (predefinedType_respects h).seqLeft (symbol_respects h b ".")
  exact ((owner.pair (path_respects h)).map _).orElse ((path_respects h).map _)

theorem explicitParameters_respects : explicitParameters.Respects (R b) := by
  have param := (typeName_respects h (b := b)).pair (identifier_respects h b)
  have params := (param.separatedBy h.remaining_eq (symbol_respects h b ",")).optional
  unfold explicitParameters
  exact impartial_agrees h ((symbol_respects h b "(").between params (symbol_respects h b ")"))
    (.of_new fun _ _ => rfl)

theorem implicitParameters_respects
    (expected : ∀ c c', R b c c' → c.state.expected = c'.state.expected) :
    implicitParameters.Respects (R b) := by
  have one := (identifier_respects h b).map fun name => [name]
  have list := (identifier_respects h b).separatedBy h.remaining_eq (symbol_respects h b ",")
  have several := (symbol_respects h b "(").between list (symbol_respects h b ")")
  unfold implicitParameters
  refine (one.orElse several).filterMapState fun c c' names hc => ?_
  simp only [expected c c' hc, h.builder hc]

end Simple

section Scopes

theorem expecting_agrees {rule rule' : Rule Expr} (expected : Option Ty)
    (hr : rule.Agrees rule' (R b) (R b)) :
    (expecting expected rule).Agrees (expecting expected rule') (R b) (R b) :=
  hr.withState (fun _ _ hc => h.expecting hc expected) fun _ _ _ _ => h.restore

theorem inBlock_agrees {statements statements' : Rule (List Expr)}
    (hs : statements.Agrees statements' (R true) (R true)) :
    (inBlock statements).Agrees (inBlock statements') (R b) (R b) := by
  intro c c' hc
  rw [parses_inBlock, parses_inBlock]
  refine List.rel_filterMap (fun r r' hr => ?_) (hs _ _ (h.enterBlock hc))
  rw [← hr.value, h.builder hc, h.declared hr.tail]
  cases (c'.state.builder.block r'.tail.state.declared r.value).toOption with
  | none => exact .none
  | some e => exact .some ⟨rfl, h.restore hc hr.tail⟩

theorem inState_agrees {c c' : Cursor Scope} (hc : R b c c') {inner inner' : Scope}
    (hi : R true (c.withState inner) (c'.withState inner'))
    (hp : p.Agrees p' (R true) (R true)) :
    List.Forall₂ (Parsed.Related (R b) Eq)
      ((setState inner *> p <* setState c.state).parses c)
      ((setState inner' *> p' <* setState c'.state).parses c') := by
  rw [parses_inState, parses_inState]
  exact List.rel_map (fun r r' hr => ⟨hr.value, h.restore hc hr.tail⟩) (hp _ _ hi)

theorem declareLocal_respects (v : Symbol) : (declareLocal v).Respects (R true) := by
  intro c c' hc
  rw [declareLocal, parses_updateState, parses_updateState]
  rcases option_rel_iff.mp (h.declare hc v) with ⟨eq, eq'⟩ | ⟨s, s', eq, eq', hs⟩
  · rw [eq, eq']
    exact .nil
  · rw [eq, eq']
    exact .cons ⟨rfl, hs⟩ .nil

theorem declareAll_alike {c c' : Cursor Scope} (hc : R true c c') (vs : List Symbol) :
    Option.Rel (fun s s' => R true (c.withState s) (c'.withState s'))
      (vs.foldlM Scope.declare c.state) (vs.foldlM Scope.declare c'.state) := by
  induction vs generalizing c c' with
  | nil => exact .some hc
  | cons v vs ih =>
    rw [List.foldlM_cons, List.foldlM_cons]
    rcases option_rel_iff.mp (h.declare hc v) with ⟨eq, eq'⟩ | ⟨s, s', eq, eq', hs⟩
    · rw [eq, eq']
      exact .none
    · rw [eq, eq']
      exact ih hs

theorem enterLambda_alike {c c' : Cursor Scope} (hc : R b c c') (params : List Symbol)
    (result : Option Ty) :
    Option.Rel (fun s s' => R true (c.withState s) (c'.withState s'))
      (c.state.enterLambda params result) (c'.state.enterLambda params result) := by
  have declared := option_rel_iff.mp (declareAll_alike h (h.enterBlock hc) params)
  simp only [Cursor.withState_state] at declared
  rcases declared with ⟨eq, eq'⟩ | ⟨s, s', eq, eq', hs⟩
  · rw [Scope.enterLambda, Scope.enterLambda, eq, eq']
    exact .none
  · rw [Scope.enterLambda, Scope.enterLambda, eq, eq']
    exact .some (h.expecting hs result)

end Scopes

end Rules

-- Nested rules that run in lockstep where less than `k` bytes are left. Statements stand in blocks
-- only.
structure Nested.Paced (R : Bool → Cursor Scope → Cursor Scope → Prop) (k : Nat)
    (nested nested' : Nested) : Prop where
  expression : ∀ b, nested.expression.Agrees nested'.expression (Below R k b) (Below R k b)
  unary      : ∀ b, nested.unary.Agrees nested'.unary (Below R k b) (Below R k b)
  statement  : nested.statement.Agrees nested'.statement (Below R k true) (Below R k true)

section Over

variable {nested nested' : Nested} (h : Lockstep R) (hn : Nested.Paced R k nested nested')

include h hn

section Expression

theorem arguments_agrees (left right : String) (nonempty : left ≠ "") :
    (arguments nested left right).Agrees (arguments nested' left right) (Below R (k + 1) b)
      (Below R k b) := by
  have hk := h.below k
  have list := (expecting_agrees hk none (hn.expression b)).separatedBy hk.remaining_eq
    (symbol_respects hk b ",")
  have opening := symbol_shorter h (b := b) (k := k) left nonempty
  exact (opening.between list.optional (symbol_respects hk b right)).map _

theorem suffix_agrees :
    (suffix nested).Agrees (suffix nested') (Below R (k + 1) b) (Below R (k + 1) b) := by
  have hk := h.below (k + 1)
  have args := wider (arguments_agrees h hn (b := b) "(" ")" (by decide))
  have indices := wider (arguments_agrees h hn (b := b) "[" "]" (by decide))
  have name := (symbol_respects hk b ".").seqRight (identifier_respects hk b)
  have step := trailingOperator_respects hk (b := b)
  exact .oneOf (.cons (impartial_agrees hk (name.pair args.optional) (.of_new fun _ _ => rfl))
    (.cons (impartial_agrees hk indices (.of_new fun _ _ => rfl))
    (.cons (impartial_agrees hk args (.of_new fun _ _ => rfl))
    (.cons (impartial_agrees hk step (.of_new fun _ _ => rfl)) .nil))))

theorem newArray_agrees :
    (newArray nested).Agrees (newArray nested') (Below R (k + 1) b) (Below R (k + 1) b) := by
  have hk := h.below k
  have hk' := h.below (k + 1)
  have type := (keyword_respects hk' b "new").seqRight (typeName_respects hk')
  refine (type.filterMap _).bind fun element => ?_
  have comma := symbol_respects hk b ","
  have items := (expecting_agrees hk (some element) (hn.expression b)).separatedBy
    hk.remaining_eq comma
  have initializer := (symbol_shorter h "\x7b" (by decide)).between
    (items.optional.seqLeft comma.optional) (symbol_respects hk b "\x7d")
  exact impartial_agrees hk' (wider initializer).optional (.of_new fun _ _ => rfl)

theorem primary_agrees :
    (primary nested).Agrees (primary nested') (Below R (k + 1) b) (Below R (k + 1) b) := by
  have hk := h.below k
  have hk' := h.below (k + 1)
  have args := wider (arguments_agrees h hn (b := b) "(" ")" (by decide))
  have static := (staticPath_respects hk').pair args.optional
  have opening := symbol_shorter h (b := b) (k := k) "(" (by decide)
  have parens := wider (opening.between (hn.expression b) (symbol_respects hk b ")"))
  exact .oneOf (.cons (constant_respects hk') (.cons (variableUse_respects hk')
    (.cons (impartial_agrees hk' static (.of_new fun _ _ => rfl)) (.cons parens
    (.cons (typeOf_respects hk') (.cons (defaultValue_respects hk')
    (.cons (newArray_agrees h hn) .nil)))))))

theorem unaryOver_agrees :
    (unaryOver nested).Agrees (unaryOver nested') (Below R (k + 1) b) (Below R (k + 1) b) := by
  have hk := h.below (k + 1)
  have sign := shorter h leadingOperator_consumes (leadingOperator_respects hk (b := b))
  have applied := wider (sign.pair (hn.unary b))
  exact (impartial_agrees hk applied (.of_new fun _ _ => rfl)).orElse
    ((primary_agrees h hn).suffixed hk.remaining_eq (suffix_agrees h hn))

theorem nonAssignmentOver_agrees :
    (nonAssignmentOver nested).Agrees (nonAssignmentOver nested') (Below R (k + 1) b)
      (Below R (k + 1) b) := by
  have hk := h.below (k + 1)
  refine (binaryChain_agrees hk (unaryOver_agrees h hn)).bind fun condition => ?_
  have yes := (operator_shorter h "?" ['?'] (by decide)).between (hn.expression b)
    (symbol_respects (h.below k) b ":")
  have branches := wider (yes.pair (hn.expression b))
  exact (impartial_agrees hk branches (.of_new fun _ _ => rfl)).orElse (pure_agrees condition)

-- What a block has to read before its statements is the brace, and a rule that has read something
-- itself need not ask for that.
theorem blockOver_agrees
    (opening : (symbol "\x7b").Agrees (symbol "\x7b") T (Below R k b)) :
    (blockOver nested).Agrees (blockOver nested') T (Below R k b) := by
  have hk := h.below k
  have statements := (hn.statement.atLeast hk.remaining_eq 0).map List.flatten
  exact opening.seqRight (inBlock_agrees hk (statements.seqLeft (symbol_respects hk true "\x7d")))

omit h hn in
theorem lambdaOver_silent {c : Cursor Scope} (arrow : ¬"=>".toList <:+: c.rest) :
    (lambdaOver nested).parses c = [] := by
  have none : ((explicitParameters <|> implicitParameters) <* symbol "=>").parses c = [] := by
    rw [parses_seqLeft, List.flatMap_eq_nil_iff]
    intro s mem
    have moved := parameters_moves c s mem
    have refuses : ¬"=>".toList <+: s.tail.rest :=
      fun found => arrow (found.isInfix.trans moved.rest_suffix.isInfix)
    rw [List.map_eq_nil_iff, symbol, token, parses_seqLeft, parses_text, if_neg]
    · rfl
    · simpa [List.isPrefixOf_iff_prefix] using refuses
  rw [lambdaOver, parses_bind, none, List.flatMap_nil]

-- A lambda depends on what its parameters are, and not on how they are written.
theorem lambdaOver_agrees_parameters
    (params : (explicitParameters <|> implicitParameters).Agrees
      (explicitParameters <|> implicitParameters) T (Below (Expecting R) (k + 1) b)) :
    (lambdaOver nested).Agrees (lambdaOver nested') T (Below R (k + 1) b) := by
  intro c c' hc
  have header := params.seqLeft (symbol_shorter h.expecting_same "=>" (by decide))
  rw [lambdaOver, lambdaOver, parses_bind, parses_bind]
  refine List.rel_flatMap (header c c' hc) fun r r' hr => ?_
  obtain ⟨value, ⟨related, expected⟩, left⟩ := hr
  have tail : Below R k b r.tail r'.tail := ⟨related, left⟩
  have entered := enterLambda_alike (h.below k) tail r.value
    ((Ty.signatureFor? r.tail.state.expected (r.value.map (·.ty))).map (·.result))
  simp only [parses_bind, parses_getState, List.flatMap_singleton, ← value, ← expected,
    ← h.builder related]
  rcases option_rel_iff.mp entered with ⟨eq, eq'⟩ | ⟨inner, inner', eq, eq', hi⟩
  · rw [eq, eq']
    exact .nil
  · have brace := symbol_respects (h.below k) true "\x7b"
    have body := (blockOver_agrees h hn brace).orElse (hn.expression true)
    rw [eq, eq', parses_filterMap, parses_filterMap]
    refine List.rel_filterMap (fun s s' hs => ?_) (inState_agrees (h.below k) tail hi body)
    rw [hs.value]
    cases (r.tail.state.builder.lambda r.tail.state.expected r.value s'.value).toOption with
    | none => exact .none
    | some e => exact .some ⟨rfl, hs.tail.1, Nat.lt_succ_of_lt hs.tail.2⟩

theorem lambdaOver_agrees :
    (lambdaOver nested).Agrees (lambdaOver nested') (Below R (k + 1) b) (Below R (k + 1) b) := by
  intro c c' hc
  by_cases arrow : "=>".toList <:+: c.rest
  case neg =>
    rw [lambdaOver_silent arrow, lambdaOver_silent (h.rest hc.1 ▸ arrow)]
    exact .nil
  case pos =>
    -- From here on, the cursors expect the same, and so do those behind the parameters.
    have hk := h.expecting_same.below (k + 1)
    have params := (explicitParameters_respects hk).orElse
      (implicitParameters_respects hk (b := b) fun _ _ ht => ht.1.2)
    exact lambdaOver_agrees_parameters h hn params c c' ⟨⟨hc.1, h.expected hc.1 arrow⟩, hc.2⟩

theorem expressionOver_agrees :
    (expressionOver nested).Agrees (expressionOver nested') (Below R (k + 1) b)
      (Below R (k + 1) b) :=
  ((nonAssignmentOver_agrees h hn).notFollowedBy (symbol_respects (h.below _) b "=>")).orElse
    (lambdaOver_agrees h hn)

end Expression

section Statement

theorem assigned_agrees (expected : Option Ty) :
    (assignOperator *> expecting expected nested.expression).Agrees
      (assignOperator *> expecting expected nested'.expression) (Below R (k + 1) b)
        (Below R (k + 1) b) := by
  have sign := operator_shorter h (b := b) (k := k) "=" ['=', '>'] (by decide)
  exact wider (sign.seqRight (expecting_agrees (h.below k) expected (hn.expression b)))

theorem declarator_agrees (t : Ty) :
    (declarator nested t).Agrees (declarator nested' t) (Below R (k + 1) true)
      (Below R (k + 1) true) := by
  have hk := h.below (k + 1)
  have name := identifier_respects hk true
  refine (impartial_agrees hk name (.of_new fun _ _ => rfl)).bind fun v => ?_
  refine (declareLocal_respects hk v).bind fun _ => ?_
  exact impartial_agrees hk (assigned_agrees h hn (some t)).optional (.of_new fun _ _ => rfl)

theorem declarationOver_agrees :
    (declarationOver nested).Agrees (declarationOver nested') (Below R (k + 1) true)
      (Below R (k + 1) true) := by
  have hk := h.below (k + 1)
  have closing := symbol_respects hk true ";"
  refine .orElse (.seqLeft (.map ?_ _) closing) (.seqLeft ?_ closing)
  · refine (typeName_respects hk).bind fun t => ?_
    exact (declarator_agrees h hn t).separatedBy hk.remaining_eq (symbol_respects hk true ",")
  · have name := (keyword_respects hk true "var").seqRight (identifier_respects hk true)
    have sign := operator_shorter h (b := true) (k := k) "=" ['=', '>'] (by decide)
    have named := name.pair (wider (sign.seqRight (hn.expression true)))
    refine (impartial_agrees hk named (.of_new fun _ _ => rfl)).bind fun (v, assignment) => ?_
    exact (declareLocal_respects hk v).bind fun _ => pure_agrees [assignment]

theorem expressionStatement_agrees :
    (expressionStatement nested).Agrees (expressionStatement nested') (Below R (k + 1) b)
      (Below R (k + 1) b) := by
  have hk := h.below (k + 1)
  refine .seqLeft ((expressionOver_agrees h hn).bind fun target => ?_) (symbol_respects hk b ";")
  have assigned := assigned_agrees h hn (b := b) (some target.ty)
  exact (impartial_agrees hk assigned (.of_new fun _ _ => rfl)).orElse (pure_agrees target)

theorem statementOver_agrees :
    (statementOver nested).Agrees (statementOver nested') (Below R (k + 1) true)
      (Below R (k + 1) true) := by
  have block := wider (blockOver_agrees h hn (symbol_shorter h (b := true) "\x7b" (by decide)))
  have empty := symbol_respects (h.below (k + 1)) true ";"
  exact .oneOf (.cons (block.map _) (.cons (declarationOver_agrees h hn)
    (.cons ((expressionStatement_agrees h hn).map _) (.cons (empty.map _) .nil))))

end Statement

end Over

-- Two depths run in lockstep on every text that is shorter than both of them, whatever is below.
theorem Nested.over_paced (h : Lockstep R) (bottom bottom' : Nested) (depth depth' : Nat) :
    Nested.Paced R (min depth depth') (Nested.over bottom depth) (Nested.over bottom' depth') := by
  induction depth generalizing depth' with
  | zero =>
    rw [Nat.zero_min]
    exact ⟨fun _ => below_zero, fun _ => below_zero, below_zero⟩
  | succ depth ih =>
    cases depth' with
    | zero => exact ⟨fun _ => below_zero, fun _ => below_zero, below_zero⟩
    | succ depth' =>
      rw [Nested.over_succ, Nested.over_succ, Nat.add_min_add_right]
      have hn := ih depth'
      exact ⟨fun _ => expressionOver_agrees h hn, fun _ => unaryOver_agrees h hn,
        statementOver_agrees h hn⟩

def Paces (R : Bool → Cursor Scope → Cursor Scope → Prop) (b : Bool) (rule : Nested → Rule α) :
    Prop :=
  ∀ k nested nested', Nested.Paced R k nested nested' →
    (rule nested).Agrees (rule nested') (Below R (k + 1) b) (Below R (k + 1) b)

section Whole

variable (h : Lockstep R)

include h

theorem unbounded_respects {rule : Nested → Rule α} (paces : Paces R b rule) :
    (unbounded rule).Respects (R b) := by
  intro c c' hc
  rw [parses_unbounded, parses_unbounded, ← h.remaining_eq c c' hc]
  have agrees := paces _ _ _ (Nested.over_paced h .nothing .nothing c.remaining c.remaining)
  rw [Nat.min_self] at agrees
  exact (agrees c c' ⟨hc, Nat.lt_succ_self _⟩).imp fun _ _ hr => ⟨hr.value, hr.tail.1⟩

theorem expressionUnit_agrees (leading : whitespace.Agrees whitespace T (R b)) :
    expressionUnit.Agrees expressionUnit T (R b) := by
  have expression : expression.Respects (R b) :=
    unbounded_respects h fun _ _ _ => expressionOver_agrees h
  exact (leading.seqRight expression).seqLeft (endOfInput_respects h b)

theorem statementUnit_agrees (leading : whitespace.Agrees whitespace T (R b)) :
    statementUnit.Agrees statementUnit T (R b) := by
  have block : block.Respects (R b) := unbounded_respects h fun _ _ _ hn =>
    wider (blockOver_agrees h hn (symbol_shorter h "\x7b" (by decide)))
  have statement : statement.Respects (R true) :=
    unbounded_respects h fun _ _ _ => statementOver_agrees h
  have unit := block.orElse (inBlock_agrees h statement)
  exact (leading.seqRight unit).seqLeft (endOfInput_respects h b)

theorem expressionUnit_respects : expressionUnit.Respects (R b) :=
  expressionUnit_agrees h (whitespace_respects h b)

theorem statementUnit_respects : statementUnit.Respects (R b) :=
  statementUnit_agrees h (whitespace_respects h b)

end Whole

end ExprTree.Grammar
