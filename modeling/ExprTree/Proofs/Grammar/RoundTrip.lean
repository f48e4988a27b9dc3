import ExprTree.Proofs.Grammar.Operands

namespace ExprTree

open ExprTree.Parser

namespace Grammar

open Nested (whole)

variable {scope : Scope} {e left right operand target : Expr} {t owner : Ty}

theorem toOption_of_ok {α : Type} {built : Except TypeError α} {a : α} (h : built = .ok a) :
    built.toOption = some a := by
  rw [h]
  rfl

section Texts

variable {args : List Expr}

abbrev operandText (e : Expr) : List Char :=
  (Expr.fitted 13 e (e.textAt 0)).toList

theorem leading_text {op : UnaryOp} (leading : op.isTrailing = false) :
    ((Expr.unary op operand t).textAt 0).toList = op.symbol.toList ++ operandText operand := by
  show (if op.isTrailing then _ else op.symbol ++ Expr.fitted 13 operand _ : String).toList = _
  simp [leading]

theorem trailing_text {op : UnaryOp} (trailing : op.isTrailing) :
    ((Expr.unary op operand t).textAt 0).toList = operandText operand ++ op.symbol.toList := by
  show (if op.isTrailing then Expr.fitted 13 operand _ ++ op.symbol else _ : String).toList = _
  simp [trailing]

theorem binary_text {op : BinaryOp} {l r : Nat}
    (slots : (if op = .coalesce then (op.precedence + 1, op.precedence)
      else (op.precedence, op.precedence + 1)) = (l, r)) :
    ((Expr.binary op left right t).textAt 0).toList =
      (Expr.fitted l left (left.textAt 0)).toList ++
        ([' '] ++ (op.symbol.toList ++ [' '] ++ (Expr.fitted r right (right.textAt 0)).toList)) := by
  have text (slots : Nat × Nat)
      (eq : (if op = .coalesce then (op.precedence + 1, op.precedence)
        else (op.precedence, op.precedence + 1)) = slots) :
      (Expr.binary op left right t).textAt 0 = Expr.fitted slots.1 left (left.textAt 0) ++ " " ++
        op.symbol ++ " " ++ Expr.fitted slots.2 right (right.textAt 0) := eq ▸ rfl
  rw [text (l, r) slots]
  simp

theorem conditional_text {condition yes no : Expr} :
    ((Expr.conditional condition yes no t).textAt 0).toList =
      (Expr.fitted 1 condition (condition.textAt 0)).toList ++ ([' '] ++ (['?', ' '] ++
        ((yes.textAt 0).toList ++ ([' '] ++ ([':', ' '] ++ (no.textAt 0).toList))))) := by
  show (Expr.fitted 1 condition _ ++ " ? " ++ yes.textAt 0 ++ " : " ++ no.textAt 0).toList = _
  simp

theorem member_text {name : String} :
    ((Expr.member target owner name t).textAt 0).toList =
      operandText target ++ '.' :: name.toList := by
  show (Expr.fitted 13 target _ ++ "." ++ name).toList = _
  simp

theorem call_text {name : String} :
    ((Expr.call target owner name args t).textAt 0).toList = operandText target ++
      ('.' :: name.toList ++ ('(' :: ((Expr.listAt 0 args).toList ++ [')']))) := by
  show (Expr.fitted 13 target _ ++ "." ++ name ++ "(" ++ Expr.listAt 0 args ++ ")").toList = _
  simp

theorem index_text :
    ((Expr.index target args t).textAt 0).toList =
      operandText target ++ '[' :: ((Expr.listAt 0 args).toList ++ [']']) := by
  show (Expr.fitted 13 target _ ++ "[" ++ Expr.listAt 0 args ++ "]").toList = _
  simp

theorem invoke_text :
    ((Expr.invoke target args t).textAt 0).toList =
      operandText target ++ '(' :: ((Expr.listAt 0 args).toList ++ [')']) := by
  show (Expr.fitted 13 target _ ++ "(" ++ Expr.listAt 0 args ++ ")").toList = _
  simp

end Texts

section Operations

theorem start_append {p q : Nat} {text : List Char} (h : Fits (Knows scope) p text e) (le : q ≤ p)
    (more : List Char) : ∃ a cs, text ++ more = a :: cs ∧ NodeStart q a := by
  have ⟨a, cs, eq, first⟩ := h.start
  exact ⟨a, cs ++ more, by rw [eq, List.cons_append], first.mono le⟩

theorem leading_readBack {op : UnaryOp} (leading : op.isTrailing = false)
    (h : ReadBack scope operand)
    (built : Builder.Standard.unary op operand = .ok (.unary op operand t)) :
    ReadBack scope (.unary op operand t) := by
  have fits : Fits (Knows scope) 13 (operandText operand) operand := h.fitted (Nat.le_refl 13)
  obtain ⟨a, cs, eq, first⟩ := fits.start
  have start : OperandStart a := first.resolve_right (by simp)
  have symbol : ∃ a ∈ op.symbol.toList.head?, a ∈ leaders := by cases op <;> decide
  obtain ⟨b, head, leads⟩ := symbol
  obtain ⟨bs, eq'⟩ := List.head?_eq_some_iff.mp head
  have precedence : (Expr.unary op operand t).precedence = 12 := by
    simp [Expr.precedence, leading, Expr.unaryPrecedence]
  rw [ReadBack, precedence, leading_text leading]
  refine .of_legible ⟨b, _, by rw [eq', List.cons_append], .inr ⟨Nat.le_refl 12, leads⟩⟩ ?_
  refine .unary fun gap rest hg stops => ?_
  have applied := fits.unary_takes (by decide) hg stops
  rw [eq] at applied ⊢
  have read := ((leadingOperator_takes leading start _).pair applied).filterMapState
    (f := fun s p => (s.builder.unary p.1 p.2).toOption) (d := .unary op operand t)
    fun s hs => by
      rw [hs.1]
      exact toOption_of_ok built
  rw [List.append_assoc]
  exact read.orElse_left _

theorem tier_growsAt {op : BinaryOp} (other : op ≠ .coalesce) {tl tr : List Char}
    (hl : Fits (Knows scope) op.precedence tl left)
    (hr : Fits (Knows scope) (op.precedence + 1) tr right)
    (built : Builder.Standard.binary op left right = .ok e) :
    GrowsAt (Knows scope) op.precedence (tl ++ ([' '] ++ (op.symbol.toList ++ [' '] ++ tr))) e := by
  have ⟨low, high⟩ := precedence_bounds other
  intro gap rest hg stops
  have behind : Stops (op.precedence + 1) (op.symbol.toList ++ [' '] ++ (tr ++ gap) ++ rest) := by
    rw [List.append_assoc]
    exact ⟨_, Nat.le_refl _, .operator op _⟩
  have significant : Significant (tr ++ gap ++ rest) := hr.significant_append gap rest
  have start := hl.growsAt low high (Nat.le_refl _) [' '] _ .space behind
  have symbol := tierOperator_takes (I := Knows scope) (fun _ hs => hs.1) other significant
  have operand := hr.readAt (Nat.le_refl _) gap rest hg stops
  have read := start.step rfl (symbol.pair operand) (by simp) (toOption_of_ok built)
  simpa only [List.append_assoc] using read

theorem coalesce_chainsAt {tl tr : List Char} (hl : Fits (Knows scope) 2 tl left)
    (hr : Fits (Knows scope) 1 tr right)
    (built : Builder.Standard.binary .coalesce left right = .ok e) :
    ChainsAt (Knows scope)
      (tl ++ ([' '] ++ (BinaryOp.coalesce.symbol.toList ++ [' '] ++ tr))) e := by
  intro gap rest hg stops
  have behind : Stops 2 (BinaryOp.coalesce.symbol.toList ++ [' '] ++ (tr ++ gap ++ rest)) :=
    ⟨2, Nat.le_refl 2, .operator .coalesce _⟩
  have significant : Significant (tr ++ gap ++ rest) := hr.significant_append gap rest
  have first := hl.readAt (Nat.le_refl 2) [' '] _ .space behind
  have symbol : coalesceOperator.Takes (Knows scope) _ _ (tr ++ gap ++ rest) :=
    OperatorToken.rule_takes (fun _ hs => hs.1) coalesce_listed significant
  have others := hr.chainsAt (Nat.le_refl 1) gap rest hg stops
  have read := Chains.cons first symbol (by simp) others (toOption_of_ok built)
  simpa only [List.append_assoc] using read

theorem binary_readBack {op : BinaryOp} (hl : ReadBack scope left) (hr : ReadBack scope right)
    (built : Builder.Standard.binary op left right = .ok (.binary op left right t)) :
    ReadBack scope (.binary op left right t) := by
  by_cases other : op = .coalesce
  case pos =>
    subst other
    rw [ReadBack, binary_text (l := 2) (r := 1) rfl]
    have leftFits := hl.fitted (show 2 ≤ 13 by decide)
    have chain := coalesce_chainsAt leftFits (hr.fitted (by decide)) built
    exact .of_legible (start_append leftFits (Nat.le_succ 1) _) (.chain chain)
  case neg =>
    have ⟨low, high⟩ := precedence_bounds other
    rw [ReadBack, binary_text (if_neg other)]
    have leftFits := hl.fitted (Nat.le_trans high (by decide))
    have grows := tier_growsAt other leftFits (hr.fitted (by omega)) built
    exact .of_legible (start_append leftFits (Nat.le_refl _) _) (.tier low high grows)

theorem conditional_readAt {condition yes no : Expr} {tc ty tn : List Char}
    (hc : Fits (Knows scope) 1 tc condition) (hy : Fits (Knows scope) 0 ty yes)
    (hn : Fits (Knows scope) 0 tn no)
    (built : Builder.Standard.conditional condition yes no = .ok e) :
    ReadAt (Knows scope) 0
      (tc ++ ([' '] ++ (['?', ' '] ++ (ty ++ ([' '] ++ ([':', ' '] ++ tn)))))) e := by
  refine readAt_of_conditional fun gap rest hg stops => ?_
  have last : Significant (tn ++ gap ++ rest) := hn.significant_append gap rest
  have middle : Significant (ty ++ [' '] ++ ([':', ' '] ++ (tn ++ gap ++ rest))) :=
    hy.significant_append _ _
  have asked : (operator "?" ['?']).Takes (Knows scope) ['?', ' '] "?"
      (ty ++ [' '] ++ ([':', ' '] ++ (tn ++ gap ++ rest))) :=
    operator_takes "?" .space middle (by simp)
  have colon : (symbol ":").Takes (Knows scope) [':', ' '] ":" (tn ++ gap ++ rest) :=
    symbol_takes ":" .space last
  have parts := (asked.between (hy.expression_takes .space (stops_closer (by decide) _)) colon).pair
    (hn.expression_takes hg stops)
  have chosen := parts.filterMapState
    (f := fun s p => (s.builder.conditional condition p.1 p.2).toOption) (d := e)
    fun s hs => by
      rw [hs.1]
      exact toOption_of_ok built
  have behind : Stops 1 (['?', ' '] ++ (ty ++ [' ']) ++ [':', ' '] ++ (tn ++ gap) ++ rest) := by
    simp only [List.append_assoc]
    exact ⟨1, Nat.le_refl 1, .question _⟩
  have first := hc.readAt (Nat.le_refl 1) [' '] _ .space behind
  have read : (conditional whole).Takes (Knows scope) _ e rest := first.bind (chosen.orElse_left _)
  simpa only [List.append_assoc] using read

theorem conditional_readBack {condition yes no : Expr} (hc : ReadBack scope condition)
    (hy : ReadBack scope yes) (hn : ReadBack scope no)
    (built : Builder.Standard.conditional condition yes no =
      .ok (.conditional condition yes no t)) :
    ReadBack scope (.conditional condition yes no t) := by
  rw [ReadBack, conditional_text]
  have fits := hc.fitted (show 1 ≤ 13 by decide)
  have read := conditional_readAt fits (hy.mono (Nat.zero_le _)) (hn.mono (Nat.zero_le _)) built
  exact .of_legible (start_append fits (Nat.zero_le 1) _) (.choice read)

end Operations

section Applications

theorem trailing_readBack {op : UnaryOp} (trailing : op.isTrailing)
    (h : ReadBack scope operand)
    (built : Builder.Standard.unary op operand = .ok (.unary op operand t)) :
    ReadBack scope (.unary op operand t) := by
  have precedence : (Expr.unary op operand t).precedence = 13 := by
    simp [Expr.precedence, trailing, Expr.primaryPrecedence]
  have ⟨a, eq, listed, point, other⟩ : ∃ a, op.symbol.toList = [a, a] ∧
      a ∈ ['.', '(', '[', '+', '-'] ∧ a ≠ '.' ∧ a ≠ '(' := by
    cases op with
    | postIncrement => exact ⟨'+', by decide⟩
    | postDecrement => exact ⟨'-', by decide⟩
    | _ => simp [UnaryOp.isTrailing] at trailing
  rw [ReadBack, precedence, trailing_text trailing]
  refine applied_fits (h.fitted (Nat.le_refl 13)) (by simp [eq]) (fun more => ?_) (fun _ => ?_)
    (toOption_of_ok built) fun gap rest hg ends _ => stepSuffix_takes trailing hg ends
  · rw [eq]
    exact ends_cons listed fun eq => absurd eq point
  · simpa [eq] using other

theorem ends_name {name : String} (h : Identifier name) (rest : List Char) :
    Ends ('.' :: (name.toList ++ rest)) := by
  have ⟨a, cs, eq, start⟩ := h.start
  refine ends_cons (by decide) fun _ b mem => ?_
  rw [eq] at mem
  obtain rfl := Option.some.inj mem
  exact not_digit_of_start start

theorem member_readBack {name : String} (h : ReadBack scope target) (identifier : Identifier name)
    (built : Builder.Standard.member target name = .ok (.member target owner name t)) :
    ReadBack scope (.member target owner name t) := by
  rw [ReadBack, member_text]
  exact applied_fits (h.fitted (Nat.le_refl 13)) (List.cons_ne_nil _ _) (ends_name identifier)
    (fun _ => by simp) (toOption_of_ok built) fun gap rest hg ends other =>
      memberSuffix_takes identifier hg ends (other rfl)

section Lists

variable {args : List Expr} (hargs : ∀ arg ∈ args, ReadBack scope arg)

include hargs

theorem call_readBack {name : String} (h : ReadBack scope target) (identifier : Identifier name)
    (built : Builder.Standard.call target name args = .ok (.call target owner name args t)) :
    ReadBack scope (.call target owner name args t) := by
  rw [ReadBack, call_text]
  refine applied_fits (h.fitted (Nat.le_refl 13)) (List.cons_ne_nil _ _) (fun more => ?_)
    (fun _ => by simp) (toOption_of_ok built) fun gap rest hg ends _ =>
      callSuffix_takes identifier hargs hg ends
  rw [List.append_assoc]
  exact ends_name identifier _

theorem index_readBack (h : ReadBack scope target)
    (built : Builder.Standard.index target args = .ok (.index target args t)) :
    ReadBack scope (.index target args t) := by
  rw [ReadBack, index_text]
  exact applied_fits (h.fitted (Nat.le_refl 13)) (List.cons_ne_nil _ _)
    (fun more => ends_cons (by decide) (by simp)) (fun _ => by simp) (toOption_of_ok built)
    fun gap rest hg ends _ => indexSuffix_takes hargs hg ends

-- No member of a value is a delegate, so that what is invoked is not read as a call.
theorem invoke_readBack {delegate : Expr} (h : ReadBack scope delegate)
    (plain : isMember delegate = false)
    (built : Builder.Standard.invoke delegate args = .ok (.invoke delegate args t)) :
    ReadBack scope (.invoke delegate args t) := by
  rw [ReadBack, invoke_text]
  exact applied_fits (h.fitted (Nat.le_refl 13)) (List.cons_ne_nil _ _)
    (fun more => ends_cons (by decide) (by simp)) (by simp [plain]) (toOption_of_ok built)
    fun gap rest hg ends _ => invokeSuffix_takes hargs hg ends

end Lists

end Applications

theorem signature_of_property {name : String} (h : Members.property? owner name = some t) :
    t.signature? = none := by
  unfold Members.property? at h
  split at h
  case h_1 | h_2 => exact Option.some.inj h ▸ rfl
  case h_3 => simp at h

theorem not_member_of_invoke {delegate : Expr} {args : List Expr}
    (rebuilt : delegate.Rebuilt scope) (built : Builder.Standard.invoke delegate args = .ok e) :
    isMember delegate = false := by
  cases rebuilt with
  | member _ _ made =>
    have ⟨t, found, eq⟩ := Builder.Standard.member_shape made
    rw [eq, Builder.Standard.invoke, Expr.ty, signature_of_property found] at built
    simp at built
  | _ => rfl

end Grammar

open Grammar

theorem Expr.Rebuilt.readBack {scope : Scope} {e : Expr} (h : e.Rebuilt scope) :
    ReadBack scope e := by
  induction h with
  | constant plain => exact constant_fits plain
  | var name found => exact var_fits name found
  | @unary op operand t _ built ih =>
    cases trailing : op.isTrailing with
    | true => exact trailing_readBack trailing ih built
    | false => exact leading_readBack trailing ih built
  | binary _ _ built left right => exact binary_readBack left right built
  | conditional _ _ _ built condition yes no => exact conditional_readBack condition yes no built
  | member _ identifier built ih => exact member_readBack ih identifier built
  | call _ identifier _ built ih args => exact call_readBack args ih identifier built
  | invoke rebuilt _ built ih args =>
    exact invoke_readBack args ih (not_member_of_invoke rebuilt built) built
  | index _ _ built ih args => exact index_readBack args ih built

theorem expressionUnit_takes {scope : Scope} {e : Expr} (h : ReadBack scope e) :
    expressionUnit.Takes (Knows scope) (e.textAt 0).toList e [] := by
  have read := h.expression_takes .none ⟨0, Nat.le_refl 0, .done⟩
  have blanks : whitespace.Takes (Knows scope) [] () ((e.textAt 0).toList ++ [] ++ []) :=
    whitespace_takes .none (h.significant_append [] [])
  have all := (blanks.seqRight read).seqLeft endOfInput_takes
  simp only [List.append_nil, List.nil_append] at all
  exact all

-- The text of a tree that has been read is read as this tree, if it is made of operators and
-- members on variables and on simple constants. So the parentheses of the printer agree with the
-- precedence and the grouping of the grammar.
theorem parse_text {scope : Scope} (reachable : scope.Reachable)
    (builder : scope.builder = .standard) {source : String} {e : Expr}
    (h : parseExpression source scope = .ok e) (operates : ∀ node ∈ e.nodes, node.isOperation) :
    parseExpression e.text scope = .ok e := by
  have rebuilt : e.Rebuilt scope := parse_rebuilt reachable.keyed builder h operates
  have start : (Cursor.start e.text scope).At (Knows scope) ((e.textAt 0).toList ++ []) :=
    ⟨Cursor.start_valid _ _, ⟨builder, rfl⟩, (List.append_nil _).symm⟩
  have parses := expressionUnit_takes rebuilt.readBack _ start
  rw [parseExpression, Parser.parse_eq, parses]
  rfl

theorem parse_text_choice :
    let scope := (((Scope.new Registry.system.resolve .standard).withSymbol ⟨"n", .int⟩).withSymbol
      ⟨"s", .string⟩).withSymbol ⟨"ns", .array .int⟩
    let source := "((n - (2 - n)) * -(-n)) > s.Trim().Length ? ns[n++] : (n << (n == 3 ? n : 0))"
    scope.Reachable ∧ scope.builder = .standard ∧
      ∃ tree, parseExpression source scope = .ok tree ∧ (∀ node ∈ tree.nodes, node.isOperation) ∧
        tree.text = "(n - (2 - n)) * -(-n) > s.Trim().Length ? ns[n++] : n << (n == 3 ? n : 0)" ∧
        parseExpression tree.text scope = .ok tree := by
  intro scope source
  have reachable : scope.Reachable := .withSymbol (.withSymbol (.withSymbol (.new _ _) _) _) _
  have parsed : ∃ tree ∈ (parseExpression source scope).toOption,
      (∀ node ∈ tree.nodes, node.isOperation) ∧
        tree.text = "(n - (2 - n)) * -(-n) > s.Trim().Length ? ns[n++] : n << (n == 3 ? n : 0)" := by
    decide +kernel
  have ⟨tree, eq, operates, text⟩ := parsed
  have parsed := ok_of_toOption eq
  exact ⟨reachable, rfl, tree, parsed, operates, text, parse_text reachable rfl parsed operates⟩

end ExprTree
