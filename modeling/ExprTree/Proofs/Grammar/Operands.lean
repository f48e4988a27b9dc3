import ExprTree.Proofs.Grammar.Levels

namespace ExprTree.Grammar

open ExprTree.Parser
open Nested (whole)

variable {scope : Scope} {text t t' gap rest : List Char} {e e' : Expr} {p : Nat}

section Primary

theorem fits_of_primary {t : List Char} (start : ∃ a cs, t = a :: cs ∧ OperandStart a)
    (h : ∀ gap rest, Gap gap → Ends rest → (primary whole).Takes (Knows scope) (t ++ gap) e rest) :
    Fits (Knows scope) 13 t e := by
  have ⟨a, cs, eq, first⟩ := start
  refine .of_legible ⟨a, cs, eq, .inl first⟩ (.primary fun gap rest hg ends _ => ?_)
  exact (h gap rest hg ends).opens suffixLoop

theorem constant_fits {v : Literal} (plain : v.Plain) :
    Fits (Knows scope) 13 v.text.toList (.constant v v.ty) := by
  have ⟨a, cs, eq, first⟩ := plain_start plain
  refine fits_of_primary ⟨a, cs, eq, first.imp_right .inl⟩ fun gap rest hg ends => ?_
  refine Takes.oneOf_head ((literal_takes plain hg ends).filterMapState fun s hs => ?_) _
  rw [hs.1]
  rfl

theorem var_fits {v : Symbol} (name : Identifier v.name) (found : scope.lookup v.name = some v) :
    Fits (Knows scope) 13 v.name.toList (.var v) := by
  have ⟨a, cs, eq, first⟩ := name.start
  refine fits_of_primary ⟨a, cs, eq, .inr (.inl first)⟩ fun gap rest hg ends => ?_
  have constant : constant.Refuses (Knows scope) (v.name.toList ++ gap ++ rest) := by
    rw [List.append_assoc]
    exact (literal_refuses_identifier name (hg.apart ends.apart)).filterMapState _
  refine constant.oneOf_tail (Takes.oneOf_head ?_ _)
  refine (identifier_takes name hg ends.significant (hg.apart ends.apart)).filterMapState
    fun s hs => ?_
  rw [Scope.lookup, hs.2]
  exact congrArg (·.map Expr.var) found

theorem parenthesized_fits (h : Fits (Knows scope) p t e) :
    Fits (Knows scope) 13 ('(' :: (t ++ [')'])) e := by
  refine fits_of_primary ⟨'(', t ++ [')'], rfl, .inr (.inr rfl)⟩ fun gap rest hg ends => ?_
  have start : Punctuated ('(' :: (t ++ [')']) ++ gap ++ rest) := by
    rintro _ ⟨⟩
    exact List.mem_cons_self
  have opening : (symbol "(").Takes (Knows scope) ['('] "(" (t ++ [] ++ (')' :: gap ++ rest)) :=
    symbol_takes "(" .none (h.significant_append [] _)
  have inner := h.expression_takes .none (stops_closer (a := ')') (by decide) (gap ++ rest))
  have closing : (symbol ")").Takes (Knows scope) (')' :: gap) ")" rest :=
    symbol_takes ")" hg ends.significant
  have read : (parenthesized whole).Takes (Knows scope) ('(' :: (t ++ [')']) ++ gap) e rest := by
    unfold parenthesized
    simpa using opening.between inner closing
  exact start.constant_refuses.oneOf_tail (start.variableUse_refuses.oneOf_tail
    ((start.staticAccess_refuses whole).oneOf_tail (read.oneOf_head _)))

abbrev ReadBack (scope : Scope) (e : Expr) : Prop :=
  Fits (Knows scope) e.precedence (e.textAt 0).toList e

theorem ReadBack.fitted {slot : Nat} (h : ReadBack scope e) (bound : slot ≤ 13) :
    Fits (Knows scope) slot (Expr.fitted slot e (e.textAt 0)).toList e := by
  rw [Expr.fitted]
  split
  case isTrue =>
    have text : ("(" ++ e.textAt 0 ++ ")").toList = '(' :: ((e.textAt 0).toList ++ [')']) := by
      simp
    rw [text]
    exact (parenthesized_fits h).mono bound
  case isFalse enough => exact h.mono (Nat.le_of_not_lt enough)

end Primary

section Arguments

theorem argument_takes (h : Fits (Knows scope) p t e) (stops : Stops 0 rest) :
    (expecting none whole.expression).Takes (Knows scope) t e rest := by
  have read := h.expression_takes .none stops
  rw [List.append_nil] at read
  exact read.withState fun s hs => hs

theorem toList_furtherAt (args : List Expr) :
    (Expr.furtherAt 0 args).toList = furtherItems (fun arg => (arg.textAt 0).toList) args := by
  induction args with
  | nil => rfl
  | cons arg args ih => simp [Expr.furtherAt, furtherItems, ih]

theorem arguments_takes {left right : String} {l r : Char} {args : List Expr}
    (hl : left.toList = [l]) (hr : right.toList = [r]) (closer : r ∈ closers) (other : r ≠ ',')
    (h : ∀ arg ∈ args, ReadBack scope arg) (hg : Gap gap) (significant : Significant rest) :
    (arguments whole left right).Takes (Knows scope)
      (l :: ((Expr.listAt 0 args).toList ++ [r]) ++ gap) args rest := by
  rw [List.cons_append, List.append_assoc, List.singleton_append]
  have closed : Follows 0 (r :: gap ++ rest) := .closer closer (gap ++ rest)
  have opening (inside : Significant ((Expr.listAt 0 args).toList ++ (r :: gap ++ rest))) :
      (symbol left).Takes (Knows scope) [l] left
        ((Expr.listAt 0 args).toList ++ (r :: gap ++ rest)) := by
    have read := symbol_takes (I := Knows scope) left .none inside
    rwa [hl] at read
  have closing : (symbol right).Takes (Knows scope) (r :: gap) right rest := by
    have read := symbol_takes (I := Knows scope) right hg significant
    rwa [hr] at read
  cases args with
  | nil =>
    have item : (expecting none whole.expression).Refuses (Knows scope) (r :: gap ++ rest) :=
      (expression_refuses closed).withState fun s hs => hs
    have list := (item.separatedBy (symbol ",")).optional
    exact ((opening closed.ends.significant).between list closing).map (·.getD [])
  | cons arg args =>
    have first := h arg List.mem_cons_self
    have list := (items_take id (Stops 0) (stops_closer (by decide)) ⟨0, Nat.le_refl 0, closed⟩
      (by simpa using other) (fun arg mem => (h arg mem).significant)
      fun arg mem text => argument_takes (h arg mem)).optional
    rw [List.map_id] at list
    have text : (Expr.listAt 0 (arg :: args)).toList =
        (arg.textAt 0).toList ++ furtherItems (fun arg => (arg.textAt 0).toList) args := by
      simp [Expr.listAt, toList_furtherAt]
    rw [text] at opening ⊢
    have inside : Significant ((arg.textAt 0).toList ++
        furtherItems (fun arg => (arg.textAt 0).toList) args ++ (r :: gap ++ rest)) :=
      first.significant_append _ _
    exact ((opening inside).between list closing).map fun args => args.getD []

theorem parens_take {args : List Expr} (h : ∀ arg ∈ args, ReadBack scope arg) (hg : Gap gap)
    (significant : Significant rest) :
    (arguments whole "(" ")").Takes (Knows scope)
      ('(' :: ((Expr.listAt 0 args).toList ++ [')']) ++ gap) args rest :=
  arguments_takes rfl rfl (by decide) (by decide) h hg significant

theorem brackets_take {args : List Expr} (h : ∀ arg ∈ args, ReadBack scope arg) (hg : Gap gap)
    (significant : Significant rest) :
    (arguments whole "[" "]").Takes (Knows scope)
      ('[' :: ((Expr.listAt 0 args).toList ++ [']']) ++ gap) args rest :=
  arguments_takes rfl rfl (by decide) (by decide) h hg significant

theorem parens_refuse {I : Scope → Prop} (h : '(' ∉ rest.head?) :
    (arguments whole "(" ")").Refuses I rest :=
  ((symbol_refuses (not_prefix_of_head rfl h)).between _ _).map _

theorem brackets_refuse (h : '[' ∉ rest.head?) :
    (arguments whole "[" "]").Refuses (Knows scope) rest :=
  ((symbol_refuses (not_prefix_of_head rfl h)).between _ _).map _

end Arguments

section Suffixes

theorem ends_cons {a : Char} (h : a ∈ ['.', '(', '[', '+', '-'])
    (next : a = '.' → ∀ b ∈ rest.head?, b.isDigit = false) : Ends (a :: rest) := by
  have table : ∀ a ∈ ['.', '(', '[', '+', '-'], Text.isBlank a = false ∧ a ≠ '/' ∧
      isIdentifierPart a = false := by
    decide
  have ⟨blank, slash, part⟩ := table a h
  refine ⟨significant_cons blank slash rest, ?_, ?_⟩
  · rintro _ ⟨⟩
    exact part
  · intro b found
    have ⟨eq, found⟩ := List.cons_prefix_cons.mp found
    have ⟨more, eq'⟩ := found
    exact next eq.symm b (by rw [← eq']; rfl)

theorem member_takes {I : Scope → Prop} (standard : ∀ s, I s → s.builder = .standard)
    {name : String} (h : Identifier name) (hg : Gap gap) (significant : Significant rest)
    (apart : Apart (gap ++ rest)) (other : '(' ∉ rest.head?) :
    (suffix whole).Takes I ('.' :: (name.toList ++ gap))
      (fun target => (Builder.Standard.member target name).toOption) rest := by
  have none : (arguments whole "(" ")").Refuses I rest := parens_refuse other
  have read := (memberName_takes h hg significant apart).pair none.optional
  rw [List.append_nil] at read
  refine (read.filterMapState fun s hs => ?_).oneOf_head _
  rw [standard s hs]
  rfl

theorem memberSuffix_takes {name : String} (h : Identifier name) (hg : Gap gap) (ends : Ends rest)
    (other : '(' ∉ rest.head?) :
    (suffix whole).Takes (Knows scope) ('.' :: (name.toList ++ gap))
      (fun target => (Builder.Standard.member target name).toOption) rest :=
  member_takes (fun _ hs => hs.1) h hg ends.significant (hg.apart ends.apart) other

theorem callSuffix_takes {name : String} {args : List Expr} (h : Identifier name)
    (fit : ∀ arg ∈ args, ReadBack scope arg) (hg : Gap gap) (ends : Ends rest) :
    (suffix whole).Takes (Knows scope)
      ('.' :: name.toList ++ ('(' :: ((Expr.listAt 0 args).toList ++ [')'])) ++ gap)
      (fun target => (Builder.Standard.call target name args).toOption) rest := by
  have list := parens_take fit hg ends.significant
  have behind : Ends ('(' :: ((Expr.listAt 0 args).toList ++ [')']) ++ gap ++ rest) :=
    ends_cons (by decide) (by simp)
  have name : (symbol "." *> identifier).Takes (Knows scope) ('.' :: (name.toList ++ [])) name _ :=
    memberName_takes h .none behind.significant behind.apart
  rw [List.append_nil] at name
  rw [List.append_assoc]
  refine ((name.pair list.optional).filterMapState fun s hs => ?_).oneOf_head _
  rw [hs.1]
  rfl

theorem member_refuses (h : '.' ∉ rest.head?) :
    (symbol "." *> identifier).Refuses (Knows scope) rest :=
  (symbol_refuses (not_prefix_of_head rfl h)).seqRight _

theorem indexSuffix_takes {args : List Expr} (fit : ∀ arg ∈ args, ReadBack scope arg) (hg : Gap gap)
    (ends : Ends rest) :
    (suffix whole).Takes (Knows scope) ('[' :: ((Expr.listAt 0 args).toList ++ [']']) ++ gap)
      (fun target => (Builder.Standard.index target args).toOption) rest := by
  have list := brackets_take fit hg ends.significant
  refine (((member_refuses (by simp)).pair _).filterMapState _).oneOf_tail ?_
  refine (list.filterMapState fun s hs => ?_).oneOf_head _
  rw [hs.1]
  rfl

theorem invokeSuffix_takes {args : List Expr} (fit : ∀ arg ∈ args, ReadBack scope arg)
    (hg : Gap gap) (ends : Ends rest) :
    (suffix whole).Takes (Knows scope) ('(' :: ((Expr.listAt 0 args).toList ++ [')']) ++ gap)
      (fun target => (Builder.Standard.invoke target args).toOption) rest := by
  have list := parens_take fit hg ends.significant
  refine (((member_refuses (by simp)).pair _).filterMapState _).oneOf_tail ?_
  refine ((brackets_refuse (by simp)).filterMapState _).oneOf_tail ?_
  refine (list.filterMapState fun s hs => ?_).oneOf_head _
  rw [hs.1]
  rfl

theorem trailingOperator_takes {op : UnaryOp} (trailing : op.isTrailing) (hg : Gap gap)
    (significant : Significant rest) :
    trailingOperator.Takes (Knows scope) (op.symbol.toList ++ gap) op rest := by
  cases op with
  | postIncrement =>
    exact ((operator_takes "++" hg significant (by simp)).map _).oneOf_head _
  | postDecrement =>
    have other : (operator "++" []).Refuses (Knows scope) ("--".toList ++ gap ++ rest) :=
      operator_refuses (not_prefix_of_head (y := '+') rfl (by simp)) []
    exact (other.map _).oneOf_tail ((operator_takes "--" hg significant (by simp)).map _)
  | _ => simp [UnaryOp.isTrailing] at trailing

theorem stepSuffix_takes {op : UnaryOp} (trailing : op.isTrailing) (hg : Gap gap)
    (ends : Ends rest) :
    (suffix whole).Takes (Knows scope) (op.symbol.toList ++ gap)
      (fun target => (Builder.Standard.unary op target).toOption) rest := by
  have step : trailingOperator.Takes (Knows scope) (op.symbol.toList ++ gap) op rest :=
    trailingOperator_takes trailing hg ends.significant
  have head : ∀ a ∈ ['.', '[', '('], a ∉ (op.symbol.toList ++ gap ++ rest).head? := by
    cases op with
    | postIncrement | postDecrement => simp [UnaryOp.symbol]
    | _ => simp [UnaryOp.isTrailing] at trailing
  refine (((member_refuses (head '.' (by decide))).pair _).filterMapState _).oneOf_tail ?_
  refine ((brackets_refuse (head '[' (by decide))).filterMapState _).oneOf_tail ?_
  refine ((parens_refuse (head '(' (by decide))).filterMapState _).oneOf_tail ?_
  refine step.filterMapState fun s hs => ?_
  rw [hs.1]
  rfl

end Suffixes

section Applied

theorem applied_fits (target : Fits (Knows scope) 13 t e) {apply : Expr → Option Expr}
    (nonempty : t' ≠ []) (ends : ∀ more, Ends (t' ++ more)) (free : isMember e → '(' ∉ t'.head?)
    (applied : apply e = some e')
    (h : ∀ gap rest, Gap gap → Ends rest → (isMember e' → '(' ∉ rest.head?) →
      (suffix whole).Takes (Knows scope) (t' ++ gap) apply rest) :
    Fits (Knows scope) 13 (t ++ t') e' := by
  have ⟨a, cs, eq, first⟩ := target.start
  refine .of_legible ⟨a, cs ++ t', by simp [eq], first⟩ (.primary ?_)
  intro gap rest hg behind other
  have opens := target.appliesAt (Nat.le_refl 13) [] (t' ++ gap ++ rest) .none
    (by rw [List.append_assoc]; exact ends _)
    (fun isMember => by
      rw [List.append_assoc, List.head?_append_of_ne_nil _ nonempty]
      exact free isMember)
  have read := opens.step rfl (h gap rest hg behind other) (by simp [nonempty]) applied
  rwa [List.append_nil, ← List.append_assoc] at read

end Applied

section Leading

theorem not_prefix_of_not_mem {s : List Char} {a : Char} (h : ¬s <+: text) (other : a ∉ s)
    (rest : List Char) : ¬s <+: text ++ a :: rest := by
  intro found
  rcases List.prefix_or_prefix_of_prefix found (List.prefix_append text _) with short | long
  · exact h short
  · obtain ⟨more, rfl⟩ := long
    cases more with
    | nil => simp at h
    | cons b more =>
      have ⟨eq, _⟩ := List.cons_prefix_cons.mp ((List.prefix_append_right_inj text).mp found)
      simp [eq] at other

-- The operators that are tried before one are longer or other ones.
theorem leadingTokens_split {op : UnaryOp} (leading : op.isTrailing = false) :
    ∃ before notBefore after, leadingTokens = before ++ (op, notBefore) :: after ∧
      notBefore ⊆ ['='] ∧ ∀ t ∈ before, ¬t.1.symbol.toList <+: op.symbol.toList := by
  cases op with
  | preIncrement => exact ⟨leadingTokens.take 0, _, _, rfl, by decide, by decide⟩
  | preDecrement => exact ⟨leadingTokens.take 1, _, _, rfl, by decide, by decide⟩
  | negate => exact ⟨leadingTokens.take 2, _, _, rfl, by decide, by decide⟩
  | plus => exact ⟨leadingTokens.take 3, _, _, rfl, by decide, by decide⟩
  | not => exact ⟨leadingTokens.take 4, _, _, rfl, by decide, by decide⟩
  | complement => exact ⟨leadingTokens.take 5, _, _, rfl, by decide, by decide⟩
  | postIncrement | postDecrement => simp [UnaryOp.isTrailing] at leading

theorem leadingOperator_takes {op : UnaryOp} (leading : op.isTrailing = false) {a : Char}
    (start : OperandStart a) (rest : List Char) :
    leadingOperator.Takes (Knows scope) op.symbol.toList op (a :: rest) := by
  have significant : Significant (a :: rest) := NodeStart.significant (p := 13) (.inl start) rest
  have equals : ¬OperandStart '=' := by
    unfold OperandStart
    decide
  have leads : ∀ t ∈ leadingTokens, ∀ b ∈ t.1.symbol.toList, b ∈ leaders := by decide
  have ⟨before, notBefore, after, eq, sub, earlier⟩ := leadingTokens_split leading
  have refuse : ∀ p ∈ before.map leadingRule,
      p.Refuses (Knows scope) (op.symbol.toList ++ a :: rest) := by
    intro p mem
    obtain ⟨t, listed, rfl⟩ := List.mem_map.mp mem
    have token : t ∈ leadingTokens := eq ▸ List.mem_append_left _ listed
    have other : a ∉ t.1.symbol.toList := fun mem => start.not_leader (leads t token a mem)
    exact (operator_refuses (not_prefix_of_not_mem (earlier t listed) other rest) _).map _
  have read : (operator op.symbol notBefore).Takes (Knows scope) (op.symbol.toList ++ []) op.symbol
      (a :: rest) := by
    refine operator_takes _ .none significant ?_
    rintro _ ⟨⟩ mem
    exact equals (List.mem_singleton.mp (sub mem) ▸ start)
  rw [List.append_nil] at read
  rw [leadingOperator_eq, eq, List.map_append, List.map_cons]
  exact (read.map fun _ => op).oneOf_append refuse _

end Leading

end ExprTree.Grammar
