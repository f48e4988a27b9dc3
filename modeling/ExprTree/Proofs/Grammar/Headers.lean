import ExprTree.Proofs.Grammar.Operands
import ExprTree.Proofs.Grammar.TypeNames
import ExprTree.Proofs.Parser.Halts

namespace ExprTree.Grammar

open ExprTree.Parser
open Nested (whole)

variable {I : Scope → Prop} {namespaces : List String} {name : String} {t gap text rest : List Char}

section Words

namespace IsWord

variable (word : IsWord name)

include word

theorem significant (rest : List Char) : Significant (name.toList ++ rest) := by
  have ⟨a, cs, eq, start⟩ := word.start
  rw [eq]
  exact significant_of_start start _

theorem not_mem_head {a : Char} (other : isIdentifierStart a = false) (rest : List Char) :
    a ∉ (name.toList ++ rest).head? := by
  have ⟨b, cs, eq, start⟩ := word.start
  rw [eq]
  rintro ⟨⟩
  simp [start] at other

theorem not_leader (rest : List Char) : ∀ a ∈ (name.toList ++ rest).head?, a ∉ leaders := by
  have table : ∀ a ∈ leaders, isIdentifierStart a = false := by decide
  exact fun a mem leads => word.not_mem_head (table a leads) rest mem

theorem behind_space (rest : List Char) : Behind [' '] (name.toList ++ rest) := by
  refine ⟨.space, word.significant rest, ?_, word.not_mem_head (by decide) rest⟩
  rintro _ ⟨⟩
  decide

theorem symbol_refuses {s : String} {a : Char} {cs : List Char} (hs : s.toList = a :: cs)
    (rest : List Char) (other : isIdentifierStart a = false) :
    (symbol s).Refuses I (name.toList ++ rest) :=
  Grammar.symbol_refuses (not_prefix_of_head hs (word.not_mem_head other rest))

theorem keyword_refuses {w : String} (listed : w ∈ keywords) (other : name ≠ w)
    (apart : Apart rest) : (keyword w).Refuses I (name.toList ++ rest) :=
  keyword_refuses_word (isWord_of_keyword listed).parts word.parts
    (fun same => other (String.toList_inj.mp same)) apart

end IsWord

def operandWords : List String :=
  literalWords ++ ["typeof", "default", "new"]

theorem operands_refuse_word (word : IsWord name) (other : name ∉ operandWords)
    (apart : Apart rest) {operand : Rule Expr} (mem : operand ∈ [constant, parenthesized whole,
      typeOf, defaultValue, newArray whole]) : operand.Refuses I (name.toList ++ rest) := by
  have keyword {w : String} (listed : w ∈ operandWords) :
      (keyword w).Refuses I (name.toList ++ rest) := by
    have reserved : ∀ w ∈ operandWords, w ∈ keywords := by decide
    exact word.keyword_refuses (reserved w listed) (fun eq => other (eq ▸ listed)) apart
  simp only [List.mem_cons, List.not_mem_nil, or_false] at mem
  rcases mem with rfl | rfl | rfl | rfl | rfl
  · have literal : name ∉ literalWords := fun mem => other (List.mem_append_left _ mem)
    exact (literal_refuses_word word literal apart).filterMapState _
  · exact (word.symbol_refuses (s := "(") rfl rest (by decide)).between _ _
  · exact ((keyword (by decide)).seqRight _).filterMapState _
  · exact ((keyword (by decide)).seqRight _).filterMapState _
  · exact (((keyword (by decide)).seqRight _).filterMap _).bind

theorem Identifier.not_operandWord (h : Identifier name) : name ∉ operandWords := by
  have reserved : ∀ w ∈ operandWords, w ∈ keywords := by decide
  exact fun mem => h.keyword (reserved name mem)

theorem primary_halts (use : variableUse.Halts I t rest)
    (access : (staticAccess whole).Halts I t rest)
    (others : ∀ operand ∈ [constant, parenthesized whole, typeOf, defaultValue, newArray whole],
      operand.Refuses I (t ++ rest)) : (primary whole).Halts I t rest := by
  refine .oneOf fun operand mem => ?_
  by_cases eq : operand = variableUse
  case pos => exact eq ▸ use
  case neg =>
    by_cases eq' : operand = staticAccess whole
    case pos => exact eq' ▸ access
    case neg => exact (others operand (by simp_all)).halts

theorem predefinedType_refuses_identifier (h : Identifier name) (apart : Apart rest) :
    predefinedType.Refuses I (name.toList ++ rest) := by
  refine oneOf_refuses fun rule mem => ?_
  obtain ⟨p, _, rfl⟩ := List.mem_map.mp mem
  have other : name ≠ p.keyword := fun eq => h.keyword (eq ▸ keyword_reserved p)
  exact (h.isWord.keyword_refuses (keyword_reserved p) other apart).map _

theorem Follows.behind (h : Follows 0 rest) : Behind [] rest :=
  ⟨.none, h.ends.significant, h.ends.apart, fun mem => absurd (h.head '.' mem) (by decide)⟩

theorem name_takes (h : Identifier name) (behind : Behind gap rest) :
    identifier.Takes I (name.toList ++ gap) name rest :=
  identifier_takes h behind.spaced behind.significant behind.apart

theorem path_takes_name (h : Identifier name) (behind : Behind gap rest) :
    path.Takes I (name.toList ++ gap) [name] rest := by
  have none : (symbol "." *> identifier).Refuses I rest :=
    (symbol_refuses (not_prefix_of_head rfl behind.point)).seqRight _
  have first : identifier.Takes I (name.toList ++ gap) name ([] ++ rest) := name_takes h behind
  have read := TakesAll.separatedBy first (.nil none)
  rwa [List.append_nil] at read

end Words

section Operators

-- A text that goes on neither with a binary operator nor with the choice of a conditional.
structure Inert (rest : List Char) : Prop where
  operators : ∀ t ∈ operatorTokens, ¬t.op.symbol.toList <+: rest
  question  : ¬"?".toList <+: rest

theorem Follows.inert (h : Follows 0 rest) : Inert rest := by
  have opening : ∀ t ∈ operatorTokens, Opening t.op.symbol.toList := by decide
  exact ⟨fun t listed => (opening t listed).absent h, Opening.absent (by decide) h⟩

theorem inert_point (rest : List Char) : Inert ('.' :: rest) := by
  have table : ∀ t ∈ operatorTokens, ∃ y ∈ t.op.symbol.toList.head?, y ≠ '.' := by decide
  refine ⟨fun t listed => ?_, by simp⟩
  have ⟨y, head, other⟩ := table t listed
  exact not_prefix_of_first ⟨y, head, by simpa using Ne.symm other⟩

theorem inert_arrow (b : List Char) : Inert ("=>".toList ++ b) := by
  have table : ∀ t ∈ operatorTokens, t.op.symbol.toList.length ≤ 2 ∧
      ¬t.op.symbol.toList <+: "=>".toList := by
    decide
  exact ⟨fun t listed => not_prefix_append (table t listed).1 (table t listed).2 b, by simp⟩

variable (inert : Inert rest)

include inert

theorem binaryChain_halts {operand : Rule Expr} (h : operand.Halts I t rest) :
    (binaryChain operand).Halts I t rest := by
  have token {t : OperatorToken} (listed : t ∈ operatorTokens) : t.rule.Refuses I rest :=
    OperatorToken.rule_refuses (inert.operators t listed)
  have tiers_refuse : ∀ tier ∈ tiers, (tierOperator tier).Refuses I rest := by
    intro tier mem
    refine oneOf_refuses fun rule mem' => ?_
    obtain ⟨t, listed, rfl⟩ := List.mem_map.mp mem'
    exact token (List.mem_append_left _ (List.mem_flatten.mpr ⟨tier, mem, listed⟩))
  refine .chainRight ?_ (token coalesce_listed)
  rw [tierOperators]
  generalize tiers = tiers at tiers_refuse
  induction tiers generalizing operand with
  | nil => exact h
  | cons tier tiers ih =>
    obtain ⟨first, others⟩ := List.forall_mem_cons.mp tiers_refuse
    exact ih (h.chainLeft first) others

theorem nonAssignmentOver_halts (start : ∀ a ∈ (t ++ rest).head?, a ∉ leaders)
    (operand : (primary whole).Halts I t rest)
    (suffixes : ∀ c, c.At I rest → ∀ s ∈ (suffix whole).parses c, ∀ e, s.value e = none) :
    (nonAssignmentOver whole).Halts I t rest := by
  have applied : (leadingOperator.pair whole.unary).Refuses I (t ++ rest) :=
    (leadingOperator_refuses start).pair _
  have unary : (unaryOver whole).Halts I t rest :=
    (applied.filterMapState _).halts.orElse (operand.suffixed suffixes)
  have question : (operator "?" ['?']).Refuses I rest := operator_refuses inert.question _
  have condition := binaryChain_halts inert unary
  have choice := (question.between whole.expression (symbol ":")).pair whole.expression
  have halted : (nonAssignmentOver whole).Halts I (t ++ []) rest := by
    refine condition.bind fun e => Halts.orElse ?_ (pure_takes e rest).halts
    exact Refuses.halts (t := []) (choice.filterMapState _)
  rwa [List.append_nil] at halted

end Operators

section Expressions

theorem primary_halts_name (h : Identifier name) (behind : Behind gap rest)
    (call : '(' ∉ rest.head?) : (primary whole).Halts I (name.toList ++ gap) rest := by
  have predefined : predefinedType.Refuses I (name.toList ++ (gap ++ rest)) :=
    predefinedType_refuses_identifier h behind.apart
  rw [← List.append_assoc] at predefined
  have static : staticPath.Takes I (name.toList ++ gap) (none, [name]) rest :=
    ((predefined.seqLeft _).pair path |>.map _).orElse_takes ((path_takes_name h behind).map _)
  have args : (arguments whole "(" ")").Refuses I rest := parens_refuse call
  have access := static.pair args.optional
  rw [List.append_nil] at access
  refine primary_halts ((name_takes h behind).halts.filterMapState _)
    (access.halts.filterMapState _) fun operand mem => ?_
  rw [List.append_assoc]
  exact operands_refuse_word h.isWord h.not_operandWord behind.apart mem

theorem primary_halts_parens (start : Punctuated (t ++ rest))
    (parens : (parenthesized whole).Halts I t rest) : (primary whole).Halts I t rest := by
  refine .oneOf fun operand mem => ?_
  by_cases eq : operand = parenthesized whole
  case pos => exact eq ▸ parens
  case neg => exact (start.operands_refuse (by simp_all)).halts

theorem lambdaOver_refuses_word (word : IsWord name) {more : List Char}
    (eq : t ++ rest = name.toList ++ more) (names : identifier.Halts I t rest)
    (arrow : ¬"=>".toList <+: rest) : (lambdaOver whole).Refuses I (t ++ rest) := by
  have opening : (symbol "(").Refuses I (t ++ rest) :=
    eq ▸ word.symbol_refuses rfl more (by decide)
  have explicit : explicitParameters.Refuses I (t ++ rest) := by
    unfold explicitParameters
    exact (opening.between _ _).filterMapState _
  have implicit : implicitParameters.Halts I t rest := by
    unfold implicitParameters
    exact ((names.map _).orElse (opening.between _ _).halts).filterMapState _
  exact ((explicit.halts.orElse implicit).seqLeft_refuses (symbol_refuses arrow)).bind

theorem expression_halts (condition : (nonAssignmentOver whole).Halts I t rest)
    (lambda : (lambdaOver whole).Refuses I (t ++ rest)) : whole.expression.Halts I t rest := by
  intro c hc r mem
  have parses : whole.expression.parses c = (expressionOver whole).parses c :=
    parses_whole expressionOver_descends hc.valid
  exact ((condition.notFollowedBy _).orElse lambda.halts) c hc r (parses ▸ mem)

theorem expression_halts_name (h : Identifier name) (closed : Follows 0 rest) :
    whole.expression.Halts I name.toList rest := by
  have behind := closed.behind
  have operand := primary_halts_name (I := I) h behind
    fun mem => absurd (closed.head '(' mem) (by decide)
  have names := (name_takes (I := I) h behind).halts
  rw [List.append_nil] at operand names
  have suffixes : (suffix whole).Refuses I rest := closed.suffix_refuses
  have condition := nonAssignmentOver_halts closed.inert (h.isWord.not_leader rest) operand
    fun c hc s mem => absurd (suffixes c hc ▸ mem) List.not_mem_nil
  exact expression_halts condition
    (lambdaOver_refuses_word h.isWord rfl names (Opening.absent (by decide) closed))

theorem parens_refuse_open {α : Type} {inner : Rule α} (h : inner.Halts I t rest)
    (significant : Significant (t ++ rest)) (open' : ')' ∉ rest.head?) :
    (between (symbol "(") inner (symbol ")")).Refuses I ('(' :: (t ++ rest)) := by
  have opening : (symbol "(").Takes I ['('] "(" (t ++ rest) := symbol_takes "(" .none significant
  have closing : (symbol ")").Refuses I rest := symbol_refuses (not_prefix_of_head rfl open')
  exact (opening.halts.seqRight h).seqLeft_refuses closing

end Expressions

section Types

-- How the name of a type starts: with a keyword, or with a type of `System` whose name is not the
-- one of a property.
inductive TypeStart : List Char → Prop
  | keyword (p : Primitive) {more : List Char} (h : Starts ['<', '['] more) :
      TypeStart (p.keyword.toList ++ more)
  | qualified {name : String} (word : Identifier name)
      (other : ∀ owner, Members.property? owner name = none) {more : List Char}
      (h : Starts ['<', '['] more) : TypeStart ("System".toList ++ '.' :: (name.toList ++ more))

theorem TypeStart.array (h : TypeStart t) : TypeStart (t ++ ['[', ']']) := by
  have starts {more : List Char} (h : Starts ['<', '['] more) :
      Starts ['<', '['] (more ++ ['[', ']']) := by
    cases more with
    | nil => exact starts_cons (by decide) _
    | cons a more => exact h
  cases h with
  | keyword p h =>
    rw [List.append_assoc]
    exact .keyword p (starts h)
  | qualified word other h =>
    rw [List.append_assoc, List.cons_append, List.append_assoc]
    exact .qualified word other (starts h)

theorem property?_eq_none {name : String} (other : name ≠ "Length") (owner : Ty) :
    Members.property? owner name = none := by
  unfold Members.property?
  split
  case h_1 => exact absurd rfl other
  case h_2 => exact absurd rfl other
  case h_3 => rfl

theorem typeStart_plain {t : Ty} (name : String) (word : Identifier name)
    (other : name ≠ "Length") (text : t.text = dotted ["System", name]) :
    TypeStart t.text.toList := by
  have start : TypeStart ("System".toList ++ '.' :: (name.toList ++ [])) :=
    .qualified word (property?_eq_none other) nofun
  rw [List.append_nil] at start
  rwa [text, toList_dotted]

theorem typeStart_generic {args : List Ty} (word : Identifier name) (other : name ≠ "Length")
    (some : 1 ≤ args.length)
    (definition : Registry.Generic (dotted ["System", name]) args.length) :
    TypeStart (Ty.named (Ty.genericName (dotted ["System", name]) args.length) args).text.toList := by
  cases args with
  | nil => simp at some
  | cons t ts =>
    have start : TypeStart ("System".toList ++ '.' :: (name.toList ++
        '<' :: (t.text.toList ++ (Ty.listText ts).toList ++ ['>']))) :=
      .qualified word (property?_eq_none other) (starts_cons (by decide) _)
    rw [Ty.text, definition.printed]
    simpa [toList_dotted] using start

theorem typeStart_of_nameable {t : Ty} (h : t.Nameable) : TypeStart t.text.toList := by
  induction h with
  | prim p =>
    have start : TypeStart (p.keyword.toList ++ []) := .keyword p nofun
    rwa [List.append_nil] at start
  | math => exact typeStart_plain "Math" (by decide) (by decide) (by decide)
  | type => exact typeStart_plain "Type" (by decide) (by decide) (by decide)
  | action => exact typeStart_plain "Action" (by decide) (by decide) (by decide)
  | array _ ih =>
    rw [Ty.text, String.toList_append]
    exact ih.array
  | func _ some arity =>
    have base : Ty.funcName = dotted ["System", "Func"] := by decide
    have definition := Registry.Generic.func some arity
    rw [base] at definition ⊢
    exact typeStart_generic (by decide) (by decide) some definition
  | actionOver _ some arity =>
    have base : Ty.actionName = dotted ["System", "Action"] := by decide
    have definition := Registry.Generic.action some arity
    rw [base] at definition ⊢
    exact typeStart_generic (by decide) (by decide) some definition

theorem behind_typeStart {more : List Char} (h : Starts ['<', '['] more) (word : IsWord name)
    (rest : List Char) : ∃ gap rest', more ++ ' ' :: (name.toList ++ rest) = gap ++ rest' ∧
      Behind gap rest' ∧ '(' ∉ rest'.head? := by
  cases more with
  | nil =>
    exact ⟨[' '], name.toList ++ rest, rfl, word.behind_space rest,
      word.not_mem_head (by decide) rest⟩
  | cons a more =>
    have mem : a ∈ ['<', '['] := h a rfl
    have listed : ∀ a ∈ ['<', '['], a ∈ behindName ∧ a ≠ '(' := by decide
    refine ⟨[], _, rfl, (starts_cons (listed a mem).1 _ : Starts behindName _).behind, ?_⟩
    simpa using (listed a mem).2

theorem resolve_namespace (namespaces : List String) :
    ((Registry.usual namespaces).resolve "System").toOption = none := by
  have table : ∀ entry ∈ Registry.system.types,
      entry.1 ≠ "System" ∧ ¬".System".toList <:+ entry.1.toList := by
    decide +kernel
  refine Option.eq_none_iff_forall_ne_some.mpr fun t resolved => ?_
  have ⟨key, found, place⟩ := Registry.find?_of_resolve (ok_of_toOption resolved)
  have ⟨before, after, eq, _⟩ := List.lookup_eq_some_iff.mp found
  have ⟨other, ends⟩ := table (key, t) (eq ▸ List.mem_append_right before List.mem_cons_self)
  cases place with
  | inl same => exact other same
  | inr qualified =>
    have ⟨ns, eq⟩ := qualified
    exact ends ⟨ns.toList, by simp [eq]⟩

theorem primary_refuses_keyword (p : Primitive) (behind : Behind gap rest) :
    (primary whole).Refuses I (p.keyword.toList ++ (gap ++ rest)) := by
  have table : ∀ p ∈ Primitive.all, p.keyword ∉ operandWords := by decide
  have reserved := keyword_reserved p
  have name : identifier.Refuses I (p.keyword.toList ++ (gap ++ rest)) :=
    identifier_refuses_keyword reserved behind.apart
  have point : (symbol ".").Refuses I rest := symbol_refuses (not_prefix_of_head rfl behind.point)
  have owner := (predefinedType_takes (I := I) p behind).halts.seqLeft_refuses point
  rw [List.append_assoc] at owner
  have static : staticPath.Refuses I (p.keyword.toList ++ (gap ++ rest)) :=
    ((owner.pair path).map _).orElse ((name.separatedBy (symbol ".")).map _)
  refine oneOf_refuses fun operand mem => ?_
  by_cases use : operand = variableUse
  case pos => exact use ▸ name.filterMapState _
  case neg =>
    by_cases access : operand = staticAccess whole
    case pos => exact access ▸ (static.pair _).filterMapState _
    case neg =>
      exact operands_refuse_word (isWord_of_keyword reserved) (table p p.mem_all) behind.apart
        (by simp_all)

theorem expression_refuses_keyword (p : Primitive) (behind : Behind gap rest) :
    whole.expression.Refuses I (p.keyword.toList ++ (gap ++ rest)) := by
  have reserved := keyword_reserved p
  have word := isWord_of_keyword reserved
  have name : identifier.Halts I [] (p.keyword.toList ++ (gap ++ rest)) :=
    Refuses.halts (t := []) (identifier_refuses_keyword reserved behind.apart)
  have arrow : ¬"=>".toList <+: p.keyword.toList ++ (gap ++ rest) :=
    not_prefix_of_head rfl (word.not_mem_head (by decide) _)
  have condition : (nonAssignmentOver whole).Refuses I (p.keyword.toList ++ (gap ++ rest)) :=
    nonAssignmentOver_refuses (word.not_leader _) (primary_refuses_keyword p behind)
  have lambda : (lambdaOver whole).Refuses I ([] ++ (p.keyword.toList ++ (gap ++ rest))) :=
    lambdaOver_refuses_word word rfl name arrow
  intro c hc
  exact (parses_whole expressionOver_descends hc.valid).trans
    (((condition.notFollowedBy _).orElse lambda) c hc)

section Qualified

variable (usual : ∀ s, I s → Usual namespaces s) (standard : ∀ s, I s → s.builder = .standard)
  (word : Identifier name) (behind : Behind gap rest) (call : '(' ∉ rest.head?)

theorem splitOwner?_type (namespaces : List String) (name : String) :
    splitOwner? (Registry.usual namespaces).resolve ["System", name] = none := by
  have alone : dotted ["System"] = "System" := by decide
  simp [splitOwner?, List.range_one, alone, resolve_namespace]

include word behind call

-- The name of a type is no value.
include usual in
theorem staticAccess_refuses_type :
    (staticAccess whole).Refuses I ("System".toList ++ '.' :: (name.toList ++ gap) ++ rest) := by
  have predefined : predefinedType.Refuses I
      ("System".toList ++ '.' :: (name.toList ++ gap) ++ rest) := predefinedType_refuses _
  have path := path_takes (I := I) word behind
  have static : staticPath.Takes I ("System".toList ++ '.' :: (name.toList ++ gap))
      (none, ["System", name]) rest :=
    ((predefined.seqLeft _).pair Grammar.path |>.map _).orElse_takes (path.map _)
  have args : (arguments whole "(" ")").Refuses I rest := parens_refuse call
  have access := static.pair args.optional
  rw [List.append_nil] at access
  refine access.filterMapState_refuses fun s hs => ?_
  have resolver : s.resolver = (Registry.usual namespaces).resolve := usual s hs
  simp [resolveStatic, resolver, splitOwner?_type]

include usual standard in
theorem expression_halts_type (other : ∀ owner, Members.property? owner name = none) :
    whole.expression.Halts I "System".toList ('.' :: (name.toList ++ gap) ++ rest) := by
  have space : Identifier "System" := by decide
  have apart := apart_point (name.toList ++ gap ++ rest)
  have names : identifier.Halts I "System".toList ('.' :: (name.toList ++ gap) ++ rest) :=
    (identifier_takes_namespace _).halts
  have operand : (primary whole).Halts I "System".toList ('.' :: (name.toList ++ gap) ++ rest) := by
    have access := staticAccess_refuses_type usual word behind call
    rw [List.append_assoc] at access
    exact primary_halts (names.filterMapState _) access.halts fun operand =>
      operands_refuse_word space.isWord space.not_operandWord apart
  have suffixes := member_takes standard word behind.spaced behind.significant behind.apart call
  have condition := nonAssignmentOver_halts (inert_point _) (space.isWord.not_leader _) operand
    fun c hc s mem e => by
      rw [suffixes c hc, List.mem_singleton] at mem
      simp [mem, Builder.Standard.member, other, Except.toOption]
  exact expression_halts condition (lambdaOver_refuses_word space.isWord rfl names (by simp))

end Qualified

-- What a type and the name of a parameter start in parentheses is nothing that ends with a word.
theorem parens_refuse_type {α : Type} {inner : Rule α} (start : TypeStart t) (word : IsWord name)
    (keyword : ∀ (p : Primitive) gap rest, Behind gap rest →
      inner.Refuses I (p.keyword.toList ++ (gap ++ rest)))
    (qualified : ∀ name gap rest, Identifier name → (∀ owner, Members.property? owner name = none) →
      Behind gap rest → '(' ∉ rest.head? →
      inner.Halts I "System".toList ('.' :: (name.toList ++ gap) ++ rest)) (rest : List Char) :
    (between (symbol "(") inner (symbol ")")).Refuses I
      ('(' :: (t ++ ' ' :: (name.toList ++ rest))) := by
  cases start with
  | keyword p h =>
    have ⟨gap, rest', eq, behind, _⟩ := behind_typeStart h word rest
    have word := isWord_of_keyword (keyword_reserved p)
    rw [List.append_assoc, eq]
    exact parens_refuse_open (t := []) (Refuses.halts (t := []) (keyword p gap rest' behind))
      (word.significant _) (word.not_mem_head (by decide) _)
  | qualified word' other h =>
    have ⟨gap, rest', eq, behind, call⟩ := behind_typeStart h word rest
    have space : Identifier "System" := by decide
    have halts := qualified _ gap rest' word' other behind call
    rw [List.cons_append, List.append_assoc] at halts
    rw [List.append_assoc, List.cons_append, List.append_assoc, eq]
    exact parens_refuse_open halts (space.isWord.significant _) (by simp)

theorem parenthesized_refuses_type (usual : ∀ s, I s → Usual namespaces s)
    (standard : ∀ s, I s → s.builder = .standard) (start : TypeStart t) (word : IsWord name)
    (rest : List Char) :
    (parenthesized whole).Refuses I ('(' :: (t ++ ' ' :: (name.toList ++ rest))) :=
  parens_refuse_type start word (fun p _ _ => expression_refuses_keyword p)
    (fun _ _ _ word' other behind call =>
      expression_halts_type usual standard word' behind call other) rest

end Types

end ExprTree.Grammar
