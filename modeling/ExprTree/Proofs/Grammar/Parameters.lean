import ExprTree.Proofs.Grammar.Headers
import ExprTree.Proofs.Grammar.Offset

namespace ExprTree

open ExprTree.Parser

namespace Grammar

open Cursor (Shifted)
open Nested (whole)

variable {I : Scope → Prop} {s : Scope} {namespaces : List String} {name : String}
  {t t' gap rest : List Char} {p : Symbol} {ps : List Symbol}

section Plain

def plain : Rule Expr :=
  (nonAssignmentOver whole).notFollowedBy (symbol "=>")

theorem arrow_matched (b : List Char) {c : Cursor Scope} (hc : c.At I ("=>".toList ++ b)) :
    (symbol "=>").parses c ≠ [] := by
  have read : (text "=>" : Rule String).parses c = [⟨"=>", c.drop "=>".toList.length⟩] :=
    text_takes "=>" b c hc
  have skipped : whitespace.parses (c.drop "=>".toList.length) ≠ [] :=
    Repetition.yields_ne_nil rfl _
  rw [symbol, token, parses_seqLeft, read]
  simpa using skipped

theorem significant_arrow (b : List Char) : Significant ("=>".toList ++ b) :=
  significant_cons (by decide) (by decide) _

theorem behind_arrow (b : List Char) : Behind [' '] ("=>".toList ++ b) := by
  refine ⟨.space, significant_arrow b, ?_, by simp⟩
  rintro _ ⟨⟩
  decide

theorem plain_refuses (b : List Char) (start : ∀ a ∈ (t ++ ("=>".toList ++ b)).head?, a ∉ leaders)
    (operand : (primary whole).Halts I t ("=>".toList ++ b)) :
    plain.Refuses I (t ++ ("=>".toList ++ b)) := by
  have table : ∀ s ∈ suffixStarts, ∃ y ∈ s.toList.head?, y ≠ '=' := by decide
  have suffixes : (suffix whole).Refuses I ("=>".toList ++ b) := by
    refine suffix_refuses fun s listed => ?_
    obtain ⟨y, head, other⟩ := table s listed
    exact not_prefix_of_first ⟨y, head, by simpa using Ne.symm other⟩
  have condition := nonAssignmentOver_halts (inert_arrow b) start operand
    fun c hc s mem => absurd (suffixes c hc ▸ mem) List.not_mem_nil
  exact condition.notFollowedBy_refuses fun c hc => arrow_matched b hc

end Plain

section Texts

def bare (p : Symbol) : List Char :=
  p.name.toList

def typed (p : Symbol) : List Char :=
  p.ty.text.toList ++ ' ' :: p.name.toList

def header (print : Symbol → List Char) (p : Symbol) (ps : List Symbol) : List Char :=
  '(' :: (print p ++ furtherItems print ps) ++ [')', ' ']

theorem punctuated_header (print : Symbol → List Char) (p : Symbol) (ps : List Symbol)
    (rest : List Char) : Punctuated (header print p ps ++ rest) := by
  rintro _ ⟨⟩
  exact List.mem_cons_self

-- What stands behind the first parameter.
theorem follows_first (print : Symbol → List Char) (ps : List Symbol) (rest : List Char) :
    Follows 0 (furtherItems print ps ++ (')' :: rest)) :=
  furtherItems_behind (.closer (by decide)) (.closer (by decide) rest) ps

end Texts

section Refused

theorem name_refused (h : Identifier name) (b : List Char) :
    plain.Refuses I (name.toList ++ [' '] ++ ("=>".toList ++ b)) := by
  refine plain_refuses b ?_ (primary_halts_name h (behind_arrow b) (by simp))
  rw [List.append_assoc]
  exact h.isWord.not_leader _

-- A single name in parentheses is an expression, and several ones are none.
theorem bare_refused (h : Identifier p.name) (ps : List Symbol) (b : List Char) :
    plain.Refuses I (header bare p ps ++ ("=>".toList ++ b)) := by
  have start := punctuated_header bare p ps ("=>".toList ++ b)
  have first : Significant (p.name.toList ++ (furtherItems bare ps ++ (')' :: ' ' ::
      ("=>".toList ++ b)))) := h.isWord.significant _
  have inner := expression_halts_name (I := I) h (follows_first bare ps (' ' :: ("=>".toList ++ b)))
  cases ps with
  | nil =>
    have inner : whole.expression.Halts I p.name.toList ([')', ' '] ++ ("=>".toList ++ b)) := inner
    have opening : (symbol "(").Takes I ['('] "(" (p.name.toList ++ ([')', ' '] ++
        ("=>".toList ++ b))) := symbol_takes "(" .none first
    have closing : (symbol ")").Takes I [')', ' '] ")" ("=>".toList ++ b) :=
      symbol_takes ")" .space (significant_arrow b)
    have parens := opening.halts.between inner closing.halts
    refine plain_refuses b start.not_leader (primary_halts_parens start ?_)
    simpa [header, bare, furtherItems, parenthesized] using parens
  | cons q qs =>
    have parens := parens_refuse_open inner first (by simp [furtherItems])
    refine Refuses.notFollowedBy (nonAssignmentOver_refuses start.not_leader ?_) _
    refine start.primary_refuses ?_
    simpa [header, bare, parenthesized] using parens

theorem typed_refused (usual : ∀ s, I s → Usual namespaces s)
    (standard : ∀ s, I s → s.builder = .standard) (named : Identifier p.name)
    (nameable : p.ty.Nameable) (ps : List Symbol) (b : List Char) :
    plain.Refuses I (header typed p ps ++ ("=>".toList ++ b)) := by
  have start := punctuated_header typed p ps ("=>".toList ++ b)
  have parens := parenthesized_refuses_type usual standard (typeStart_of_nameable nameable)
    named.isWord (furtherItems typed ps ++ ([')', ' '] ++ ("=>".toList ++ b)))
  refine Refuses.notFollowedBy (nonAssignmentOver_refuses start.not_leader ?_) _
  refine start.primary_refuses ?_
  simpa [header, typed] using parens

end Refused

section Declared

def declared (s : Scope) (ps : List Symbol) : Option (List Symbol) :=
  ps.mapM fun p => (s.builder.declare p.name p.ty).toOption

theorem typeName_halts_name (h : Identifier name) (closed : Follows 0 rest) :
    typeName.Halts I name.toList rest := by
  have args : (typeArguments typeName).Refuses I rest :=
    (symbol_refuses (Opening.absent (by decide) closed)).between _ _
  have rank : (symbol "[" <* symbol "]").Refuses I rest :=
    (symbol_refuses (Opening.absent (by decide) closed)).seqLeft _
  have predefined : predefinedType.Refuses I (name.toList ++ rest) :=
    predefinedType_refuses_identifier h closed.ends.apart
  have read := (path_takes_name (I := I) h closed.behind).pair args.optional
  rw [List.append_nil, List.append_nil] at read
  have named : (namedType typeName).Halts I name.toList rest := read.halts.filterMapState _
  have halted := (predefined.halts.orElse named).manyFold rank fun t _ => Ty.array t
  exact fun c hc r mem => halted c hc r (typeName_whole hc.valid ▸ mem)

theorem explicitParameters_refuse_bare (h : Identifier p.name) (ps : List Symbol)
    (rest : List Char) : explicitParameters.Refuses I (header bare p ps ++ rest) := by
  have closed := follows_first bare ps (' ' :: rest)
  have first := h.isWord.significant (furtherItems bare ps ++ (')' :: ' ' :: rest))
  have item := (typeName_halts_name (I := I) h closed).pair_refuses
    closed.punctuated.identifier_refuses
  have list := (item.separatedBy (symbol ",")).optional
  have refused := parens_refuse_open list.halts first
    (h.isWord.not_mem_head (by decide) (furtherItems bare ps ++ (')' :: ' ' :: rest)))
  unfold explicitParameters
  refine Refuses.filterMapState ?_ _
  simpa [header, bare] using refused

theorem implicitParameters_refuse_typed (nameable : p.ty.Nameable) (named : Identifier p.name)
    (ps : List Symbol) (rest : List Char) :
    implicitParameters.Refuses I (header typed p ps ++ rest) := by
  have one : identifier.Refuses I (header typed p ps ++ rest) :=
    (punctuated_header typed p ps rest).identifier_refuses
  have keyword (q : Primitive) (gap rest : List Char) (behind : Behind gap rest) :
      (identifier.separatedBy (symbol ",")).Refuses I (q.keyword.toList ++ (gap ++ rest)) :=
    (identifier_refuses_keyword (keyword_reserved q) behind.apart).separatedBy _
  have qualified (text : List Char) :
      (identifier.separatedBy (symbol ",")).Halts I "System".toList ('.' :: text) := by
    have first : identifier.Takes I "System".toList "System" ([] ++ '.' :: text) :=
      identifier_takes_namespace _
    have none : (symbol "," *> identifier).Refuses I ('.' :: text) :=
      (symbol_refuses (by simp)).seqRight _
    have read := TakesAll.separatedBy first (.nil none)
    rw [List.append_nil] at read
    exact read.halts
  have several := parens_refuse_type (typeStart_of_nameable nameable) named.isWord keyword
    (fun name gap rest _ _ _ _ => qualified (name.toList ++ gap ++ rest))
    (furtherItems typed ps ++ (')' :: ' ' :: rest))
  have text : header typed p ps ++ rest = '(' :: (p.ty.text.toList ++ ' ' :: (p.name.toList ++
      (furtherItems typed ps ++ (')' :: ' ' :: rest)))) := by
    simp [header, typed]
  rw [← text] at several
  unfold implicitParameters
  exact ((one.map _).orElse several).filterMapState _

theorem parameters_take {α : Type} {item : Rule α} {print : Symbol → List Char} {value : Symbol → α}
    (significant : ∀ q ∈ p :: ps, ∀ text, Significant (print q ++ text))
    (h : ∀ q ∈ p :: ps, ∀ text, Follows 0 text → item.Takes I (print q) (value q) text)
    (b : List Char) :
    (item.separatedBy (symbol ",")).Takes I (print p ++ furtherItems print ps)
      ((p :: ps).map value) ([')', ' '] ++ ("=>".toList ++ b)) := by
  have closed : Follows 0 ([')', ' '] ++ ("=>".toList ++ b)) := .closer (by decide) _
  exact items_take value (Follows 0) (.closer (by decide)) closed (by simp) significant h

theorem parens_take_header {α : Type} {inner : Rule α} {a : α} {print : Symbol → List Char}
    {b : List Char} (significant : ∀ text, Significant (print p ++ text))
    (h : inner.Takes I (print p ++ furtherItems print ps) a ([')', ' '] ++ ("=>".toList ++ b))) :
    (between (symbol "(") inner (symbol ")")).Takes I (header print p ps) a ("=>".toList ++ b) := by
  have opening : (symbol "(").Takes I ['('] "("
      (print p ++ furtherItems print ps ++ ([')', ' '] ++ ("=>".toList ++ b))) := by
    rw [List.append_assoc]
    exact symbol_takes "(" .none (significant _)
  have closing : (symbol ")").Takes I [')', ' '] ")" ("=>".toList ++ b) :=
    symbol_takes ")" .space (significant_arrow b)
  exact opening.between h closing

end Declared

-- The start of a lambda: it is no expression, and it reads as these parameters.
structure Heads (s : Scope) (t : List Char) (params : Option (List Symbol)) : Prop where
  significant : ∀ rest, Significant (t ++ rest)
  refused     : ∀ b, plain.Refuses (· = s) (t ++ ("=>".toList ++ b))
  parses      : ∀ b c, c.At (· = s) (t ++ ("=>".toList ++ b)) →
    (explicitParameters <|> implicitParameters).parses c =
      (params.map (⟨·, c.drop t.length⟩)).toList

namespace Heads

variable {params : Option (List Symbol)}

theorem parameters_agree (h : Heads s t params) (h' : Heads s t' params) {b : List Char}
    {c c' : Cursor Scope} (hc : c.At (· = s) (t ++ ("=>".toList ++ b)))
    (hc' : c'.At (· = s) (t' ++ ("=>".toList ++ b))) :
    (explicitParameters <|> implicitParameters).Agrees (explicitParameters <|> implicitParameters)
      (fun d d' => d = c ∧ d' = c') (Below (Expecting Shifted) (c.remaining + 1) false) := by
  rintro _ _ ⟨rfl, rfl⟩
  rw [h.parses b _ hc, h'.parses b _ hc']
  cases params with
  | none => exact .nil
  | some params =>
    have shifted : Shifted false (_ : Cursor Scope) _ :=
      ⟨⟨hc.drop.valid, hc'.drop.valid⟩, hc.drop.rest.trans hc'.drop.rest.symm,
        hc.drop.state.trans hc'.drop.state.symm⟩
    refine .cons ⟨rfl, ⟨shifted, congrArg Scope.expected shifted.state⟩, ?_⟩ .nil
    exact Nat.lt_succ_of_le (Cursor.drop_remaining_le _ _)

theorem parses_expression (h : Heads s t params) {b : List Char} {c : Cursor Scope}
    (hc : c.At (· = s) (t ++ ("=>".toList ++ b))) :
    expression.parses c = ((lambdaOver whole).parses c).take 1 := by
  have refused : plain.parses c = [] := h.refused b c hc
  have parses : expression.parses c = (plain <|> lambdaOver whole).parses c :=
    parses_whole expressionOver_descends hc.valid
  rw [parses, parses_orElse, refused, List.nil_append]

theorem expression_agrees (h : Heads s t params) (h' : Heads s t' params) (b : List Char) :
    expression.Agrees expression
      (fun c c' => c.At (· = s) (t ++ ("=>".toList ++ b)) ∧ c'.At (· = s) (t' ++ ("=>".toList ++ b)))
      (Shifted false) := by
  intro c c' ⟨hc, hc'⟩
  have whole := Nested.whole_paced shifted_lockstep c.remaining
  have lambda := lambdaOver_agrees_parameters shifted_lockstep whole (h.parameters_agree h' hc hc')
    c c' ⟨rfl, rfl⟩
  rw [h.parses_expression hc, h'.parses_expression hc']
  exact (List.forall₂_take 1 lambda).imp fun _ _ hr => ⟨hr.value, hr.tail.1⟩

theorem parse_eq (h : Heads s t params) (h' : Heads s t' params) (b : String) :
    parseExpression (String.ofList t ++ ("=>" ++ b)) s =
      parseExpression (String.ofList t' ++ ("=>" ++ b)) s := by
  have start (t : List Char) : (Cursor.start (String.ofList t ++ ("=>" ++ b)) s).At (· = s)
      (t ++ ("=>".toList ++ b.toList)) :=
    ⟨Cursor.start_valid _ s, rfl, by simp [Cursor.start]⟩
  have nothing {t : List Char} (h : Heads s t params) {c : Cursor Scope}
      (hc : c.At (· = s) (t ++ ("=>".toList ++ b.toList))) : whitespace.parses c = [⟨(), c⟩] := by
    have read := whitespace_takes .none (h.significant _) c hc
    simpa using read
  have unit : expressionUnit.Agrees expressionUnit (fun c c' =>
      c.At (· = s) (t ++ ("=>".toList ++ b.toList)) ∧
        c'.At (· = s) (t' ++ ("=>".toList ++ b.toList))) (Shifted false) := by
    refine Agrees.seqLeft (.seqRight ?_ (h.expression_agrees h' b.toList))
      (endOfInput_respects shifted_lockstep false)
    rintro c c' ⟨hc, hc'⟩
    rw [nothing h hc, nothing h' hc']
    exact .cons ⟨rfl, hc, hc'⟩ .nil
  exact unit.outcome ⟨start t, start t'⟩

end Heads

section Spellings

theorem bare_takes (named : Identifier p.name) (closed : Follows 0 rest) :
    identifier.Takes I (bare p) p.name rest := by
  have name := name_takes (I := I) named closed.behind
  rwa [List.append_nil] at name

theorem typed_takes (usual : Usual namespaces s) (named : Identifier p.name)
    (nameable : p.ty.Nameable) (closed : Follows 0 rest) :
    (typeName.pair identifier).Takes (· = s) (typed p) (p.ty, p.name) rest := by
  have behind := named.isWord.behind_space rest
  have spelled : Spelled namespaces p.ty := spelled_of_nameable nameable
  have type := (spelled.takes_gap behind (named.isWord.not_mem_head (by decide) rest)
    (named.isWord.not_mem_head (by decide) rest)).mono (I := (· = s)) fun s' hs => hs ▸ usual
  simpa [typed] using type.pair (bare_takes named closed)

theorem significant_header (print : Symbol → List Char) (p : Symbol) (ps : List Symbol)
    (rest : List Char) : Significant (header print p ps ++ rest) :=
  significant_cons (by decide) (by decide) _

theorem heads_typed (usual : Usual namespaces s) (standard : s.builder = .standard)
    (named : ∀ q ∈ p :: ps, Identifier q.name) (nameable : ∀ q ∈ p :: ps, q.ty.Nameable) :
    Heads s (header typed p ps) (declared s (p :: ps)) where
  significant := significant_header typed p ps
  refused := by
    have usual : ∀ s', s' = s → Usual namespaces s' := fun _ hs => hs ▸ usual
    exact typed_refused usual (fun _ hs => hs ▸ standard) (named p List.mem_cons_self)
      (nameable p List.mem_cons_self) ps
  parses b c hc := by
    have significant : ∀ q ∈ p :: ps, ∀ text, Significant (typed q ++ text) := by
      intro q mem text
      have spelled : Spelled namespaces q.ty := spelled_of_nameable (nameable q mem)
      rw [typed, List.append_assoc]
      exact spelled.significant _
    have list := parameters_take significant
      (fun q mem text => typed_takes usual (named q mem) (nameable q mem)) b
    have parens := parens_take_header (significant p List.mem_cons_self) list.optional
    have explicit : explicitParameters.parses c =
        ((declared s (p :: ps)).map (⟨·, c.drop (header typed p ps).length⟩)).toList := by
      unfold explicitParameters
      refine parens.filterMapState_parses (fun s' hs => ?_) hc
      rw [hs]
      exact List.mapM_map
    rw [parses_orElse, explicit, implicitParameters_refuse_typed
      (nameable p List.mem_cons_self) (named p List.mem_cons_self) ps _ c hc, List.append_nil]
    exact List.take_of_length_le (Option.length_toList_le)

def parameterNames : Rule (List String) :=
  (fun name => [name]) <$> identifier <|>
    between (symbol "(") (identifier.separatedBy (symbol ",")) (symbol ")")

theorem parameterNames_take (named : ∀ q ∈ p :: ps, Identifier q.name) (b : List Char) :
    parameterNames.Takes I (header bare p ps) ((p :: ps).map (·.name)) ("=>".toList ++ b) := by
  have one : identifier.Refuses I (header bare p ps ++ ("=>".toList ++ b)) :=
    (punctuated_header bare p ps _).identifier_refuses
  have significant : ∀ q ∈ p :: ps, ∀ text, Significant (bare q ++ text) :=
    fun q mem => (named q mem).isWord.significant
  have list := parameters_take (I := I) significant (fun q mem text => bare_takes (named q mem)) b
  exact (one.map _).orElse_takes (parens_take_header (significant p List.mem_cons_self) list)

section Untyped

variable {D : Ty} {sig : Ty.Signature} (expected : s.expected = some D)
  (signature : D.signature? = some sig)

include expected signature

theorem implicitParameters_parses (params : sig.params = ps.map (·.ty))
    (names : parameterNames.Takes (· = s) t (ps.map (·.name)) rest) {c : Cursor Scope}
    (hc : c.At (· = s) (t ++ rest)) :
    implicitParameters.parses c = ((declared s ps).map (⟨·, c.drop t.length⟩)).toList := by
  unfold implicitParameters
  refine names.filterMapState_parses (fun s' hs => ?_) hc
  simp only [hs, expected, signature, Option.bind_eq_bind, Option.bind_some, params,
    List.length_map, if_true]
  rw [List.zip_map', List.mapM_map]
  rfl

theorem parameters_parse (params : sig.params = ps.map (·.ty))
    (explicit : explicitParameters.Refuses (· = s) (t ++ rest))
    (names : parameterNames.Takes (· = s) t (ps.map (·.name)) rest) {c : Cursor Scope}
    (hc : c.At (· = s) (t ++ rest)) :
    (explicitParameters <|> implicitParameters).parses c =
      ((declared s ps).map (⟨·, c.drop t.length⟩)).toList := by
  rw [parses_orElse, explicit c hc, List.nil_append,
    implicitParameters_parses expected signature params names hc]
  exact List.take_of_length_le Option.length_toList_le

theorem heads_bare (params : sig.params = (p :: ps).map (·.ty))
    (named : ∀ q ∈ p :: ps, Identifier q.name) :
    Heads s (header bare p ps) (declared s (p :: ps)) where
  significant := significant_header bare p ps
  refused := bare_refused (named p List.mem_cons_self) ps
  parses b _ hc := parameters_parse expected signature params
    (explicitParameters_refuse_bare (named p List.mem_cons_self) ps _) (parameterNames_take named b)
    hc

theorem heads_name (params : sig.params = [p].map (·.ty)) (named : Identifier p.name) :
    Heads s (p.name.toList ++ [' ']) (declared s [p]) where
  significant rest := by
    rw [List.append_assoc]
    exact named.isWord.significant _
  refused := name_refused named
  parses b c hc := by
    have explicit : explicitParameters.Refuses (· = s) (p.name.toList ++ [' '] ++
        ("=>".toList ++ b)) := by
      have opening := named.isWord.symbol_refuses (I := (· = s)) (s := "(") rfl
        ([' '] ++ ("=>".toList ++ b)) (by decide)
      rw [List.append_assoc]
      unfold explicitParameters
      exact (opening.between _ _).filterMapState _
    have one := (name_takes (I := (· = s)) named (behind_arrow b)).map fun name => [name]
    exact parameters_parse expected signature params explicit (one.orElse_left _) hc

end Untyped

end Spellings

section Written

def lambdaText (params : List String) (body : String) : String :=
  "(" ++ ", ".intercalate params ++ ") => " ++ body

theorem toList_intercalate (f : Symbol → String) (p : Symbol) (ps : List Symbol) :
    (", ".intercalate ((p :: ps).map f)).toList =
      (f p).toList ++ furtherItems (fun p => (f p).toList) ps := by
  induction ps generalizing p with
  | nil => simp [furtherItems]
  | cons q qs ih =>
    have others := ih q
    rw [List.map_cons] at others
    rw [List.map_cons, List.map_cons, String.intercalate_cons_cons, String.toList_append, others]
    simp [furtherItems]

theorem lambdaText_split (f : Symbol → String) (p : Symbol) (ps : List Symbol) (body : String) :
    lambdaText ((p :: ps).map f) body =
      String.ofList (header (fun p => (f p).toList) p ps) ++ ("=>" ++ (" " ++ body)) := by
  apply String.toList_inj.mp
  simp only [lambdaText, String.toList_append, toList_intercalate, String.toList_ofList, header]
  simp

theorem exists_symbols {names : List String} {types : List Ty}
    (same : names.length = types.length) :
    ∃ ps : List Symbol, names = ps.map (·.name) ∧ types = ps.map (·.ty) := by
  refine ⟨(names.zip types).map fun entry => ⟨entry.1, entry.2⟩, ?_, ?_⟩
  · simp [Function.comp_def, List.map_fst_zip, same.le]
  · simp [Function.comp_def, List.map_snd_zip, same.ge]

end Written

end Grammar

open Grammar (Identifier lambdaText typeName)

-- Where a delegate type is expected whose parameters have types with a name, a lambda comes to the
-- same outcome with these types in front of the names of its parameters and without them, and a
-- single name needs no parentheses.
theorem lambda_spellings_agree {namespaces : List String} {s : Scope}
    (usual : s.resolver = (namespaces.foldl Registry.withNamespace .system).resolve)
    (standard : s.builder = .standard) {D : Ty} (expected : s.expected = some D)
    {sig : Ty.Signature} (signature : D.signature? = some sig)
    (nameable : ∀ t ∈ sig.params, ∃ c : Cursor Scope, c.state.resolver = s.resolver ∧
      ∃ r ∈ typeName.parses c, r.value = t)
    {names : List String} (some : names ≠ []) (arity : names.length = sig.params.length)
    (named : ∀ name ∈ names, Identifier name) (body : String) :
    let typed := sig.params.zipWith (fun t name => t.text ++ " " ++ name) names
    parseExpression (lambdaText names body) s = parseExpression (lambdaText typed body) s ∧
      ∀ name, names = [name] →
        parseExpression (name ++ " => " ++ body) s = parseExpression (lambdaText names body) s := by
  intro typed
  obtain ⟨ps, rfl, params⟩ := Grammar.exists_symbols arity
  have named : ∀ p ∈ ps, Identifier p.name := fun p mem => named _ (List.mem_map_of_mem mem)
  have nameable : ∀ p ∈ ps, p.ty.Nameable := by
    intro p mem
    have ⟨c, same, r, read, eq⟩ := nameable p.ty (params ▸ List.mem_map_of_mem mem)
    exact eq ▸ (Grammar.typeName_nameable c (same.trans usual) r read).1
  have spelled : typed = ps.map fun p => p.ty.text ++ " " ++ p.name := by
    simp [typed, params, List.zipWith_map]
  rw [spelled]
  cases ps with
  | nil => exact absurd rfl some
  | cons p ps =>
    have bare := Grammar.heads_bare expected signature params named
    have typed := Grammar.heads_typed usual standard named nameable
    have print : (fun p : Symbol => (p.ty.text ++ " " ++ p.name).toList) = Grammar.typed := by
      funext p
      simp [Grammar.typed]
    have split (f : Symbol → String) := Grammar.lambdaText_split f p ps body
    constructor
    case left =>
      rw [split, split, print]
      exact bare.parse_eq typed (" " ++ body)
    case right =>
      intro name single
      obtain ⟨rfl, none⟩ := List.cons.inj single
      obtain rfl := List.map_eq_nil_iff.mp none
      have single := Grammar.heads_name expected signature params (named p List.mem_cons_self)
      have text : p.name ++ " => " ++ body =
          String.ofList (p.name.toList ++ [' ']) ++ ("=>" ++ (" " ++ body)) := by
        apply String.toList_inj.mp
        simp
      rw [split, text]
      exact single.parse_eq bare (" " ++ body)

theorem lambda_spellings_agree_nested :
    let s := ((Scope.new Registry.system.resolve .standard).withSymbol ⟨"x", .string⟩).withExpected
      (some (Ty.delegate [.int] (Ty.delegate [.int] .int)))
    (parseExpression "x => y => x + y" s).isOk ∧
      parseExpression "(x) => y => x + y" s = parseExpression "(int x) => y => x + y" s ∧
      parseExpression "x => y => x + y" s = parseExpression "(x) => y => x + y" s := by
  intro s
  have signature : (Ty.delegate [.int] (Ty.delegate [.int] .int)).signature? =
      some ⟨[.int], Ty.delegate [.int] .int⟩ := by
    decide
  have nameable : ∀ t ∈ [Ty.int], ∃ c : Cursor Scope, c.state.resolver = s.resolver ∧
      ∃ r ∈ typeName.parses c, r.value = t := by
    rw [List.forall_mem_singleton]
    exact ⟨.start "int" s, rfl, List.mem_map.mp (by decide +kernel)⟩
  have usual : s.resolver =
      (([] : List String).foldl Registry.withNamespace Registry.system).resolve := rfl
  have agree := lambda_spellings_agree usual rfl rfl signature nameable (List.cons_ne_nil "x" []) rfl
    (by decide) "y => x + y"
  exact ⟨by decide +kernel, agree.1, agree.2 "x" rfl⟩

end ExprTree
