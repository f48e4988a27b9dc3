import ExprTree.Grammar.Expression
import ExprTree.Proofs.Parser.Moves

namespace ExprTree.Grammar

open ExprTree.Parser

section Token

theorem skipMany_moves {α : Type} {p : Rule α} (h : p.Moves) : (skipMany p).Moves :=
  h.manyFold _ _

theorem lineComment_moves : lineComment.Moves :=
  (text_moves _).seqRight (skipMany_moves (satisfy_moves _))

theorem blockComment_moves : blockComment.Moves := by
  have nothing : (pure () : Rule Unit).Moves := pure_moves ()
  have inner := (nothing.notFollowedBy (text "*/")).seqRight (satisfy_moves fun _ => true)
  exact ((text_moves _).seqRight (skipMany_moves inner)).seqLeft (text_moves _)

theorem whitespace_moves : whitespace.Moves :=
  skipMany_moves (((satisfy_moves _).map _).orElse (lineComment_moves.orElse blockComment_moves))

theorem token_moves {α : Type} {p : Rule α} (h : p.Moves) : (token p).Moves :=
  h.seqLeft whitespace_moves

theorem symbol_moves (s : String) : (symbol s).Moves :=
  token_moves (text_moves s)

theorem operator_moves (s : String) (notBefore : List Char) : (operator s notBefore).Moves :=
  token_moves ((text_moves s).notFollowedBy _)

theorem keyword_moves (word : String) : (keyword word).Moves :=
  token_moves ((text_moves word).notFollowedBy _)

theorem word_moves : word.Moves :=
  (satisfy_moves _).bind fun _ => ((satisfy_moves _).atLeast 0).bind fun _ => pure_moves _

theorem identifier_moves : identifier.Moves :=
  token_moves (word_moves.except _)

end Token

section Literal

theorem digits_moves : digits.Moves :=
  (satisfy_moves _).atLeast 1

theorem hexDigits_moves : hexDigits.Moves :=
  (satisfy_moves _).atLeast 1

theorem integerSuffix_moves : integerSuffix.Moves := by
  refine .oneOf fun p mem => ?_
  simp only [List.mem_cons, List.not_mem_nil, or_false] at mem
  rcases mem with rfl | rfl | rfl | rfl <;> exact (textIgnoringCase_moves _).map _

theorem word64_moves {p : Rule (List Char)} (base : Nat) (h : p.Moves) : (word64 base p).Moves :=
  h.filterMap _

theorem integer_moves : integer.Moves := by
  have hexadecimal := (textIgnoringCase_moves "0x").seqRight (word64_moves 16 hexDigits_moves)
  have value := hexadecimal.orElse (word64_moves 10 digits_moves)
  exact token_moves (((value.pair integerSuffix_moves.optional).map _).notFollowedBy _)

theorem realSuffix_moves : realSuffix.Moves := by
  refine .oneOf fun p mem => ?_
  simp only [List.mem_cons, List.not_mem_nil, or_false] at mem
  rcases mem with rfl | rfl | rfl <;> exact (textIgnoringCase_moves _).map _

theorem exponent_moves : exponent.Moves := by
  have marker := (satisfy_moves (σ := Scope) (· == 'e')).orElse (satisfy_moves (· == 'E'))
  have sign := ((satisfy_moves (σ := Scope) (· == '+')).orElse (satisfy_moves (· == '-'))).optional
  unfold exponent
  exact (marker.seqRight (sign.pair digits_moves)).filterMap _

theorem realParts_moves : realParts.Moves :=
  digits_moves.optional.bind fun _ =>
    ((satisfy_moves _).seqRight digits_moves).optional.bind fun _ =>
      exponent_moves.optional.bind fun _ => realSuffix_moves.optional.bind fun _ => pure_moves _

theorem real_moves : real.Moves :=
  token_moves (((realParts_moves.filter _).filterMap _).notFollowedBy _)

theorem boolean_moves : boolean.Moves :=
  ((keyword_moves _).map _).orElse ((keyword_moves _).map _)

theorem null_moves : null.Moves :=
  (keyword_moves _).map _

theorem codePoint_moves (min max : Nat) : (codePoint min max).Moves := by
  unfold codePoint
  exact ((satisfy_moves _).repeated _ _ _ _).filterMap _

theorem escapeSequence_moves : escapeSequence.Moves := by
  refine (satisfy_moves _).seqRight (.oneOf fun p mem => ?_)
  simp only [List.mem_cons, List.not_mem_nil, or_false] at mem
  rcases mem with rfl | rfl | rfl | rfl
  · exact (satisfy_moves _).filterMap _
  all_goals exact (satisfy_moves _).seqRight (codePoint_moves _ _)

theorem plainCharacter_moves (quote : Char) : (plainCharacter quote).Moves :=
  satisfy_moves _

theorem characterLiteral_moves : characterLiteral.Moves := by
  have inner := escapeSequence_moves.orElse (plainCharacter_moves '\x27')
  exact (token_moves ((satisfy_moves _).between inner (satisfy_moves _))).map _

theorem regularString_moves : regularString.Moves := by
  have inner := (escapeSequence_moves.orElse (plainCharacter_moves '\x22')).atLeast 0
  exact ((satisfy_moves _).between inner (satisfy_moves _)).map _

theorem verbatimString_moves : verbatimString.Moves := by
  have doubled := (text_moves (σ := Scope) "\"\"").map fun _ => '\x22'
  have inner := (doubled.orElse (satisfy_moves (· != '\x22'))).atLeast 0
  exact ((text_moves _).between inner (satisfy_moves _)).map _

theorem stringLiteral_moves : stringLiteral.Moves :=
  (token_moves (regularString_moves.orElse verbatimString_moves)).map _

theorem literal_moves : literal.Moves := by
  refine .oneOf fun p mem => ?_
  simp only [List.mem_cons, List.not_mem_nil, or_false] at mem
  rcases mem with rfl | rfl | rfl | rfl | rfl | rfl
  · exact boolean_moves
  · exact null_moves
  · exact real_moves
  · exact integer_moves
  · exact characterLiteral_moves
  · exact stringLiteral_moves

end Literal

section TypeName

theorem predefinedType_moves : predefinedType.Moves := by
  refine .oneOf fun p mem => ?_
  have ⟨_, _, eq⟩ := List.mem_map.mp mem
  exact eq ▸ (keyword_moves _).map _

theorem path_moves : path.Moves :=
  identifier_moves.separatedBy (symbol_moves ".")

theorem namedType_moves {inner : Rule Ty} (h : inner.Moves) : (namedType inner).Moves := by
  have args := (symbol_moves "<").between (h.separatedBy (symbol_moves ",")) (symbol_moves ">")
  exact (path_moves.pair args.optional).filterMapState _

theorem typeNameOver_moves {inner : Rule Ty} (h : inner.Moves) : (typeNameOver inner).Moves :=
  (predefinedType_moves.orElse (namedType_moves h)).bind fun _ =>
    ((symbol_moves "[").seqLeft (symbol_moves "]")).manyFold _ _

theorem typeNameAt_moves : (depth : Nat) → (typeNameAt depth).Moves
  | 0 => fail_moves
  | depth + 1 => typeNameOver_moves (typeNameAt_moves depth)

theorem typeName_moves : typeName.Moves := by
  intro c r mem
  rw [parses_typeName] at mem
  exact typeNameAt_moves _ c r mem

end TypeName

section Operator

theorem OperatorToken.rule_moves (t : OperatorToken) : t.rule.Moves :=
  (operator_moves _ _).filterMapState _

theorem tierOperator_moves (tier : List OperatorToken) : (tierOperator tier).Moves := by
  refine .oneOf fun rule mem => ?_
  have ⟨t, _, eq⟩ := List.mem_map.mp mem
  exact eq ▸ t.rule_moves

theorem foldl_chainLeft_moves {operand : Rule Expr} (h : operand.Moves) :
    (tiers : List (List OperatorToken)) → ((tiers.map tierOperator).foldl chainLeft operand).Moves
  | [] => h
  | tier :: tiers => foldl_chainLeft_moves (h.chainLeft (tierOperator_moves tier)) tiers

theorem binaryChain_moves {operand : Rule Expr} (h : operand.Moves) : (binaryChain operand).Moves :=
  (foldl_chainLeft_moves h tiers).chainRight (OperatorToken.rule_moves _)

theorem leadingOperator_moves : leadingOperator.Moves := by
  refine .oneOf fun p mem => ?_
  simp only [List.mem_cons, List.not_mem_nil, or_false] at mem
  rcases mem with rfl | rfl | rfl | rfl | rfl | rfl <;> exact (operator_moves _ _).map _

theorem trailingOperator_moves : trailingOperator.Moves := by
  refine .oneOf fun p mem => ?_
  simp only [List.mem_cons, List.not_mem_nil, or_false] at mem
  rcases mem with rfl | rfl <;> exact (operator_moves _ _).map _

end Operator

section Simple

theorem variableUse_moves : variableUse.Moves :=
  identifier_moves.filterMapState _

theorem constant_moves : constant.Moves :=
  literal_moves.filterMapState _

theorem parenthesizedType_moves (word : String) : (parenthesizedType word).Moves :=
  (keyword_moves word).seqRight ((symbol_moves _).between typeName_moves (symbol_moves _))

theorem typeOf_moves : typeOf.Moves :=
  (parenthesizedType_moves _).filterMapState _

theorem defaultValue_moves : defaultValue.Moves :=
  (parenthesizedType_moves _).filterMapState _

theorem staticPath_moves : staticPath.Moves := by
  have keywordOwner := (predefinedType_moves.seqLeft (symbol_moves ".")).pair path_moves
  exact (keywordOwner.map _).orElse (path_moves.map _)

theorem explicitParameters_moves : explicitParameters.Moves := by
  have params := ((typeName_moves.pair identifier_moves).separatedBy (symbol_moves ",")).optional
  unfold explicitParameters
  exact ((symbol_moves _).between params (symbol_moves _)).filterMapState _

theorem implicitParameters_moves : implicitParameters.Moves := by
  have several := (symbol_moves "(").between (identifier_moves.separatedBy (symbol_moves ","))
    (symbol_moves ")")
  unfold implicitParameters
  exact ((identifier_moves.map _).orElse several).filterMapState _

theorem parameters_moves : (explicitParameters <|> implicitParameters).Moves :=
  explicitParameters_moves.orElse implicitParameters_moves

end Simple

end ExprTree.Grammar
