import ExprTree.Grammar.Unit
import ExprTree.Proofs.Parser.Unambiguous

namespace ExprTree.Grammar

open ExprTree.Parser

theorem skipMany_unambiguous {α : Type} {p : Rule α} (h : p.Unambiguous) :
    (skipMany p).Unambiguous :=
  h.manyFold _ _

theorem whitespace_unambiguous : whitespace.Unambiguous :=
  skipMany_unambiguous (orElse_unambiguous _ _)

theorem token_unambiguous {α : Type} {p : Rule α} (h : p.Unambiguous) : (token p).Unambiguous :=
  h.seqLeft whitespace_unambiguous

theorem symbol_unambiguous (s : String) : (symbol s).Unambiguous :=
  token_unambiguous (text_unambiguous s)

theorem operator_unambiguous (s : String) (notBefore : List Char) :
    (operator s notBefore).Unambiguous :=
  token_unambiguous ((text_unambiguous s).notFollowedBy _)

theorem keyword_unambiguous (word : String) : (keyword word).Unambiguous :=
  token_unambiguous ((text_unambiguous word).notFollowedBy _)

theorem word_unambiguous : word.Unambiguous :=
  (satisfy_unambiguous _).bind fun _ =>
    ((satisfy_unambiguous _).atLeast 0).bind fun _ => pure_unambiguous _

-- The keywords that a word starts with are read in several ways, but only to be left out.
theorem identifier_unambiguous : identifier.Unambiguous :=
  token_unambiguous (word_unambiguous.except _)

theorem boolean_unambiguous : boolean.Unambiguous :=
  orElse_unambiguous _ _

theorem null_unambiguous : null.Unambiguous :=
  (keyword_unambiguous _).map _

theorem integer_unambiguous : integer.Unambiguous := by
  have value := orElse_unambiguous (textIgnoringCase "0x" *> word64 16 hexDigits) (word64 10 digits)
  have literal := value.pair (optional_unambiguous integerSuffix)
  exact token_unambiguous ((literal.map _).notFollowedBy _)

theorem realParts_unambiguous : realParts.Unambiguous :=
  (optional_unambiguous _).bind fun _ => (optional_unambiguous _).bind fun _ =>
    (optional_unambiguous _).bind fun _ => (optional_unambiguous _).bind fun _ =>
      pure_unambiguous _

theorem real_unambiguous : real.Unambiguous :=
  token_unambiguous (((realParts_unambiguous.filter _).filterMap _).notFollowedBy _)

theorem characterLiteral_unambiguous : characterLiteral.Unambiguous := by
  have quoted := (satisfy_unambiguous (σ := Scope) (· == '\x27')).between
    (orElse_unambiguous escapeSequence (plainCharacter '\x27')) (satisfy_unambiguous (· == '\x27'))
  exact (token_unambiguous quoted).map _

theorem stringLiteral_unambiguous : stringLiteral.Unambiguous :=
  (token_unambiguous (orElse_unambiguous _ _)).map _

theorem literal_unambiguous : literal.Unambiguous :=
  oneOf_unambiguous _ _ _

theorem typeNameOver_unambiguous (inner : Rule Ty) : (typeNameOver inner).Unambiguous :=
  (orElse_unambiguous _ _).bind fun _ =>
    ((symbol_unambiguous "[").seqLeft (symbol_unambiguous "]")).manyFold _ _

theorem typeNameAt_unambiguous : (depth : Nat) → (typeNameAt depth).Unambiguous
  | 0 => fail_unambiguous
  | _ + 1 => typeNameOver_unambiguous _

theorem typeName_unambiguous : typeName.Unambiguous := by
  intro c
  rw [parses_typeName]
  exact typeNameAt_unambiguous _ c

theorem OperatorToken.rule_unambiguous (t : OperatorToken) : t.rule.Unambiguous :=
  (operator_unambiguous _ _).filterMapState _

theorem tierOperator_unambiguous (tier : List OperatorToken) : (tierOperator tier).Unambiguous := by
  refine .oneOf fun rule mem => ?_
  have ⟨t, _, eq⟩ := List.mem_map.mp mem
  exact eq ▸ t.rule_unambiguous

-- The induction is on the tiers, each of which chains the one that binds tighter.
theorem foldl_chainLeft_unambiguous {operand : Rule Expr} (h : operand.Unambiguous) :
    (tiers : List (List OperatorToken)) →
      ((tiers.map tierOperator).foldl chainLeft operand).Unambiguous
  | [] => h
  | tier :: tiers =>
    foldl_chainLeft_unambiguous (h.chainLeft (tierOperator_unambiguous tier)) tiers

theorem binaryChain_unambiguous {operand : Rule Expr} (h : operand.Unambiguous) :
    (binaryChain operand).Unambiguous :=
  (foldl_chainLeft_unambiguous h tiers).chainRight (OperatorToken.rule_unambiguous _)

theorem inBlock_unambiguous {statements : Rule (List Expr)} (h : statements.Unambiguous) :
    (inBlock statements).Unambiguous := by
  intro c
  rw [parses_inBlock]
  exact length_filterMap_le_one (h _)

section Over

variable (nested : Nested)

theorem unaryOver_unambiguous : (unaryOver nested).Unambiguous :=
  orElse_unambiguous _ _

theorem nonAssignmentOver_unambiguous : (nonAssignmentOver nested).Unambiguous :=
  (binaryChain_unambiguous (unaryOver_unambiguous nested)).bind fun _ => orElse_unambiguous _ _

theorem lambdaOver_unambiguous : (lambdaOver nested).Unambiguous := by
  have params := (orElse_unambiguous explicitParameters implicitParameters).seqLeft
    (symbol_unambiguous "=>")
  refine params.bind fun _ => getState_unambiguous.bind fun outer => ?_
  dsimp only
  split
  case h_1 => exact fail_unambiguous
  case h_2 inner _ =>
    have body := (setState_unambiguous inner).seqRight
      (orElse_unambiguous (blockOver nested) nested.expression)
    exact (body.seqLeft (setState_unambiguous outer)).filterMap _

theorem expressionOver_unambiguous : (expressionOver nested).Unambiguous :=
  orElse_unambiguous _ _

theorem declarationOver_unambiguous : (declarationOver nested).Unambiguous :=
  orElse_unambiguous _ _

theorem statementOver_unambiguous : (statementOver nested).Unambiguous :=
  oneOf_unambiguous _ _ _

variable {nested}

theorem blockOver_unambiguous (h : nested.statement.Unambiguous) :
    (blockOver nested).Unambiguous :=
  (symbol_unambiguous _).seqRight
    (inBlock_unambiguous (((h.atLeast 0).map _).seqLeft (symbol_unambiguous _)))

end Over

theorem Nested.at_statement_unambiguous (depth : Nat) :
    (Nested.at depth).statement.Unambiguous :=
  Nested.at_induction (P := fun nested => nested.statement.Unambiguous) fail_unambiguous
    (fun nested _ => statementOver_unambiguous nested) depth

theorem unbounded_unambiguous {α : Type} {rule : Nested → Rule α}
    (h : ∀ depth, (rule (Nested.at depth)).Unambiguous) : (unbounded rule).Unambiguous :=
  fun c => h c.remaining c

theorem expression_unambiguous : expression.Unambiguous :=
  unbounded_unambiguous fun _ => expressionOver_unambiguous _

theorem nonAssignment_unambiguous : nonAssignment.Unambiguous :=
  unbounded_unambiguous fun _ => nonAssignmentOver_unambiguous _

theorem lambda_unambiguous : lambda.Unambiguous :=
  unbounded_unambiguous fun _ => lambdaOver_unambiguous _

theorem declaration_unambiguous : declaration.Unambiguous :=
  unbounded_unambiguous fun _ => declarationOver_unambiguous _

theorem block_unambiguous : block.Unambiguous :=
  unbounded_unambiguous fun depth => blockOver_unambiguous (Nested.at_statement_unambiguous depth)

theorem statement_unambiguous : statement.Unambiguous :=
  unbounded_unambiguous fun _ => statementOver_unambiguous _

theorem expressionUnit_unambiguous : expressionUnit.Unambiguous :=
  (whitespace_unambiguous.seqRight expression_unambiguous).seqLeft endOfInput_unambiguous

theorem statementUnit_unambiguous : statementUnit.Unambiguous :=
  (whitespace_unambiguous.seqRight (orElse_unambiguous _ _)).seqLeft endOfInput_unambiguous

-- Every rule of the grammar has at most one parse at every cursor of every text and in every scope,
-- and so no text is refused for being ambiguous.
theorem rules_unambiguous :
    whitespace.Unambiguous ∧ identifier.Unambiguous ∧
    (∀ word, (keyword word).Unambiguous) ∧ (∀ s, (symbol s).Unambiguous) ∧
    (∀ s notBefore, (operator s notBefore).Unambiguous) ∧
    boolean.Unambiguous ∧ null.Unambiguous ∧ integer.Unambiguous ∧ real.Unambiguous ∧
    characterLiteral.Unambiguous ∧ stringLiteral.Unambiguous ∧ literal.Unambiguous ∧
    typeName.Unambiguous ∧
    expression.Unambiguous ∧ nonAssignment.Unambiguous ∧ lambda.Unambiguous ∧
    block.Unambiguous ∧ declaration.Unambiguous ∧ statement.Unambiguous ∧
    (∀ source scope, parseExpression source scope ≠ .error .ambiguous) ∧
    (∀ source scope, parseStatement source scope ≠ .error .ambiguous) := by
  refine ⟨whitespace_unambiguous, identifier_unambiguous, keyword_unambiguous, symbol_unambiguous,
    operator_unambiguous, boolean_unambiguous, null_unambiguous, integer_unambiguous,
    real_unambiguous, characterLiteral_unambiguous, stringLiteral_unambiguous, literal_unambiguous,
    typeName_unambiguous, expression_unambiguous, nonAssignment_unambiguous,
    lambda_unambiguous, block_unambiguous,
    declaration_unambiguous, statement_unambiguous, ?_, ?_⟩
  · exact expressionUnit_unambiguous.map_parse_ne_ambiguous _
  · exact statementUnit_unambiguous.map_parse_ne_ambiguous _

end ExprTree.Grammar
