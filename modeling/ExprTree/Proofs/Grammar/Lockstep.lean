import ExprTree.Proofs.Grammar.Moves
import ExprTree.Proofs.Grammar.Tokens
import ExprTree.Proofs.Parser.Relates
import ExprTree.Proofs.Scope

namespace ExprTree.Grammar

open ExprTree.Parser

-- Cursors of two parses. Inside of a block, which the flag tells, they have declared the same
-- locals; where there is no block around them, that does not matter.
structure Lockstep (R : Bool → Cursor Scope → Cursor Scope → Prop) : Prop where
  valid      : ∀ {b c c'}, R b c c' → c.Valid ∧ c'.Valid
  rest       : ∀ {b c c'}, R b c c' → c.rest = c'.rest
  drop       : ∀ {b c c'}, R b c c' → ∀ n, R b (c.drop n) (c'.drop n)
  resolver   : ∀ {b c c'}, R b c c' → c.state.resolver = c'.state.resolver
  builder    : ∀ {b c c'}, R b c c' → c.state.builder = c'.state.builder
  lookup     : ∀ {b c c'}, R b c c' → ∀ name, Identifier name → name.toList <+: c.rest →
    c.state.lookup name = c'.state.lookup name
  expected   : ∀ {b c c'}, R b c c' → "=>".toList <:+: c.rest →
    c.state.expected = c'.state.expected
  expecting  : ∀ {b c c'}, R b c c' → ∀ expected,
    R b (c.withState (c.state.withExpected expected)) (c'.withState (c'.state.withExpected expected))
  enterBlock : ∀ {b c c'}, R b c c' →
    R true (c.withState c.state.enterBlock) (c'.withState c'.state.enterBlock)
  declare    : ∀ {c c'}, R true c c' → ∀ v,
    Option.Rel (fun s s' => R true (c.withState s) (c'.withState s'))
      (c.state.declare v) (c'.state.declare v)
  declared   : ∀ {c c'}, R true c c' → c.state.declared = c'.state.declared
  restore    : ∀ {b b' c c' t t'}, R b c c' → R b' t t' →
    R b (t.withState c.state) (t'.withState c'.state)

namespace Lockstep

variable {R : Bool → Cursor Scope → Cursor Scope → Prop}

theorem remaining_eq (h : Lockstep R) {b : Bool} (c c' : Cursor Scope) (hc : R b c c') :
    c.remaining = c'.remaining := by
  have ⟨valid, valid'⟩ := h.valid hc
  rw [valid.remaining_eq, valid'.remaining_eq, h.rest hc]

structure Lasting (P : Cursor Scope → Cursor Scope → Prop) : Prop where
  drop       : ∀ {c c'}, P c c' → ∀ n, P (c.drop n) (c'.drop n)
  expecting  : ∀ {c c'}, P c c' → ∀ expected,
    P (c.withState (c.state.withExpected expected)) (c'.withState (c'.state.withExpected expected))
  enterBlock : ∀ {c c'}, P c c' →
    P (c.withState c.state.enterBlock) (c'.withState c'.state.enterBlock)
  declare    : ∀ {c c' v s s'}, P c c' → c.state.declare v = some s → c'.state.declare v = some s' →
    P (c.withState s) (c'.withState s')
  restore    : ∀ {c c' t t'}, P c c' → P t t' → P (t.withState c.state) (t'.withState c'.state)

theorem and {P : Cursor Scope → Cursor Scope → Prop} (h : Lockstep R) (hP : Lasting P) :
    Lockstep fun b c c' => R b c c' ∧ P c c' where
  valid hc := h.valid hc.1
  rest hc := h.rest hc.1
  drop hc n := ⟨h.drop hc.1 n, hP.drop hc.2 n⟩
  resolver hc := h.resolver hc.1
  builder hc := h.builder hc.1
  lookup hc := h.lookup hc.1
  expected hc := h.expected hc.1
  expecting hc expected := ⟨h.expecting hc.1 expected, hP.expecting hc.2 expected⟩
  enterBlock hc := ⟨h.enterBlock hc.1, hP.enterBlock hc.2⟩
  declare {c c'} hc v := by
    rcases option_rel_iff.mp (h.declare hc.1 v) with ⟨eq, eq'⟩ | ⟨s, s', eq, eq', hs⟩
    · rw [eq, eq']
      exact .none
    · rw [eq, eq']
      exact .some ⟨hs, hP.declare hc.2 eq eq'⟩
  declared hc := h.declared hc.1
  restore hc ht := ⟨h.restore hc.1 ht.1, hP.restore hc.2 ht.2⟩

end Lockstep

def Below (R : Bool → Cursor Scope → Cursor Scope → Prop) (k : Nat) (b : Bool)
    (c c' : Cursor Scope) : Prop :=
  R b c c' ∧ c.remaining < k

def Expecting (R : Bool → Cursor Scope → Cursor Scope → Prop) (b : Bool)
    (c c' : Cursor Scope) : Prop :=
  R b c c' ∧ c.state.expected = c'.state.expected

namespace Lockstep

variable {R : Bool → Cursor Scope → Cursor Scope → Prop}

theorem below (h : Lockstep R) (k : Nat) : Lockstep (Below R k) := by
  refine h.and ⟨?_, fun hc _ => hc, id, fun hc _ _ => hc, fun _ ht => ht⟩
  exact fun hc n => Nat.lt_of_le_of_lt (Cursor.drop_remaining_le _ n) hc

theorem expecting_same (h : Lockstep R) : Lockstep (Expecting R) := by
  refine h.and ⟨fun hc _ => hc, fun _ _ => rfl, fun _ => rfl, ?_, fun hc _ => hc⟩
  intro c c' v s s' hc declared declared'
  rw [Scope.eq_of_declare declared, Scope.eq_of_declare declared']
  exact hc

end Lockstep

section Rules

variable {R : Bool → Cursor Scope → Cursor Scope → Prop} (h : Lockstep R) (b : Bool)

include h

section Primitive

theorem satisfy_respects (test : Char → Bool) : (satisfy test : Rule Char).Respects (R b) := by
  intro c c' hc
  rw [parses_satisfy, parses_satisfy, ← h.rest hc]
  split
  case h_1 => exact .nil
  case h_2 =>
    split
    case isTrue => exact .cons ⟨rfl, h.drop hc 1⟩ .nil
    case isFalse => exact .nil

theorem text_respects (s : String) : (text s : Rule String).Respects (R b) := by
  intro c c' hc
  rw [parses_text, parses_text, ← h.rest hc]
  split
  case isTrue => exact .cons ⟨rfl, h.drop hc s.length⟩ .nil
  case isFalse => exact .nil

theorem textIgnoringCase_respects (s : String) :
    (textIgnoringCase s : Rule String).Respects (R b) := by
  intro c c' hc
  rw [parses_textIgnoringCase, parses_textIgnoringCase, ← h.rest hc]
  split
  case isTrue => exact .cons ⟨rfl, h.drop hc s.length⟩ .nil
  case isFalse => exact .nil

theorem endOfInput_respects : (endOfInput : Rule Unit).Respects (R b) := by
  intro c c' hc
  rw [parses_endOfInput, parses_endOfInput, Cursor.isAtEnd, Cursor.isAtEnd, ← h.rest hc]
  split
  case isTrue => exact .cons ⟨rfl, hc⟩ .nil
  case isFalse => exact .nil

end Primitive

section Token

theorem skipMany_respects {α : Type} {p : Rule α} (hp : p.Respects (R b)) :
    (skipMany p).Respects (R b) :=
  hp.repetition h.remaining_eq _ _ _ _

theorem lineComment_respects : lineComment.Respects (R b) :=
  (text_respects h b _).seqRight (skipMany_respects h b (satisfy_respects h b _))

theorem blockComment_respects : blockComment.Respects (R b) := by
  have nothing : (pure () : Rule Unit).Respects (R b) := pure_agrees ()
  have inner := (nothing.notFollowedBy (text_respects h b "*/")).seqRight
    (satisfy_respects h b fun _ => true)
  have opened := (text_respects h b "/*").seqRight (skipMany_respects h b inner)
  exact opened.seqLeft (text_respects h b "*/")

theorem whitespace_respects : whitespace.Respects (R b) := by
  have blank := (satisfy_respects h b Text.isBlank).map fun _ => ()
  have comment := (lineComment_respects h b).orElse (blockComment_respects h b)
  exact skipMany_respects h b (blank.orElse comment)

theorem token_respects {α : Type} {p : Rule α} (hp : p.Respects (R b)) :
    (token p).Respects (R b) :=
  hp.seqLeft (whitespace_respects h b)

theorem symbol_respects (s : String) : (symbol s).Respects (R b) :=
  token_respects h b (text_respects h b s)

theorem operator_respects (s : String) (notBefore : List Char) :
    (operator s notBefore).Respects (R b) :=
  token_respects h b ((text_respects h b s).notFollowedBy (satisfy_respects h b _))

theorem keyword_respects (word : String) : (keyword word).Respects (R b) :=
  token_respects h b ((text_respects h b word).notFollowedBy (satisfy_respects h b _))

theorem word_respects : word.Respects (R b) := by
  refine (satisfy_respects h b _).bind fun first => ?_
  refine ((satisfy_respects h b _).atLeast h.remaining_eq 0).bind fun others => ?_
  exact pure_agrees _

theorem identifier_respects : identifier.Respects (R b) := by
  have reserved : (allOf (keywords.map text) : Rule String).Respects (R b) :=
    .allOf <| List.forall₂_same.mpr fun p mem => by
      have ⟨word, _, eq⟩ := List.mem_map.mp mem
      exact eq ▸ text_respects h b word
  exact token_respects h b ((word_respects h b).except reserved)

end Token

section Literal

theorem digits_respects : digits.Respects (R b) :=
  (satisfy_respects h b _).atLeast h.remaining_eq 1

theorem hexDigits_respects : hexDigits.Respects (R b) :=
  (satisfy_respects h b _).atLeast h.remaining_eq 1

theorem integerSuffix_respects : integerSuffix.Respects (R b) := by
  refine .oneOf <| List.forall₂_same.mpr fun p mem => ?_
  simp only [List.mem_cons, List.not_mem_nil, or_false] at mem
  rcases mem with rfl | rfl | rfl | rfl <;> exact (textIgnoringCase_respects h b _).map _

omit h in
theorem word64_respects {p : Rule (List Char)} (base : Nat) (hp : p.Respects (R b)) :
    (word64 base p).Respects (R b) :=
  hp.filterMap _

theorem integer_respects : integer.Respects (R b) := by
  have hexadecimal := (textIgnoringCase_respects h b "0x").seqRight
    (word64_respects b 16 (hexDigits_respects h b))
  have value := hexadecimal.orElse (word64_respects b 10 (digits_respects h b))
  have literal := value.pair (integerSuffix_respects h b).optional
  exact token_respects h b ((literal.map _).notFollowedBy (satisfy_respects h b _))

theorem realSuffix_respects : realSuffix.Respects (R b) := by
  refine .oneOf <| List.forall₂_same.mpr fun p mem => ?_
  simp only [List.mem_cons, List.not_mem_nil, or_false] at mem
  rcases mem with rfl | rfl | rfl <;> exact (textIgnoringCase_respects h b _).map _

theorem exponent_respects : exponent.Respects (R b) := by
  have marker := (satisfy_respects h b (· == 'e')).orElse (satisfy_respects h b (· == 'E'))
  have sign := (satisfy_respects h b (· == '+')).orElse (satisfy_respects h b (· == '-'))
  unfold exponent
  exact (marker.seqRight (sign.optional.pair (digits_respects h b))).filterMap _

theorem realParts_respects : realParts.Respects (R b) := by
  refine (digits_respects h b).optional.bind fun integral => ?_
  refine ((satisfy_respects h b _).seqRight (digits_respects h b)).optional.bind fun fraction => ?_
  refine (exponent_respects h b).optional.bind fun exponent => ?_
  exact (realSuffix_respects h b).optional.bind fun suffix => pure_agrees _

theorem real_respects : real.Respects (R b) := by
  have literal := ((realParts_respects h b).filter RealParts.isComplete).filterMap
    RealParts.literal?
  exact token_respects h b (literal.notFollowedBy (satisfy_respects h b _))

theorem codePoint_respects (min max : Nat) : (codePoint min max).Respects (R b) := by
  unfold codePoint
  exact ((satisfy_respects h b _).repetition h.remaining_eq _ _ _ _).filterMap _

theorem escapeSequence_respects : escapeSequence.Respects (R b) := by
  refine (satisfy_respects h b _).seqRight (.oneOf <| List.forall₂_same.mpr fun p mem => ?_)
  simp only [List.mem_cons, List.not_mem_nil, or_false] at mem
  rcases mem with rfl | rfl | rfl | rfl
  · exact (satisfy_respects h b _).filterMap _
  all_goals exact (satisfy_respects h b _).seqRight (codePoint_respects h b _ _)

theorem plainCharacter_respects (quote : Char) : (plainCharacter quote).Respects (R b) :=
  satisfy_respects h b _

theorem characterLiteral_respects : characterLiteral.Respects (R b) := by
  have quote := satisfy_respects h b (· == '\x27')
  have inner := (escapeSequence_respects h b).orElse (plainCharacter_respects h b '\x27')
  exact (token_respects h b (quote.between inner quote)).map _

theorem stringLiteral_respects : stringLiteral.Respects (R b) := by
  have quote := satisfy_respects h b (· == '\x22')
  have single := (escapeSequence_respects h b).orElse (plainCharacter_respects h b '\x22')
  have regular := (quote.between (single.atLeast h.remaining_eq 0) quote).map String.ofList
  have doubled := (text_respects h b "\"\"").map fun _ => '\x22'
  have inner := doubled.orElse (satisfy_respects h b (· != '\x22'))
  have opening := text_respects h b "@\""
  have verbatim := (opening.between (inner.atLeast h.remaining_eq 0) quote).map String.ofList
  exact (token_respects h b (regular.orElse verbatim)).map _

theorem literal_respects : literal.Respects (R b) := by
  refine .oneOf <| List.forall₂_same.mpr fun p mem => ?_
  simp only [List.mem_cons, List.not_mem_nil, or_false] at mem
  rcases mem with rfl | rfl | rfl | rfl | rfl | rfl
  · exact ((keyword_respects h b _).map _).orElse ((keyword_respects h b _).map _)
  · exact (keyword_respects h b _).map _
  · exact real_respects h b
  · exact integer_respects h b
  · exact characterLiteral_respects h b
  · exact stringLiteral_respects h b

end Literal

end Rules

end ExprTree.Grammar
