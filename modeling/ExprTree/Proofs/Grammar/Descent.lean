import ExprTree.Builder.Standard
import ExprTree.Proofs.Grammar.Depth
import ExprTree.Proofs.Parser.Safety

namespace ExprTree.Grammar

open ExprTree.Parser

variable {α : Type} {b : Bool} {rule : Nested → Rule α}

def Beyond (c : Cursor Scope) (p p' : Rule α) : Prop :=
  ∀ t, c.Onward t → c.offset < t.offset → p.parses t = p'.parses t

structure Nested.Beyond (c : Cursor Scope) (nested nested' : Nested) : Prop where
  expression : Grammar.Beyond c nested.expression nested'.expression
  unary      : Grammar.Beyond c nested.unary nested'.unary
  statement  : Grammar.Beyond c nested.statement nested'.statement

structure Nested.Forward (nested : Nested) : Prop where
  expression : nested.expression.Forward
  unary      : nested.unary.Forward
  statement  : nested.statement.Forward

-- A rule that asks the nested rules for their parses at later places only.
def Guarded (rule : Nested → Rule α) : Prop :=
  ∀ c, c.Valid → ∀ nested nested', nested.Forward → Nested.Beyond c nested nested' →
    (rule nested).parses c = (rule nested').parses c

section Guarded

def Placed (source : String) (b : Bool) (c c' : Cursor Scope) : Prop :=
  Same b c c' ∧ c.source = source

theorem placed_lockstep (source : String) : Lockstep (Placed source) :=
  same_lockstep.and ⟨fun hc _ => hc, fun hc _ => hc, id, fun hc _ _ => hc, fun _ ht => ht⟩

theorem Beyond.agrees {c : Cursor Scope} {p p' : Rule α} (h : Beyond c p p') (forward : p.Forward) :
    p.Agrees p' (Below (Placed c.source) c.remaining b) (Below (Placed c.source) c.remaining b) := by
  rintro t _ ⟨⟨⟨rfl, valid⟩, source⟩, left⟩
  have later : c.offset < t.offset := by
    rw [Cursor.remaining, Cursor.remaining, source] at left
    omega
  rw [← h t ⟨source, valid, Nat.le_of_lt later⟩ later]
  refine List.forall₂_same.mpr fun r mem => ⟨rfl, ?_⟩
  have onward := forward t valid r mem
  exact ⟨⟨⟨rfl, onward.valid⟩, onward.source.trans source⟩,
    Nat.lt_of_le_of_lt onward.remaining_le left⟩

theorem eq_of_agrees {c : Cursor Scope} {p p' : Rule α} (valid : c.Valid)
    (h : p.Agrees p' (Below (Placed c.source) (c.remaining + 1) b)
      (Below (Placed c.source) (c.remaining + 1) b)) :
    p.parses c = p'.parses c :=
  eq_of_related (h c c ⟨⟨⟨rfl, valid⟩, rfl⟩, Nat.lt_succ_self _⟩) fun _ _ tail => tail.1.1.1

theorem Guarded.of_paces (h : ∀ source, Paces (Placed source) b rule) : Guarded rule := by
  intro c valid nested nested' forward beyond
  refine eq_of_agrees valid (h c.source _ _ _ ⟨fun _ => ?_, fun _ => ?_, ?_⟩)
  · exact beyond.expression.agrees forward.expression
  · exact beyond.unary.agrees forward.unary
  · exact beyond.statement.agrees forward.statement

theorem typeNameOver_guarded {c : Cursor Scope} (valid : c.Valid) {inner inner' : Rule Ty}
    (forward : inner.Forward) (beyond : Beyond c inner inner') :
    (typeNameOver inner).parses c = (typeNameOver inner').parses c :=
  eq_of_agrees (b := true) valid
    (typeNameOver_agrees (placed_lockstep c.source) (beyond.agrees forward))

end Guarded

section Forward

theorem forward_of_moves {p : Rule α} (h : p.Moves) : p.Forward :=
  forward_iff.mpr h.onward

theorem forward_of_declaring {p : Rule α} (h : Declaring p) : p.Forward := by
  intro c valid r mem
  have ⟨_, introduced⟩ := h c r mem
  have ⟨n, moved⟩ := introduced.leads c.state
  exact Cursor.Onward.withState_iff.mp (moved ▸ (Cursor.Onward.refl valid).drop n)

theorem Nested.Frames.forward {nested : Nested} (h : nested.Frames) : nested.Forward :=
  ⟨forward_of_moves h.expression, forward_of_moves h.unary, forward_of_declaring h.statement⟩

theorem unbounded_moves (h : ∀ nested : Nested, nested.Frames → (rule nested).Moves) :
    (unbounded rule).Moves := by
  intro c r mem
  rw [parses_unbounded] at mem
  exact h _ (Nested.frames_at c.remaining) c r mem

theorem Nested.frames_whole : Nested.whole.Frames where
  expression := unbounded_moves fun _ => expressionOver_moves
  unary      := unbounded_moves fun _ => unaryOver_moves
  statement  := statement_declaring

end Forward

section Solution

structure Nested.Solves (nested : Nested) : Prop where
  expression : ∀ c, c.Valid → nested.expression.parses c = (expressionOver nested).parses c
  unary      : ∀ c, c.Valid → nested.unary.parses c = (unaryOver nested).parses c
  statement  : ∀ c, c.Valid → nested.statement.parses c = (statementOver nested).parses c

theorem Nested.solves_whole : Nested.whole.Solves where
  expression _ := parses_whole expressionOver_descends
  unary _ := parses_whole unaryOver_descends
  statement _ := parses_whole statementOver_descends

theorem expressionOver_guarded : Guarded expressionOver :=
  .of_paces (b := true) fun source _ _ _ => expressionOver_agrees (placed_lockstep source)

theorem unaryOver_guarded : Guarded unaryOver :=
  .of_paces (b := true) fun source _ _ _ => unaryOver_agrees (placed_lockstep source)

theorem statementOver_guarded : Guarded statementOver :=
  .of_paces fun source _ _ _ => statementOver_agrees (placed_lockstep source)

theorem Nested.Solves.unique {nested nested' : Nested} (forward : nested.Forward)
    (h : nested.Solves) (h' : nested'.Solves) {c : Cursor Scope} (valid : c.Valid) :
    nested.expression.parses c = nested'.expression.parses c ∧
      nested.unary.parses c = nested'.unary.parses c ∧
        nested.statement.parses c = nested'.statement.parses c := by
  -- What the rules find at a cursor is settled by what they find behind it.
  induction left : c.remaining using Nat.strongRecOn generalizing c with
  | ind n ih =>
    have less {t : Cursor Scope} (onward : c.Onward t) (later : c.offset < t.offset) :
        t.remaining < n := by
      have := onward.offset_le
      rw [← left, Cursor.remaining, Cursor.remaining, onward.source]
      omega
    have beyond : Nested.Beyond c nested nested' :=
      { expression := fun t onward later => (ih _ (less onward later) onward.valid rfl).1
        unary      := fun t onward later => (ih _ (less onward later) onward.valid rfl).2.1
        statement  := fun t onward later => (ih _ (less onward later) onward.valid rfl).2.2 }
    rw [h.expression c valid, h.unary c valid, h.statement c valid, h'.expression c valid,
      h'.unary c valid, h'.statement c valid]
    exact ⟨expressionOver_guarded c valid _ _ forward beyond,
      unaryOver_guarded c valid _ _ forward beyond, statementOver_guarded c valid _ _ forward beyond⟩

end Solution

section Depth

-- A rule that is settled by the nested rules at later places, and by as many levels of them as
-- there are bytes, so that the last level asks for nothing that is below it.
structure Settled (rule : Nested → Rule α) : Prop where
  guarded : Guarded rule
  enough  : ∀ c, c.Valid → ∀ bottom depth, c.remaining ≤ depth →
    (rule (Nested.over bottom depth)).parses c = (unbounded rule).parses c

theorem Settled.of_paces (h : ∀ R, Lockstep R → Paces R b rule) : Settled rule where
  guarded := .of_paces fun source => h _ (placed_lockstep source)
  enough _ valid bottom _ := parses_over (.of_paces (h _ same_lockstep)) bottom valid

def expressionUnitOver (nested : Nested) : Rule Expr :=
  whitespace *> expressionOver nested <* endOfInput

def statementUnitOver (nested : Nested) : Rule Expr :=
  whitespace *> (blockOver nested <|> inBlock (statementOver nested)) <* endOfInput

section Units

variable (bottom : Nested) (depth : Nat)

theorem over_agrees_unbounded (h : ∀ R, Lockstep R → Paces R b rule) :
    (rule (Nested.over bottom depth)).Agrees (unbounded rule) (Below Same (depth + 1) b)
      (Below Same (depth + 1) b) :=
  agrees_within_iff.mp (unbounded_within (.of_paces (h _ same_lockstep)) bottom depth)

theorem expressionUnitOver_agrees :
    (expressionUnitOver (Nested.over bottom depth)).Agrees expressionUnit
      (Below Same (depth + 1) b) (Below Same (depth + 1) b) := by
  have hk := same_lockstep.below (depth + 1)
  have expression := over_agrees_unbounded (b := b) bottom depth
    fun _ h _ _ _ => expressionOver_agrees h
  exact ((whitespace_respects hk b).seqRight expression).seqLeft (endOfInput_respects hk b)

omit bottom depth in
theorem blockOver_paces (R : Bool → Cursor Scope → Cursor Scope → Prop) (h : Lockstep R) :
    Paces R b blockOver :=
  fun _ _ _ hn => wider (blockOver_agrees h hn (symbol_shorter h "\x7b" (by decide)))

theorem statementUnitOver_agrees :
    (statementUnitOver (Nested.over bottom depth)).Agrees statementUnit
      (Below Same (depth + 1) b) (Below Same (depth + 1) b) := by
  have hk := same_lockstep.below (depth + 1)
  have block := over_agrees_unbounded (b := b) bottom depth blockOver_paces
  have statement := over_agrees_unbounded bottom depth fun _ h _ _ _ => statementOver_agrees h
  have unit := block.orElse (inBlock_agrees hk statement)
  exact ((whitespace_respects hk b).seqRight unit).seqLeft (endOfInput_respects hk b)

end Units

theorem start_within {text : String} {s : Scope} {depth : Nat}
    (enough : text.utf8ByteSize ≤ depth) :
    Below Same (depth + 1) b (.start text s) (.start text s) :=
  ⟨⟨rfl, Cursor.start_valid text s⟩, Nat.lt_succ_of_le enough⟩

end Depth

-- The evaluation of every rule ends: the nested rules are asked at later places only, names of types
-- are as well, and the loop of a repetition empties its stack. So the equations of the grammar have
-- one solution, and a depth of as many levels as a text has bytes comes to the final outcome.
theorem grammar_settled :
    (Settled expressionOver ∧ Settled nonAssignmentOver ∧ Settled unaryOver ∧ Settled lambdaOver ∧
      Settled blockOver ∧ Settled declarationOver ∧ Settled statementOver) ∧
    (∀ c : Cursor Scope, c.Valid →
      (∀ inner inner' : Rule Ty, inner.Forward → Beyond c inner inner' →
        (typeNameOver inner).parses c = (typeNameOver inner').parses c) ∧
      typeName.parses c = (typeNameOver typeName).parses c ∧
      ∀ bottom depth, c.remaining ≤ depth →
        (typeNameFrom bottom (depth + 1)).parses c = typeName.parses c) ∧
    (Nested.whole.Forward ∧ Nested.whole.Solves ∧
      ∀ nested : Nested, nested.Forward → nested.Solves → ∀ c, c.Valid →
        nested.expression.parses c = expression.parses c ∧
        nested.unary.parses c = (unbounded unaryOver).parses c ∧
        nested.statement.parses c = statement.parses c) ∧
    (∀ (α β : Type) (r : Repetition Scope α β) branches,
      (r.run (r.work branches) branches).2 = []) ∧
    ∀ text s bottom depth, text.utf8ByteSize ≤ depth →
      ((expressionUnitOver (Nested.over bottom depth)).parse text s).map (·.value) =
        parseExpression text s ∧
      ((statementUnitOver (Nested.over bottom depth)).parse text s).map (·.value) =
        parseStatement text s := by
  refine ⟨⟨.of_paces (b := true) fun _ h _ _ _ => expressionOver_agrees h,
    .of_paces (b := true) fun _ h _ _ _ => nonAssignmentOver_agrees h,
    .of_paces (b := true) fun _ h _ _ _ => unaryOver_agrees h,
    .of_paces (b := true) fun _ h _ _ _ => lambdaOver_agrees h,
    .of_paces (b := true) blockOver_paces,
    .of_paces fun _ h _ _ _ => declarationOver_agrees h,
    .of_paces fun _ h _ _ _ => statementOver_agrees h⟩, ?_, ?_, ?_, ?_⟩
  · exact fun c valid => ⟨fun _ _ => typeNameOver_guarded valid, typeName_whole valid,
      fun bottom _ => parses_typeNameFrom bottom valid⟩
  · exact ⟨Nested.frames_whole.forward, Nested.solves_whole,
      fun _ forward solves _ => solves.unique forward Nested.solves_whole⟩
  · exact fun _ _ r branches => by rw [Repetition.run_work]
  · exact fun text s bottom depth enough =>
      ⟨(expressionUnitOver_agrees (b := true) bottom depth).outcome (start_within enough),
        (statementUnitOver_agrees (b := true) bottom depth).outcome (start_within enough)⟩

-- One level of rules is not enough for two pairs of parentheses: what is found inside of them is
-- then what the rules below find, which is the number 1 here even where nothing is written. With as
-- many levels as there are bytes, these rules are not asked.
theorem grammar_settled_parentheses :
    let s := Scope.new Registry.system.resolve .standard
    let one : Rule Expr := pure (.constant (.int 1) .int)
    let bottom : Nested := ⟨one, one, fail⟩
    ((expressionUnitOver (Nested.at 1)).parse "((1))" s).isOk = false ∧
    ((expressionUnitOver (Nested.over bottom 1)).parse "(())" s).isOk ∧
    ((expressionUnitOver (Nested.over bottom 5)).parse "((1))" s).map (·.value) =
      parseExpression "((1))" s ∧
    (parseExpression "((1))" s).isOk ∧
    ((expressionUnitOver (Nested.over bottom 4)).parse "(())" s).map (·.value) =
      parseExpression "(())" s ∧
    (parseExpression "(())" s).isOk = false := by
  intro s one bottom
  have ⟨_, _, _, _, outcome⟩ := grammar_settled
  exact ⟨by decide +kernel, by decide +kernel, (outcome "((1))" s bottom 5 (by decide)).1,
    by decide +kernel, (outcome "(())" s bottom 4 (by decide)).1, by decide +kernel⟩

end ExprTree.Grammar
