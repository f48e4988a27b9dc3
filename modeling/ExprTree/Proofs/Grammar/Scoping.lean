import ExprTree.Builder.Standard
import ExprTree.Proofs.Grammar.Depth
import ExprTree.Proofs.Grammar.Frame

namespace ExprTree.Grammar

open ExprTree.Parser

def KeepsScope {α : Type} (p : Rule α) : Prop :=
  ∀ c, ∀ r ∈ p.parses c, r.tail.state = c.state

theorem keepsScope_of_moves {α : Type} {p : Rule α} (h : p.Moves) : KeepsScope p :=
  fun c r mem => (h c r mem).state_eq

structure Extends (c : Cursor Scope) (ds : List Symbol) (t : Cursor Scope) : Prop where
  introduces : Introduces c ds t
  declares   : c.state.Declares ds t.state
  expected   : t.state.expected = c.state.expected

theorem Introduces.extends {c t : Cursor Scope} {ds : List Symbol} (h : Introduces c ds t) :
    Extends c ds t :=
  ⟨h, h.declares, h.declares.expected_eq⟩

inductive Sequence : Cursor Scope → List (List Symbol × List Expr) → Cursor Scope → Prop
  | nil (c : Cursor Scope) : Sequence c [] c
  | cons {c t : Cursor Scope} {s : Parsed Scope (List Expr)} {ds : List Symbol}
      {steps : List (List Symbol × List Expr)} (mem : s ∈ statement.parses c)
      (extended : Extends c ds s.tail) (others : Sequence s.tail steps t) :
      Sequence c ((ds, s.value) :: steps) t

namespace Sequence

variable {c t : Cursor Scope} {steps : List (List Symbol × List Expr)}

theorem introduces (h : Sequence c steps t) : Introduces c (steps.flatMap (·.1)) t := by
  induction h with
  | nil c => exact .done (.refl c)
  | cons _ extended _ ih => exact extended.introduces.trans ih

theorem of_reads {depth : Nat} {found : List (Parsed Scope (List Expr))}
    (h : Reads (statementOver (Nested.at depth)) c found t) (valid : c.Valid)
    (enough : c.remaining ≤ depth) :
    ∃ steps, Sequence c steps t ∧ steps.map (·.2) = found.map (·.value) := by
  induction h with
  | nil c => exact ⟨[], .nil c, rfl⟩
  | @cons c t s found mem _ ih =>
    have ⟨ds, introduced, _⟩ := statementOver_introduces (Nested.frames_at depth) mem
    have moved := introduced.leads c.state
    have ⟨steps, others, values⟩ :=
      ih (moved.valid valid) (Nat.le_trans moved.remaining_le enough)
    rw [Nested.at, parses_over statementOver_descends _ valid enough] at mem
    exact ⟨(ds, s.value) :: steps, .cons mem introduced.extends others, by simp [values]⟩

end Sequence

-- What a block is made of: braces, and statements in a scope of their own between them. The builder
-- gets all symbols that they declare, and all nodes that they add.
structure Encloses (c : Cursor Scope) (steps : List (List Symbol × List Expr))
    (r : Parsed Scope Expr) : Prop where
  inside : ∃ opening ∈ (symbol "\x7b").parses c, ∃ t,
    Sequence (opening.tail.withState c.state.enterBlock) steps t ∧
      ∃ closing ∈ (symbol "\x7d").parses t, r.tail = closing.tail.withState c.state
  made   : c.state.builder.block (steps.flatMap (·.1)) (steps.flatMap (·.2)) = .ok r.value

theorem block_encloses {c : Cursor Scope} (valid : c.Valid) {r : Parsed Scope Expr}
    (mem : r ∈ block.parses c) : ∃ steps, Encloses c steps r := by
  rw [block, parses_unbounded, blockOver, parses_seqRight] at mem
  have ⟨opening, opened, inside⟩ := List.mem_flatMap.mp mem
  have moved := symbol_moves _ _ _ opened
  have ⟨_, less⟩ := symbol_consumes "\x7b" (by decide) c valid opening opened
  rw [mem_inBlock, moved.state_eq, parses_seqLeft, parses_map] at inside
  simp only [List.mem_flatMap, List.mem_map] at inside
  obtain ⟨_, ⟨_, ⟨list, listed, rfl⟩, closing, closed, rfl⟩, made, tail⟩ := inside
  -- The brace has been read, so the depth is at least one, and what is left of it is enough.
  have ⟨depth, eq⟩ := Nat.exists_eq_succ_of_ne_zero (Nat.ne_of_gt (Nat.zero_lt_of_lt less))
  rw [eq, Nested.at_succ] at listed
  have ⟨found, reads, values⟩ := reads_of_mem_atLeast listed
  have ⟨steps, sequence, nodes⟩ := Sequence.of_reads reads (moved.valid valid)
    (Nat.le_of_lt_succ (eq ▸ less))
  refine ⟨steps, ⟨opening, opened, list.tail, sequence, closing, closed, tail⟩, ?_⟩
  have locals : closing.tail.state.declared = steps.flatMap (·.1) := by
    rw [(symbol_moves _ _ _ closed).state_eq, sequence.introduces.declares.declared_eq]
    exact List.nil_append _
  have body : list.value.flatten = steps.flatMap (·.2) := by
    rw [values, ← nodes, List.flatMap_def]
  rw [← locals, ← body]
  exact made

theorem declaration_extends {c : Cursor Scope} {r : Parsed Scope (List Expr)}
    (mem : r ∈ declaration.parses c) : ∃ ds, Extends c ds r.tail := by
  have ⟨ds, introduced⟩ := declarationOver_declaring (Nested.frames_at c.remaining) c r mem
  exact ⟨ds, introduced.extends⟩

theorem statement_extends {c : Cursor Scope} {r : Parsed Scope (List Expr)}
    (mem : r ∈ statement.parses c) :
    ∃ ds, Extends c ds r.tail ∧ (r ∉ declaration.parses c → ds = []) := by
  have ⟨ds, introduced, other⟩ := statementOver_introduces (Nested.frames_at c.remaining) mem
  exact ⟨ds, introduced.extends, other⟩

theorem keepsScope_unbounded {α : Type} {rule : Nested → Rule α}
    (h : ∀ nested : Nested, nested.Frames → (rule nested).Moves) : KeepsScope (unbounded rule) :=
  fun c => keepsScope_of_moves (h _ (Nested.frames_at c.remaining)) c

def localsOf : Expr → List Symbol
  | .block locals _ _ => locals
  | _ => []

-- The scope behind every rule of the grammar, and the locals of a block.
theorem rules_scope :
    KeepsScope whitespace ∧ KeepsScope identifier ∧
    (∀ word, KeepsScope (keyword word)) ∧ (∀ s, KeepsScope (symbol s)) ∧
    (∀ s notBefore, KeepsScope (operator s notBefore)) ∧
    KeepsScope boolean ∧ KeepsScope null ∧ KeepsScope integer ∧ KeepsScope real ∧
    KeepsScope characterLiteral ∧ KeepsScope stringLiteral ∧ KeepsScope literal ∧
    KeepsScope typeName ∧
    KeepsScope expression ∧ KeepsScope nonAssignment ∧ KeepsScope lambda ∧ KeepsScope block ∧
    (∀ c, ∀ r ∈ declaration.parses c, ∃ ds, Extends c ds r.tail) ∧
    (∀ c, ∀ r ∈ statement.parses c,
      ∃ ds, Extends c ds r.tail ∧ (r ∉ declaration.parses c → ds = [])) ∧
    (∀ c : Cursor Scope, c.Valid → ∀ r ∈ block.parses c, ∃ steps, Encloses c steps r ∧
      (c.state.builder = .standard → localsOf r.value = steps.flatMap (·.1))) := by
  refine ⟨keepsScope_of_moves whitespace_moves, keepsScope_of_moves identifier_moves,
    fun word => keepsScope_of_moves (keyword_moves word),
    fun s => keepsScope_of_moves (symbol_moves s),
    fun s notBefore => keepsScope_of_moves (operator_moves s notBefore),
    keepsScope_of_moves boolean_moves, keepsScope_of_moves null_moves,
    keepsScope_of_moves integer_moves, keepsScope_of_moves real_moves,
    keepsScope_of_moves characterLiteral_moves, keepsScope_of_moves stringLiteral_moves,
    keepsScope_of_moves literal_moves, keepsScope_of_moves typeName_moves,
    keepsScope_unbounded fun _ => expressionOver_moves,
    keepsScope_unbounded fun _ => nonAssignmentOver_moves,
    keepsScope_unbounded fun _ => lambdaOver_moves, keepsScope_unbounded fun _ => blockOver_moves,
    fun c r => declaration_extends, fun c r => statement_extends, fun c valid r mem => ?_⟩
  have ⟨steps, encloses⟩ := block_encloses valid mem
  refine ⟨steps, encloses, fun standard => ?_⟩
  have made := encloses.made
  rw [standard] at made
  exact Except.ok.inj made ▸ rfl

theorem rules_scope_twoLocals :
    let scope := Scope.new Registry.system.resolve .standard
    let c := Cursor.start "\x7bint y; y = 2; int x = y;\x7d;" scope
    ∃ r ∈ block.parses c, r.tail.state = scope ∧ ∃ steps, Encloses c steps r ∧
      steps.flatMap (·.1) = [⟨"y", .prim .int⟩, ⟨"x", .prim .int⟩] := by
  intro scope c
  have found : (block.parses c).any fun r =>
      localsOf r.value = [⟨"y", .prim .int⟩, ⟨"x", .prim .int⟩] := by
    decide +kernel
  obtain ⟨r, mem, eq⟩ := List.any_eq_true.mp found
  obtain ⟨_, _, _, _, _, _, _, _, _, _, _, _, _, _, _, _, keeps, _, _, enclosing⟩ := rules_scope
  obtain ⟨steps, encloses, node⟩ := enclosing c (Cursor.start_valid _ _) r mem
  exact ⟨r, mem, keeps c r mem, steps, encloses, (node rfl).symm.trans (of_decide_eq_true eq)⟩

end ExprTree.Grammar
