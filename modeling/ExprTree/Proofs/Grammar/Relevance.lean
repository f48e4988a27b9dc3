import ExprTree.Builder.Standard
import ExprTree.Proofs.Grammar.Congruence
import ExprTree.Proofs.Scope.Lookup

namespace ExprTree

open ExprTree.Grammar (Identifier Lockstep)

variable {text : String} {b : Bool} {s s' : Scope} {v : Symbol}

-- Scopes that mean the same by all that a text mentions, and in a block have the same locals.
structure Scope.Alike (text : String) (b : Bool) (s s' : Scope) : Prop where
  keyed    : s.Keyed ∧ s'.Keyed
  resolver : s.resolver = s'.resolver
  builder  : s.builder = s'.builder
  lookup   : ∀ name, Identifier name → name.toList <:+: text.toList → s.lookup name = s'.lookup name
  expected : "=>".toList <:+: text.toList → s.expected = s'.expected
  locals   : b = true → s.locals = s'.locals

namespace Scope.Alike

theorem withExpected (h : s.Alike text b s') (expected : Option Ty) :
    (s.withExpected expected).Alike text b (s'.withExpected expected) :=
  { h with
    keyed    := ⟨h.keyed.1.withExpected expected, h.keyed.2.withExpected expected⟩
    expected := fun _ => rfl }

theorem enterBlock (h : s.Alike text b s') : s.enterBlock.Alike text true s'.enterBlock :=
  { h with
    keyed    := ⟨h.keyed.1.enterBlock, h.keyed.2.enterBlock⟩
    expected := fun _ => rfl
    locals   := fun _ => rfl }

theorem declare (h : s.Alike text true s') (v : Symbol) :
    Option.Rel (Scope.Alike text true) (s.declare v) (s'.declare v) := by
  have locals := h.locals rfl
  rw [Scope.declare, Scope.declare, ← locals]
  split
  case isTrue => exact .none
  case isFalse =>
    refine .some { h with keyed := ?_, lookup := fun name word found => ?_, locals := fun _ => rfl }
    · exact ⟨⟨(h.keyed.1.withSymbol v).invariant, (h.keyed.1.withSymbol v).named⟩,
        ⟨(h.keyed.2.withSymbol v).invariant, (h.keyed.2.withSymbol v).named⟩⟩
    · show (s.withSymbol v).lookup name = (s'.withSymbol v).lookup name
      rw [h.keyed.1.lookup_withSymbol, h.keyed.2.lookup_withSymbol, h.lookup name word found]

end Scope.Alike

structure Cursor.Alike (text : String) (b : Bool) (c c' : Cursor Scope) : Prop where
  valid  : c.Valid ∧ c'.Valid
  source : c.source = text
  rest   : c.rest = c'.rest
  state  : c.state.Alike text b c'.state

namespace Cursor.Alike

variable {c c' : Cursor Scope}

theorem infix_of_rest (h : c.Alike text b c') {found : List Char} (mem : found <:+: c.rest) :
    found <:+: text.toList := by
  have ⟨read, source, _⟩ := h.valid.1
  rw [← h.source, source]
  exact mem.trans (List.suffix_append read c.rest).isInfix

theorem lockstep (text : String) : Lockstep (Cursor.Alike text) where
  valid := Alike.valid
  rest := Alike.rest
  drop h n := ⟨⟨h.valid.1.drop n, h.valid.2.drop n⟩, h.source, congrArg (List.drop n) h.rest, h.state⟩
  resolver h := h.state.resolver
  builder h := h.state.builder
  lookup h name word found := h.state.lookup name word (h.infix_of_rest found.isInfix)
  expected h found := h.state.expected (h.infix_of_rest found)
  expecting h expected := ⟨h.valid, h.source, h.rest, h.state.withExpected expected⟩
  enterBlock h := ⟨h.valid, h.source, h.rest, h.state.enterBlock⟩
  declare h v :=
    option_rel_imp (h.state.declare v) fun _ _ hs => ⟨h.valid, h.source, h.rest, hs⟩
  declared h := congrArg Stack.inPushOrder (h.state.locals rfl)
  restore h ht := ⟨ht.valid, ht.source, ht.rest, h.state⟩

end Cursor.Alike

-- The outcome for a text depends on what the scope says of the identifiers in it, and on the
-- expected type if there is an arrow in it.
theorem parse_eq_of_alike (reachable : s.Reachable) (reachable' : s'.Reachable)
    (resolver : s.resolver = s'.resolver) (builder : s.builder = s'.builder)
    (lookup : ∀ name, Identifier name → name.toList <:+: text.toList →
      s.lookup name = s'.lookup name)
    (expected : s.expected = s'.expected ∨ ¬"=>".toList <:+: text.toList) :
    parseExpression text s = parseExpression text s' ∧
      parseStatement text s = parseStatement text s' := by
  have alike : s.Alike text false s' :=
    ⟨⟨reachable.keyed, reachable'.keyed⟩, resolver, builder, lookup,
      fun arrow => expected.resolve_right fun none => none arrow, nofun⟩
  have start : (Cursor.start text s).Alike text false (Cursor.start text s') :=
    ⟨⟨Cursor.start_valid text s, Cursor.start_valid text s'⟩, rfl, rfl, alike⟩
  have lockstep := Cursor.Alike.lockstep text
  exact ⟨(Grammar.expressionUnit_respects lockstep).outcome start,
    (Grammar.statementUnit_respects lockstep).outcome start⟩

theorem parse_eq_of_alike_unused :
    let s := (Scope.new Registry.system.resolve .standard).withSymbol ⟨"x", .prim .int⟩
    let s' := (s.withSymbol ⟨"y", .prim .int⟩).withExpected (some (.prim .string))
    (parseExpression "x + 1" s).isOk ∧ parseExpression "x + 1" s = parseExpression "x + 1" s' ∧
      parseStatement "x + 1;" s = parseStatement "x + 1;" s' := by
  intro s s'
  have reachable : s.Reachable := (Scope.Reachable.new _ _).withSymbol _
  have reachable' : s'.Reachable := (reachable.withSymbol _).withExpected _
  have same (text : String) (unused : ¬"y".toList <:+: text.toList)
      (plain : ¬"=>".toList <:+: text.toList) :
      parseExpression text s = parseExpression text s' ∧
        parseStatement text s = parseStatement text s' := by
    refine parse_eq_of_alike reachable reachable' rfl rfl (fun name _ found => ?_) (.inr plain)
    have other : name ≠ "y" := fun eq => unused (eq ▸ found)
    exact ((reachable.keyed.lookup_withSymbol _ name).trans (if_neg other)).symm
  have ⟨expression, _⟩ := same "x + 1" (by decide +kernel) (by decide +kernel)
  have ⟨_, statement⟩ := same "x + 1;" (by decide +kernel) (by decide +kernel)
  exact ⟨by decide +kernel, expression, statement⟩

end ExprTree
