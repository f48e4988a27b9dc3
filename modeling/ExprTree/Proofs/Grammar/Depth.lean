import ExprTree.Proofs.Grammar.Congruence

namespace ExprTree

open ExprTree.Parser

structure Cursor.Within (k : Nat) (c c' : Cursor Scope) : Prop where
  same  : c = c'
  valid : c.Valid
  left  : c.remaining < k

open Cursor (Within)

namespace Grammar

variable {α : Type} {b : Bool} {k : Nat} {p p' : Rule α}

def Same (_ : Bool) (c c' : Cursor Scope) : Prop :=
  c = c' ∧ c.Valid

theorem same_lockstep : Lockstep Same where
  valid := fun ⟨eq, valid⟩ => ⟨valid, eq ▸ valid⟩
  rest hc := congrArg Cursor.rest hc.1
  drop := fun ⟨eq, valid⟩ n => ⟨by rw [eq], valid.drop n⟩
  resolver hc := congrArg (·.state.resolver) hc.1
  builder hc := congrArg (·.state.builder) hc.1
  lookup hc name _ _ := congrArg (·.state.lookup name) hc.1
  expected hc _ := congrArg (·.state.expected) hc.1
  expecting := fun ⟨eq, valid⟩ _ => ⟨by rw [eq], valid⟩
  enterBlock := fun ⟨eq, valid⟩ => ⟨by rw [eq], valid⟩
  declare := by
    intro c _ ⟨rfl, valid⟩ v
    cases c.state.declare v with
    | none => exact .none
    | some s => exact .some ⟨rfl, valid⟩
  declared hc := congrArg (·.state.declared) hc.1
  restore := fun ⟨eq, _⟩ ⟨eq', valid⟩ => ⟨by rw [eq, eq'], valid⟩

theorem within_iff {c c' : Cursor Scope} : Within k c c' ↔ Below Same k b c c' where
  mp := fun ⟨same, valid, left⟩ => ⟨⟨same, valid⟩, left⟩
  mpr := fun ⟨⟨same, valid⟩, left⟩ => ⟨same, valid, left⟩

theorem agrees_within_iff :
    p.Agrees p' (Within k) (Within k) ↔ p.Agrees p' (Below Same k b) (Below Same k b) where
  mp h := h.mono (fun _ _ => within_iff.mpr) fun _ _ => within_iff.mp
  mpr h := h.mono (fun _ _ => within_iff.mp) fun _ _ => within_iff.mpr

structure Nested.Agrees (k : Nat) (nested nested' : Nested) : Prop where
  expression : nested.expression.Agrees nested'.expression (Within k) (Within k)
  unary      : nested.unary.Agrees nested'.unary (Within k) (Within k)
  statement  : nested.statement.Agrees nested'.statement (Within k) (Within k)

theorem Nested.agrees_iff {nested nested' : Nested} :
    Nested.Agrees k nested nested' ↔ Nested.Paced Same k nested nested' where
  mp h := ⟨fun _ => agrees_within_iff.mp h.expression, fun _ => agrees_within_iff.mp h.unary,
    agrees_within_iff.mp h.statement⟩
  mpr h := ⟨agrees_within_iff.mpr (h.expression true), agrees_within_iff.mpr (h.unary true),
    agrees_within_iff.mpr h.statement⟩

-- A rule that goes into the nested rules with less input than it was given.
def Descends (rule : Nested → Rule α) : Prop :=
  ∀ k nested nested', Nested.Agrees k nested nested' →
    (rule nested).Agrees (rule nested') (Within (k + 1)) (Within (k + 1))

theorem Descends.of_paces {rule : Nested → Rule α} (h : Paces Same b rule) : Descends rule :=
  fun k nested nested' hn => agrees_within_iff.mpr (h k nested nested' (Nested.agrees_iff.mp hn))

theorem within_zero {T : Cursor Scope → Cursor Scope → Prop} : p.Agrees p' (Within 0) T :=
  fun _ _ hc => absurd hc.left (Nat.not_lt_zero _)

theorem Nested.over_agrees (bottom bottom' : Nested) (depth depth' : Nat) :
    Nested.Agrees (min depth depth') (Nested.over bottom depth) (Nested.over bottom' depth') :=
  Nested.agrees_iff.mpr (Nested.over_paced same_lockstep bottom bottom' depth depth')

theorem parses_eq_of_within (h : p.Agrees p' (Within (k + 1)) (Within (k + 1)))
    {c : Cursor Scope} (valid : c.Valid) (left : c.remaining ≤ k) : p.parses c = p'.parses c :=
  eq_of_related (h c c ⟨rfl, valid, Nat.lt_succ_of_le left⟩) fun _ _ tail => tail.same

-- At a cursor of a text, every depth that is no less than the input left has the same parses, and
-- the rules below the last level are never asked.
theorem parses_over {rule : Nested → Rule α} (h : Descends rule) (bottom : Nested)
    {c : Cursor Scope} (valid : c.Valid) {depth : Nat} (enough : c.remaining ≤ depth) :
    (rule (Nested.over bottom depth)).parses c = (unbounded rule).parses c := by
  rw [parses_unbounded]
  have agrees := h _ _ _ (Nested.over_agrees bottom .nothing depth c.remaining)
  rw [Nat.min_eq_right enough] at agrees
  exact parses_eq_of_within agrees valid (Nat.le_refl _)

theorem unbounded_within {rule : Nested → Rule α} (h : Descends rule) (bottom : Nested)
    (depth : Nat) : (rule (Nested.over bottom depth)).Agrees (unbounded rule) (Within (depth + 1))
      (Within (depth + 1)) := by
  have agrees := h _ _ _ (Nested.over_agrees bottom bottom depth depth)
  rw [Nat.min_self] at agrees
  intro c c' hc
  rw [← parses_over h bottom (hc.same ▸ hc.valid) (hc.same ▸ Nat.le_of_lt_succ hc.left)]
  exact agrees c c' hc

-- The grammar without a bound: rules whose nested rules are these rules again.
def Nested.whole : Nested :=
  ⟨Grammar.expression, unbounded unaryOver, Grammar.statement⟩

theorem Nested.whole_paced {R : Bool → Cursor Scope → Cursor Scope → Prop} (h : Lockstep R)
    (k : Nat) : Nested.Paced R k whole whole where
  expression _ := unbounded_respects (h.below k) fun _ _ _ => expressionOver_agrees (h.below k)
  unary _ := unbounded_respects (h.below k) fun _ _ _ => unaryOver_agrees (h.below k)
  statement := unbounded_respects (h.below k) fun _ _ _ => statementOver_agrees (h.below k)

theorem expressionOver_descends : Descends expressionOver :=
  .of_paces (b := true) fun _ _ _ => expressionOver_agrees same_lockstep

theorem unaryOver_descends : Descends unaryOver :=
  .of_paces (b := true) fun _ _ _ => unaryOver_agrees same_lockstep

theorem statementOver_descends : Descends statementOver :=
  .of_paces fun _ _ _ => statementOver_agrees same_lockstep

theorem Nested.agrees_whole (depth : Nat) :
    Nested.Agrees depth (Nested.at depth) Nested.whole := by
  cases depth with
  | zero => exact ⟨within_zero, within_zero, within_zero⟩
  | succ depth =>
    rw [Nested.at_succ]
    exact ⟨unbounded_within expressionOver_descends _ depth,
      unbounded_within unaryOver_descends _ depth, unbounded_within statementOver_descends _ depth⟩

theorem parses_whole {rule : Nested → Rule α} (h : Descends rule) {c : Cursor Scope}
    (valid : c.Valid) : (unbounded rule).parses c = (rule Nested.whole).parses c := by
  rw [parses_unbounded]
  exact parses_eq_of_within (h _ _ _ (Nested.agrees_whole c.remaining)) valid (Nat.le_refl _)

section TypeName

theorem typeNameFrom_within (bottom bottom' : Rule Ty) (depth depth' : Nat) :
    (typeNameFrom bottom depth).Agrees (typeNameFrom bottom' depth') (Within (min depth depth'))
      (Within (min depth depth')) :=
  agrees_within_iff.mpr (typeNameFrom_agrees (b := true) same_lockstep bottom bottom' depth depth')

theorem parses_typeNameFrom (bottom : Rule Ty) {c : Cursor Scope} (valid : c.Valid) {depth : Nat}
    (enough : c.remaining ≤ depth) :
    (typeNameFrom bottom (depth + 1)).parses c = typeName.parses c := by
  have agrees := typeNameFrom_within bottom fail (depth + 1) (c.remaining + 1)
  rw [Nat.min_eq_right (Nat.succ_le_succ enough)] at agrees
  rw [parses_typeName]
  exact parses_eq_of_within agrees valid (Nat.le_refl _)

theorem typeNameAt_typeName (depth : Nat) :
    (typeNameAt depth).Agrees typeName (Within depth) (Within depth) := by
  cases depth with
  | zero => exact within_zero
  | succ depth =>
    intro c c' hc
    have agrees := typeNameFrom_within fail fail (depth + 1) (depth + 1)
    rw [Nat.min_self] at agrees
    rw [← parses_typeNameFrom fail (hc.same ▸ hc.valid) (hc.same ▸ Nat.le_of_lt_succ hc.left)]
    exact agrees c c' hc

theorem typeName_whole {c : Cursor Scope} (valid : c.Valid) :
    typeName.parses c = (typeNameOver typeName).parses c := by
  have inner := agrees_within_iff (b := true) |>.mp (typeNameAt_typeName c.remaining)
  have agrees := agrees_within_iff.mpr (typeNameOver_agrees same_lockstep inner)
  rw [parses_typeName]
  exact parses_eq_of_within agrees valid (Nat.le_refl _)

end TypeName

end Grammar

end ExprTree
