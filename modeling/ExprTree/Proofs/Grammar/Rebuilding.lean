import ExprTree.Proofs.Builder.Shape
import ExprTree.Proofs.Expr.Typing
import ExprTree.Proofs.Grammar.Composition
import ExprTree.Proofs.Grammar.Literals
import ExprTree.Proofs.Scope.Lookup

namespace ExprTree

open ExprTree.Parser
open ExprTree.Grammar (Identifier)

def Literal.isWordOrInteger : Literal → Bool
  | bool _ | null | int _ | uint _ | long _ | ulong _ => true
  | _ => false

namespace Expr

def isOperation : Expr → Bool
  | constant value _ => value.isWordOrInteger
  | var _ | unary .. | binary .. | conditional .. | member .. | call .. | invoke .. | index .. =>
    true
  | _ => false

def Operates (e : Expr) : Prop :=
  ∀ node ∈ e.nodes, node.isOperation

theorem Operates.root {e : Expr} (h : e.Operates) : e.isOperation :=
  (forall_nodes_iff.mp h).1

theorem Operates.parts {e : Expr} (h : e.Operates) : ∀ child ∈ e.children, child.Operates :=
  (forall_nodes_iff.mp h).2

theorem not_operates {e : Expr} (h : e.isOperation = false) : ¬e.Operates :=
  fun operates => Bool.false_ne_true (h ▸ operates.root)

-- A tree in which the names have their meaning in a scope, and every node is what the standard
-- builder makes of its parts.
inductive Rebuilt (s : Scope) : Expr → Prop
  | constant {value : Literal} (plain : value.Plain) : Rebuilt s (.constant value value.ty)
  | var {v : Symbol} (name : Identifier v.name) (found : s.lookup v.name = some v) :
      Rebuilt s (.var v)
  | unary {op : UnaryOp} {operand : Expr} {t : Ty} (operand_rebuilt : Rebuilt s operand)
      (built : Builder.Standard.unary op operand = .ok (.unary op operand t)) :
      Rebuilt s (.unary op operand t)
  | binary {op : BinaryOp} {left right : Expr} {t : Ty} (left_rebuilt : Rebuilt s left)
      (right_rebuilt : Rebuilt s right)
      (built : Builder.Standard.binary op left right = .ok (.binary op left right t)) :
      Rebuilt s (.binary op left right t)
  | conditional {condition yes no : Expr} {t : Ty} (condition_rebuilt : Rebuilt s condition)
      (yes_rebuilt : Rebuilt s yes) (no_rebuilt : Rebuilt s no)
      (built : Builder.Standard.conditional condition yes no =
        .ok (.conditional condition yes no t)) :
      Rebuilt s (.conditional condition yes no t)
  | member {target : Expr} {owner t : Ty} {name : String} (target_rebuilt : Rebuilt s target)
      (identifier : Identifier name)
      (built : Builder.Standard.member target name = .ok (.member target owner name t)) :
      Rebuilt s (.member target owner name t)
  | call {target : Expr} {owner t : Ty} {method : String} {args : List Expr}
      (target_rebuilt : Rebuilt s target) (identifier : Identifier method)
      (args_rebuilt : ∀ arg ∈ args, Rebuilt s arg)
      (built : Builder.Standard.call target method args = .ok (.call target owner method args t)) :
      Rebuilt s (.call target owner method args t)
  | invoke {delegate : Expr} {args : List Expr} {t : Ty} (delegate_rebuilt : Rebuilt s delegate)
      (args_rebuilt : ∀ arg ∈ args, Rebuilt s arg)
      (built : Builder.Standard.invoke delegate args = .ok (.invoke delegate args t)) :
      Rebuilt s (.invoke delegate args t)
  | index {target : Expr} {args : List Expr} {t : Ty} (target_rebuilt : Rebuilt s target)
      (args_rebuilt : ∀ arg ∈ args, Rebuilt s arg)
      (built : Builder.Standard.index target args = .ok (.index target args t)) :
      Rebuilt s (.index target args t)

end Expr

namespace Grammar

section Words

variable {J : Scope → Prop}

theorem identifier_keeps : identifier.Keeps (In J) Identifier :=
  fun c hc r mem => ⟨(identifier_spec mem).1, In.leads hc (identifier_moves c r mem)⟩

end Words

section Literals

theorem integerLiteral_plain (n : Nat) (suffix : Option IntegerSuffix) :
    (integerLiteral n suffix).Plain := by
  have int (small : n < 0x80000000) : (Literal.int (.ofNat n)).Plain := by
    rw [Literal.Plain, Int32.toInt_ofNat_of_lt small]
    exact Int.natCast_nonneg n
  have long (small : n < 0x8000000000000000) : (Literal.long (.ofNat n)).Plain := by
    rw [Literal.Plain, Int64.toInt_ofNat_of_lt small]
    exact Int.natCast_nonneg n
  have word (m : UInt32) : (Literal.uint m).Plain := trivial
  have wide (m : UInt64) : (Literal.ulong m).Plain := trivial
  unfold integerLiteral
  grind

theorem real_not_integer {r : RealParts} {v : Literal} (h : r.literal? = some v) :
    v.isWordOrInteger = false := by
  unfold RealParts.literal? at h
  split at h
  all_goals
    obtain ⟨x, _, rfl⟩ := Option.map_eq_some_iff.mp h
    rfl

theorem literal_keeps : literal.Keeps (In J) fun v => v.isWordOrInteger → v.Plain := by
  have blanks := keeps_of_moves (J := J) whitespace_moves
  refine .oneOf fun p mem => ?_
  simp only [List.mem_cons, List.not_mem_nil, or_false] at mem
  rcases mem with rfl | rfl | rfl | rfl | rfl | rfl
  · exact ((keeps_of_moves (keyword_moves _)).map fun _ _ _ => trivial).orElse
      ((keeps_of_moves (keyword_moves _)).map fun _ _ _ => trivial)
  · exact (keeps_of_moves (keyword_moves _)).map fun _ _ _ => trivial
  · have parts := keeps_of_moves (J := J) (realParts_moves.filter RealParts.isComplete)
    have value := parts.filterMap (f := RealParts.literal?) fun r v _ eq => real_not_integer eq
    refine ((value.mono ?_).notFollowedBy _).seqLeft blanks
    intro v other listed
    simp [other] at listed
  · have hexadecimal := (textIgnoringCase_moves "0x").seqRight (word64_moves 16 hexDigits_moves)
    have value := hexadecimal.orElse (word64_moves 10 digits_moves)
    have literal := (keeps_of_moves (J := J) (value.pair integerSuffix_moves.optional)).map
      (Q := fun v => v.isWordOrInteger → v.Plain) (f := fun p => integerLiteral p.1 p.2)
      fun p _ _ => integerLiteral_plain p.1 p.2
    exact (literal.notFollowedBy _).seqLeft blanks
  · have inner := escapeSequence_moves.orElse (plainCharacter_moves '\x27')
    exact (keeps_of_moves (token_moves ((satisfy_moves _).between inner (satisfy_moves _)))).map
      fun _ _ other => (Bool.false_ne_true other).elim
  · have string := regularString_moves.orElse verbatimString_moves
    exact (keeps_of_moves (token_moves string)).map fun _ _ other => (Bool.false_ne_true other).elim

end Literals

end Grammar

namespace Members

theorem property_identifier {owner t : Ty} {name : String} (h : property? owner name = some t) :
    Identifier name := by
  unfold property? at h
  split at h
  case h_1 | h_2 => decide
  case h_3 => simp at h

theorem stringMethods_identifier {name : String} (h : stringMethods name ≠ []) :
    Identifier name := by
  unfold stringMethods at h
  split at h
  all_goals first
    | decide
    | exact absurd rfl h

theorem commonMethods_identifier {name : String} (h : commonMethods name ≠ []) :
    Identifier name := by
  unfold commonMethods at h
  split at h
  all_goals first
    | decide
    | exact absurd rfl h

theorem methods_identifier {owner : Ty} {name : String} (h : methods owner name ≠ []) :
    Identifier name := by
  rw [methods, ne_eq, List.append_eq_nil_iff, not_and_or] at h
  cases h with
  | inl found =>
    split at found
    case isTrue => exact stringMethods_identifier found
    case isFalse => exact absurd rfl found
  | inr found => exact commonMethods_identifier found

end Members

namespace Builder.Standard

open List (Forall₂)
open Members (property_identifier methods_identifier)
open ExprTree.Expr (Operates Rebuilt not_operates)

variable {s : Scope} {part e : Expr}

-- In a tree of operations there are no conversions.
theorem Coerced.eq_of_operates (h : Coerced part e) (operates : e.Operates) : e = part := by
  cases h with
  | same => rfl
  | converted => exact absurd operates (not_operates rfl)

theorem coerced_eq {parts es : List Expr} (h : Forall₂ Coerced parts es)
    (operates : ∀ e ∈ es, e.Operates) : es = parts := by
  induction h with
  | nil => rfl
  | cons first _ ih =>
    have ⟨head, tail⟩ := List.forall_mem_cons.mp operates
    rw [first.eq_of_operates head, ih tail]

theorem invoke_rebuilt {delegate : Expr} {args : List Expr}
    (hdelegate : delegate.Operates → delegate.Rebuilt s)
    (hargs : ∀ arg ∈ args, arg.Operates → arg.Rebuilt s) (h : invoke delegate args = .ok e)
    (operates : e.Operates) : e.Rebuilt s := by
  obtain ⟨args', t, _, coerced, rfl⟩ := invoke_shape h
  have ⟨first, others⟩ := List.forall_mem_cons.mp operates.parts
  obtain rfl := coerced_eq coerced others
  exact .invoke (hdelegate first) (fun arg mem => hargs arg mem (others arg mem)) h

theorem composes_rebuilt (s : Scope) :
    Builder.standard.Composes fun e => e.Operates → e.Rebuilt s where
  defaultValue t e h operates := by
    obtain ⟨_, rfl⟩ := defaultValue_shape h
    exact absurd operates (not_operates rfl)
  typeOf t e h operates := by
    obtain ⟨_, rfl⟩ := typeOf_shape h
    exact absurd operates (not_operates rfl)
  unary op operand e ho h operates := by
    obtain ⟨operand', coerced, rfl, _⟩ := unary_shape h
    have part := List.forall_mem_singleton.mp operates.parts
    obtain rfl := coerced.eq_of_operates part
    exact .unary (ho part) h
  binary op left right e hl hr h operates := by
    obtain ⟨left', right', t, _, coercedLeft, coercedRight, rfl⟩ := binary_shape h
    have ⟨partLeft, others⟩ := List.forall_mem_cons.mp operates.parts
    have partRight := List.forall_mem_singleton.mp others
    obtain rfl := coercedLeft.eq_of_operates partLeft
    obtain rfl := coercedRight.eq_of_operates partRight
    exact .binary (hl partLeft) (hr partRight) h
  conditional condition yes no e hc hy hn h operates := by
    obtain ⟨condition', yes', no', _, _, ⟨coerced, coercedYes, coercedNo⟩, rfl⟩ :=
      conditional_shape h
    have ⟨part, others⟩ := List.forall_mem_cons.mp operates.parts
    have ⟨partYes, others⟩ := List.forall_mem_cons.mp others
    have partNo := List.forall_mem_singleton.mp others
    obtain rfl := coerced.eq_of_operates part
    obtain rfl := coercedYes.eq_of_operates partYes
    obtain rfl := coercedNo.eq_of_operates partNo
    exact .conditional (hc part) (hy partYes) (hn partNo) h
  member target name e ht h operates := by
    obtain ⟨t, found, rfl⟩ := member_shape h
    have part := List.forall_mem_singleton.mp operates.parts
    exact .member (ht part) (property_identifier found) h
  staticMember owner name e h operates := by
    obtain ⟨t, _, rfl⟩ := staticMember_shape h
    exact absurd operates (not_operates rfl)
  call target name args e ht hargs h operates := by
    rcases call_shape h with invoked | ⟨args', t, listed, coerced, rfl⟩
    · exact invoke_rebuilt ht hargs invoked operates
    · have ⟨first, others⟩ := List.forall_mem_cons.mp operates.parts
      obtain rfl := coerced_eq coerced others
      exact .call (ht first) (methods_identifier (List.ne_nil_of_mem listed))
        (fun arg mem => hargs arg mem (others arg mem)) h
  staticCall owner name args e hargs h operates := by
    obtain ⟨args', t, _, _, rfl⟩ := staticCall_shape h
    exact absurd operates (not_operates rfl)
  invoke delegate args e := invoke_rebuilt
  index target args e ht hargs h operates := by
    obtain ⟨args', t, _, _, coerced, rfl⟩ := index_shape h
    have ⟨first, others⟩ := List.forall_mem_cons.mp operates.parts
    obtain rfl := coerced_eq coerced others
    exact .index (ht first) (fun arg mem => hargs arg mem (others arg mem)) h
  newArray element items e hitems h operates := by
    obtain ⟨items', _, _, _, rfl⟩ := newArray_shape h
    exact absurd operates (not_operates rfl)
  assign target value e ht hv h operates := by
    obtain ⟨value', _, _, _, rfl⟩ := assign_shape h
    exact absurd operates (not_operates rfl)

end Builder.Standard

namespace Grammar

def Knows (s t : Scope) : Prop :=
  t.builder = .standard ∧ t.symbols = s.symbols

section Rules

variable {s : Scope} (keyed : s.Keyed)

include keyed

theorem rebuilding : Composition .standard (Knows s) fun e => e.Operates → e.Rebuilt s where
  composes := Builder.Standard.composes_rebuilt s
  builder _ h := h.1
  expecting _ _ h := h
  constant := by
    refine literal_keeps.filterMapState fun c value e hc plain eq operates => ?_
    rw [hc.1] at eq
    obtain rfl := Option.some.inj eq
    exact .constant (plain operates.root)
  use := by
    refine identifier_keeps.filterMapState fun c name e hc identifier found operates => ?_
    have ⟨v, found, eq⟩ := Option.map_eq_some_iff.mp found
    have found : s.lookup name = some v := by
      rw [Scope.lookup, ← hc.2]
      exact found
    obtain rfl := keyed.named name v found
    exact eq ▸ .var identifier found

omit keyed in
theorem lambdaOver_rebuilt (nested : Nested) :
    (lambdaOver nested).Keeps (In (Knows s)) fun e => e.Operates → e.Rebuilt s := by
  intro c hc r mem
  have ⟨params, read, _, _, _, body, _, made, tail⟩ := mem_lambdaOver mem
  have same := (parameters_moves.seqLeft (symbol_moves "=>") c params read).state_eq
  rw [same] at made tail
  have builder : c.state.builder = .standard := hc.1
  rw [builder] at made
  refine ⟨fun operates => ?_, tail ▸ hc⟩
  have ⟨_, _, _, eq, _⟩ := Builder.Standard.lambda_shape made
  exact absurd operates (Expr.not_operates (eq ▸ rfl))

theorem operands_at (depth : Nat) :
    (Nested.at depth).Operands (Knows s) fun e => e.Operates → e.Rebuilt s := by
  refine Nested.at_induction (P := (·.Operands (Knows s) fun e => e.Operates → e.Rebuilt s))
    ⟨fail_keeps, fail_keeps⟩ (fun nested h => ?_) depth
  have made := rebuilding keyed
  exact ⟨made.expressionOver h (lambdaOver_rebuilt nested), made.unaryOver h⟩

theorem expressionUnit_rebuilt :
    expressionUnit.Keeps (In (Knows s)) fun e => e.Operates → e.Rebuilt s := by
  have expression : expression.Keeps (In (Knows s)) fun e => e.Operates → e.Rebuilt s :=
    keeps_unbounded fun depth =>
      (rebuilding keyed).expressionOver (operands_at keyed depth) (lambdaOver_rebuilt _)
  exact ((keeps_of_moves whitespace_moves).seqRight expression).seqLeft endOfInput_keeps

end Rules

end Grammar

theorem parse_rebuilt {scope : Scope} (keyed : scope.Keyed) (builder : scope.builder = .standard)
    {source : String} {e : Expr} (h : parseExpression source scope = .ok e)
    (operates : e.Operates) : e.Rebuilt scope := by
  have ⟨r, parsed, eq⟩ := map_eq_ok.mp h
  have ⟨rebuilt, _⟩ := (Grammar.expressionUnit_rebuilt keyed).parse ⟨builder, rfl⟩ parsed
  exact eq ▸ rebuilt (eq ▸ operates)

end ExprTree
