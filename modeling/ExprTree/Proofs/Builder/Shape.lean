import Mathlib.Data.List.Forall2
import ExprTree.Builder.Standard

namespace ExprTree.Builder.Standard

open List (Forall₂)

section Coercion

variable {value e : Expr} {t : Ty}

inductive Wraps (part : Expr) : Expr → Prop
  | same : Wraps part part
  | converted (t : Ty) : Wraps part (.convert part t)

-- A value, and the value of a certain type that coercion makes of it.
inductive Coerced (value : Expr) : Expr → Prop
  | same : Coerced value value
  | converted {t : Ty} (other : value.ty ≠ t) (admitted : admits t value) :
      Coerced value (.convert value t)

theorem Coerced.wraps (h : Coerced value e) : Wraps value e := by
  cases h with
  | same => exact .same
  | @converted t => exact .converted t

theorem coerce_shape (h : coerce value t = .ok e) : Coerced value e ∧ e.ty = t := by
  rw [coerce] at h
  split at h
  case isTrue same => exact Except.ok.inj h ▸ ⟨.same, same⟩
  case isFalse other =>
    split at h
    case isTrue admitted => exact Except.ok.inj h ▸ ⟨.converted other admitted, rfl⟩
    case isFalse => simp at h

theorem coerceAll_shape {values es : List Expr} {ts : List Ty} (length : values.length = ts.length)
    (h : coerceAll values ts = .ok es) : Forall₂ Coerced values es ∧ es.map Expr.ty = ts := by
  induction values generalizing es ts with
  | nil =>
    obtain rfl := List.length_eq_zero_iff.mp length.symm
    exact Except.ok.inj h ▸ ⟨.nil, rfl⟩
  | cons value values ih =>
    cases ts with
    | nil => simp at length
    | cons t ts =>
      rw [coerceAll] at h
      have ⟨e, first, h⟩ := bind_eq_ok.mp h
      have ⟨es', others, h⟩ := bind_eq_ok.mp h
      have ⟨coerced, type⟩ := coerce_shape first
      have ⟨coerceds, types⟩ := ih (Nat.succ.inj length) others
      rw [← Except.ok.inj h, List.map_cons, type, types]
      exact ⟨.cons coerced coerceds, rfl⟩

theorem forall_of_coerced {P : Expr → Prop} (keeps : ∀ value e, Coerced value e → P value → P e)
    {values es : List Expr} (h : Forall₂ Coerced values es) (hv : ∀ value ∈ values, P value) :
    ∀ e ∈ es, P e := by
  induction h with
  | nil => nofun
  | cons first _ ih =>
    have ⟨head, tail⟩ := List.forall_mem_cons.mp hv
    exact List.forall_mem_cons.mpr ⟨keeps _ _ first head, ih tail⟩

theorem overload_shape {owner : Ty} {name : String} {candidates : List Ty.Signature}
    {args args' : List Expr} (h : overload owner name candidates args = .ok (args', t)) :
    ⟨args'.map Expr.ty, t⟩ ∈ candidates ∧ Forall₂ Coerced args args' := by
  rw [overload] at h
  split at h
  case isTrue => simp at h
  case isFalse =>
    split at h
    case h_1 => simp at h
    case h_2 s found =>
      have ⟨coerced, all, eq⟩ := map_eq_ok.mp h
      have accepted := List.find?_some found
      rw [accepts, Bool.and_eq_true, beq_iff_eq] at accepted
      have ⟨coerceds, types⟩ := coerceAll_shape accepted.1.symm all
      have ⟨eq, result⟩ := Prod.mk.inj eq
      rw [← eq, types, ← result]
      exact ⟨List.mem_of_find?_eq_some found, coerceds⟩

end Coercion

section Operator

variable {t l r : Ty}

theorem unaryTy_cases {op : UnaryOp} (h : unaryTy op t = some r) :
    (op = .not ∧ t = .bool ∧ r = .bool) ∨
      (op = .negate ∧ t.promoteUnary = some .uint ∧ r = .long) ∨
      (op ≠ .not ∧ t.promoteUnary = some r ∧ (op = .negate → r ≠ .uint ∧ r ≠ .ulong) ∧
        (op = .complement → r.isIntegral)) := by
  cases op with
  | not =>
    rw [unaryTy] at h
    split at h
    case isTrue bool => exact .inl ⟨rfl, bool, (Option.some.inj h).symm⟩
    case isFalse => simp at h
  | negate =>
    rw [unaryTy] at h
    split at h
    case h_1 promoted => exact .inr (.inl ⟨rfl, promoted, (Option.some.inj h).symm⟩)
    case h_2 => simp at h
    case h_3 uint ulong =>
      refine .inr (.inr ⟨by decide, h, fun _ => ⟨fun eq => uint ?_, fun eq => ulong ?_⟩, nofun⟩)
      · rw [h, eq]
      · rw [h, eq]
  | complement =>
    have ⟨promoted, integral⟩ := Option.filter_eq_some_iff.mp h
    exact .inr (.inr ⟨by decide, promoted, nofun, fun _ => integral⟩)
  | _ => exact .inr (.inr ⟨by decide, h, nofun, nofun⟩)

theorem equalityTy_cases (h : equalityTy l r = some t) :
    l.promote r = some t ∨ (l = t ∧ r = t ∧ t ≠ .void) ∨
      (l = t ∧ t.isReference ∧ r.convertsTo t) ∨ (r = t ∧ t.isReference ∧ l.convertsTo t) := by
  rw [equalityTy] at h
  split at h
  case h_1 promoted => exact .inl (promoted.trans h)
  case h_2 =>
    split at h
    case isTrue same =>
      simp only [Bool.and_eq_true, decide_eq_true_eq, bne_iff_ne] at same
      obtain rfl := Option.some.inj h
      exact .inr (.inl ⟨rfl, same.1.symm, same.2⟩)
    case isFalse =>
      split at h
      case isTrue left =>
        obtain rfl := Option.some.inj h
        exact .inr (.inr (.inl ⟨rfl, Bool.and_eq_true_iff.mp left⟩))
      case isFalse =>
        split at h
        case isTrue right =>
          obtain rfl := Option.some.inj h
          exact .inr (.inr (.inr ⟨rfl, Bool.and_eq_true_iff.mp right⟩))
        case isFalse => simp at h

theorem coalesceTy_cases (h : coalesceTy l r = some t) :
    l.isReference ∧ ((l = t ∧ t ≠ .null ∧ r.convertsTo t) ∨ (r = t ∧ l.convertsTo t)) := by
  rw [coalesceTy] at h
  split at h
  case isTrue => simp at h
  case isFalse reference =>
    rw [Bool.not_eq_true, Bool.not_eq_false'] at reference
    refine ⟨reference, ?_⟩
    split at h
    case isTrue left =>
      rw [Bool.and_eq_true, bne_iff_ne] at left
      obtain rfl := Option.some.inj h
      exact .inl ⟨rfl, left.2, left.1⟩
    case isFalse =>
      split at h
      case isTrue right =>
        obtain rfl := Option.some.inj h
        exact .inr ⟨rfl, right⟩
      case isFalse => simp at h

-- The ways in which an operator chooses the types it works in.
inductive Chooses (l r : Ty) : BinaryOp → Operation → Prop
  | concatenation (string : l = .string ∨ r = .string) (left : l ≠ .void) (right : r ≠ .void) :
      Chooses l r .add ⟨l, r, .string⟩
  | arithmetic {op : BinaryOp} {t : Ty}
      (listed : op ∈ [.add, .subtract, .multiply, .divide, .modulo])
      (promoted : l.promote r = some t) : Chooses l r op (.uniform t)
  | shift {op : BinaryOp} {t : Ty} (listed : op ∈ [.leftShift, .rightShift])
      (promoted : l.promoteUnary = some t) (integral : t.isIntegral) (count : r.convertsTo .int) :
      Chooses l r op ⟨t, .int, t⟩
  | order {op : BinaryOp} {t : Ty}
      (listed : op ∈ [.lessThan, .greaterThan, .lessThanOrEqual, .greaterThanOrEqual])
      (promoted : l.promote r = some t) : Chooses l r op (.comparing t)
  | equality {op : BinaryOp} {t : Ty} (listed : op ∈ [.equal, .notEqual])
      (compared : equalityTy l r = some t) : Chooses l r op (.comparing t)
  | logic {op : BinaryOp} (listed : op ∈ [.and, .or, .exclusiveOr, .andAlso, .orElse])
      (left : l = .bool) (right : r = .bool) : Chooses l r op (.uniform .bool)
  | bitwise {op : BinaryOp} {t : Ty} (listed : op ∈ [.and, .or, .exclusiveOr])
      (promoted : l.promote r = some t) (integral : t.isIntegral) : Chooses l r op (.uniform t)
  | coalescing {t : Ty} (chosen : coalesceTy l r = some t) : Chooses l r .coalesce (.uniform t)

theorem operation_chooses {op : BinaryOp} {o : Operation} (h : operation op l r = some o) :
    Chooses l r op o := by
  cases op with
  | add =>
    rw [operation] at h
    split at h
    case isTrue string =>
      simp only [Bool.and_eq_true, Bool.or_eq_true, decide_eq_true_eq, bne_iff_ne] at string
      exact Option.some.inj h ▸ .concatenation string.1.1 string.1.2 string.2
    case isFalse =>
      have ⟨t, promoted, eq⟩ := Option.map_eq_some_iff.mp h
      exact eq ▸ .arithmetic (by decide) promoted
  | subtract | multiply | divide | modulo =>
    have ⟨t, promoted, eq⟩ := Option.map_eq_some_iff.mp h
    exact eq ▸ .arithmetic (by decide) promoted
  | leftShift | rightShift =>
    rw [operation] at h
    split at h
    case h_2 => simp at h
    case h_1 t promoted =>
      have ⟨promoted, integral⟩ := Option.filter_eq_some_iff.mp promoted
      split at h
      case isFalse => simp at h
      case isTrue count => exact Option.some.inj h ▸ .shift (by decide) promoted integral count
  | lessThan | greaterThan | lessThanOrEqual | greaterThanOrEqual =>
    have ⟨t, promoted, eq⟩ := Option.map_eq_some_iff.mp h
    exact eq ▸ .order (by decide) promoted
  | equal | notEqual =>
    have ⟨t, compared, eq⟩ := Option.map_eq_some_iff.mp h
    exact eq ▸ .equality (by decide) compared
  | and | or | exclusiveOr =>
    rw [operation] at h
    split at h
    case isTrue both =>
      simp only [Bool.and_eq_true, decide_eq_true_eq] at both
      exact Option.some.inj h ▸ .logic (by decide) both.1 both.2
    case isFalse =>
      have ⟨t, promoted, eq⟩ := Option.map_eq_some_iff.mp h
      have ⟨promoted, integral⟩ := Option.filter_eq_some_iff.mp promoted
      exact eq ▸ .bitwise (by decide) promoted integral
  | andAlso | orElse =>
    rw [operation] at h
    split at h
    case isTrue both =>
      simp only [Bool.and_eq_true, decide_eq_true_eq] at both
      exact Option.some.inj h ▸ .logic (by decide) both.1 both.2
    case isFalse => simp at h
  | coalesce =>
    have ⟨t, chosen, eq⟩ := Option.map_eq_some_iff.mp h
    exact eq ▸ .coalescing chosen

end Operator

section Node

variable {e : Expr} {t : Ty}

theorem defaultValue_shape (h : defaultValue t = .ok e) : hasValues t ∧ e = .defaultValue t := by
  rw [defaultValue] at h
  split at h
  case isTrue values => exact ⟨values, (Except.ok.inj h).symm⟩
  case isFalse => simp at h

theorem typeOf_shape (h : typeOf t = .ok e) : t ≠ .null ∧ e = literal (.type t) := by
  rw [typeOf] at h
  split at h
  case isTrue => simp at h
  case isFalse other => exact ⟨other, (Except.ok.inj h).symm⟩

theorem unary_shape {op : UnaryOp} {operand : Expr} (h : unary op operand = .ok e) :
    ∃ operand', Coerced operand operand' ∧ e = .unary op operand' operand'.ty ∧
      ((op.isMutating ∧ operand'.isAssignable ∧ operand'.ty.isNumeric) ∨
        (op.isMutating = false ∧ unaryTy op operand.ty = some operand'.ty)) := by
  simp only [unary] at h
  split at h
  case isTrue mutating =>
    split at h
    case isTrue => simp at h
    case isFalse assignable =>
      split at h
      case isTrue => simp at h
      case isFalse numeric =>
        rw [Bool.not_eq_true, Bool.not_eq_false'] at assignable numeric
        exact ⟨operand, .same, (Except.ok.inj h).symm, .inl ⟨mutating, assignable, numeric⟩⟩
  case isFalse plain =>
    split at h
    case h_1 => simp at h
    case h_2 t chosen =>
      have ⟨operand', coerced, eq⟩ := map_eq_ok.mp h
      have ⟨coerced, type⟩ := coerce_shape coerced
      rw [← type] at chosen eq
      exact ⟨operand', coerced, eq.symm, .inr ⟨Bool.eq_false_iff.mpr plain, chosen⟩⟩

theorem binary_shape {op : BinaryOp} {left right : Expr} (h : binary op left right = .ok e) :
    ∃ left' right' t, operation op left.ty right.ty = some ⟨left'.ty, right'.ty, t⟩ ∧
      Coerced left left' ∧ Coerced right right' ∧ e = .binary op left' right' t := by
  rw [binary] at h
  split at h
  case h_1 => simp at h
  case h_2 o chosen =>
    have ⟨left', coerced, h⟩ := bind_eq_ok.mp h
    have ⟨coercedLeft, leftTy⟩ := coerce_shape coerced
    have ⟨right', coerced, h⟩ := bind_eq_ok.mp h
    have ⟨coercedRight, rightTy⟩ := coerce_shape coerced
    refine ⟨left', right', o.result, ?_, coercedLeft, coercedRight, (Except.ok.inj h).symm⟩
    rw [chosen, leftTy, rightTy]

theorem conditional_shape {condition yes no : Expr} (h : conditional condition yes no = .ok e) :
    ∃ condition' yes' no', choiceTy yes.ty no.ty = .ok yes'.ty ∧
      (condition'.ty = .bool ∧ no'.ty = yes'.ty) ∧
      (Coerced condition condition' ∧ Coerced yes yes' ∧ Coerced no no') ∧
      e = .conditional condition' yes' no' yes'.ty := by
  have ⟨condition', coerced, h⟩ := bind_eq_ok.mp h
  have ⟨coercedCondition, bool⟩ := coerce_shape coerced
  have ⟨t, chosen, h⟩ := bind_eq_ok.mp h
  have ⟨yes', coerced, h⟩ := bind_eq_ok.mp h
  have ⟨coercedYes, yesTy⟩ := coerce_shape coerced
  have ⟨no', coerced, h⟩ := bind_eq_ok.mp h
  have ⟨coercedNo, noTy⟩ := coerce_shape coerced
  subst yesTy
  exact ⟨condition', yes', no', chosen, ⟨bool, noTy⟩, ⟨coercedCondition, coercedYes, coercedNo⟩,
    (Except.ok.inj h).symm⟩

theorem member_shape {target : Expr} {name : String} (h : member target name = .ok e) :
    ∃ t, Members.property? target.ty name = some t ∧ e = .member target target.ty name t := by
  rw [member] at h
  split at h
  case h_1 => simp at h
  case h_2 t found => exact ⟨t, found, (Except.ok.inj h).symm⟩

theorem staticMember_shape {owner : Ty} {name : String} (h : staticMember owner name = .ok e) :
    ∃ t, Members.staticProperty? owner name = some t ∧ e = .staticMember owner name t := by
  rw [staticMember] at h
  split at h
  case h_1 => simp at h
  case h_2 t found => exact ⟨t, found, (Except.ok.inj h).symm⟩

theorem invoke_shape {delegate : Expr} {args : List Expr} (h : invoke delegate args = .ok e) :
    ∃ args' t, delegate.ty.signature? = some ⟨args'.map Expr.ty, t⟩ ∧
      Forall₂ Coerced args args' ∧ e = .invoke delegate args' t := by
  rw [invoke] at h
  split at h
  case h_1 => simp at h
  case h_2 s signature =>
    split at h
    case isFalse => simp at h
    case isTrue length =>
      have ⟨args', coerced, eq⟩ := map_eq_ok.mp h
      have ⟨coerceds, types⟩ := coerceAll_shape length.symm coerced
      refine ⟨args', s.result, ?_, coerceds, eq.symm⟩
      rw [signature, types]

theorem call_shape {target : Expr} {method : String} {args : List Expr}
    (h : call target method args = .ok e) :
    invoke target args = .ok e ∨
      ∃ args' t, ⟨args'.map Expr.ty, t⟩ ∈ Members.methods target.ty method ∧
        Forall₂ Coerced args args' ∧ e = .call target target.ty method args' t := by
  simp only [call] at h
  split at h
  case isTrue => exact .inl h
  case isFalse =>
    have ⟨(args', t), chosen, eq⟩ := map_eq_ok.mp h
    have ⟨listed, coerceds⟩ := overload_shape chosen
    exact .inr ⟨args', t, listed, coerceds, eq.symm⟩

theorem staticCall_shape {owner : Ty} {method : String} {args : List Expr}
    (h : staticCall owner method args = .ok e) :
    ∃ args' t, ⟨args'.map Expr.ty, t⟩ ∈ Members.staticMethods owner method ∧
      Forall₂ Coerced args args' ∧ e = .staticCall owner method args' t := by
  have ⟨(args', t), chosen, eq⟩ := map_eq_ok.mp h
  have ⟨listed, coerceds⟩ := overload_shape chosen
  exact ⟨args', t, listed, coerceds, eq.symm⟩

theorem index_shape {target : Expr} {args : List Expr} (h : index target args = .ok e) :
    ∃ args' t, elementTy target.ty = some t ∧ args'.map Expr.ty = [.int] ∧
      Forall₂ Coerced args args' ∧ e = .index target args' t := by
  unfold index at h
  split at h
  case h_2 => simp at h
  case h_1 t arg element =>
    have ⟨arg', coerced, eq⟩ := map_eq_ok.mp h
    have ⟨coerced, type⟩ := coerce_shape coerced
    exact ⟨[arg'], t, element, congrArg (fun t => [t]) type, .cons coerced .nil, eq.symm⟩

theorem newArray_shape {element : Ty} {items : List Expr} (h : newArray element items = .ok e) :
    ∃ items', hasValues element ∧ (∀ item ∈ items', item.ty = element) ∧
      Forall₂ Coerced items items' ∧ e = .newArray element items' (.array element) := by
  rw [newArray] at h
  split at h
  case isFalse => simp at h
  case isTrue values =>
    have ⟨items', coerced, eq⟩ := map_eq_ok.mp h
    have ⟨coerceds, types⟩ := coerceAll_shape (List.length_map _).symm coerced
    refine ⟨items', values, fun item mem => ?_, coerceds, eq.symm⟩
    have mem := types ▸ List.mem_map_of_mem (f := Expr.ty) mem
    have ⟨_, _, eq⟩ := List.mem_map.mp mem
    exact eq.symm

theorem signature_of_signatureFor? {expected : Option Ty} {params : List Ty} {s : Ty.Signature}
    (h : Ty.signatureFor? expected params = some s) :
    ∃ t, expected = some t ∧ t.signature? = some ⟨params, s.result⟩ := by
  have ⟨t, expects, h⟩ := Option.bind_eq_some_iff.mp h
  have ⟨_, signature, h⟩ := Option.bind_eq_some_iff.mp h
  split at h
  case isFalse => simp at h
  case isTrue same =>
    rw [← Option.some.inj h, ← same]
    exact ⟨t, expects, signature⟩

theorem lambda_shape {expected : Option Ty} {params : List Symbol} {body : Expr}
    (h : lambda expected params body = .ok e) :
    ∃ body' t, Coerced body body' ∧ e = .lambda params body' t ∧
      ((expected = some t ∧ ∃ result, t.signature? = some ⟨params.map (·.ty), result⟩ ∧
          (result = .void ∨ body'.ty = result)) ∨
        (t = .delegate (params.map (·.ty)) body'.ty ∧ body'.ty ≠ .null)) := by
  unfold lambda at h
  split at h
  case h_1 t s expects =>
    have ⟨_, eq, signature⟩ := signature_of_signatureFor? expects
    rw [← Option.some.inj eq] at signature
    split at h
    case isTrue void =>
      exact ⟨body, t, .same, (Except.ok.inj h).symm, .inl ⟨rfl, s.result, signature, .inl void⟩⟩
    case isFalse =>
      split at h
      case h_2 => simp at h
      case h_1 body' coerced =>
        have ⟨coerced, type⟩ := coerce_shape coerced
        exact ⟨body', t, coerced, (Except.ok.inj h).symm,
          .inl ⟨rfl, s.result, signature, .inr type⟩⟩
  case h_2 =>
    split at h
    case isTrue => simp at h
    case isFalse null => exact ⟨body, _, .same, (Except.ok.inj h).symm, .inr ⟨rfl, null⟩⟩

theorem declare_shape {name : String} {v : Symbol} (h : declare name t = .ok v) :
    hasValues t ∧ v = ⟨name, t⟩ := by
  rw [declare] at h
  split at h
  case isTrue values => exact ⟨values, (Except.ok.inj h).symm⟩
  case isFalse => simp at h

theorem assign_shape {target assigned : Expr} (h : assign target assigned = .ok e) :
    ∃ assigned', target.isAssignable ∧ assigned'.ty = target.ty ∧ Coerced assigned assigned' ∧
      e = .assign target assigned' target.ty := by
  rw [assign] at h
  split at h
  case isFalse => simp at h
  case isTrue assignable =>
    have ⟨assigned', coerced, eq⟩ := map_eq_ok.mp h
    have ⟨coerced, type⟩ := coerce_shape coerced
    exact ⟨assigned', assignable, type, coerced, eq.symm⟩

end Node

end ExprTree.Builder.Standard
