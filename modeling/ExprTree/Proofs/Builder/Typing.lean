import ExprTree.Proofs.Builder.Shape
import ExprTree.Proofs.Expr.Typing

namespace ExprTree

namespace Ty

variable {t l r : Ty}

theorem mem_arithmetic_of_promote (h : l.promote r = some t) : t ∈ arithmetic := by
  unfold promote at h
  split at h
  case h_2 => simp at h
  case h_1 p q =>
    have ⟨result, promoted, eq⟩ := Option.map_eq_some_iff.mp h
    rw [← eq]
    -- Whatever the operands are, every branch yields one of the seven types.
    simp only [Primitive.promote] at promoted
    repeat' split at promoted
    all_goals cases promoted <;> simp [arithmetic]

theorem mem_arithmetic_of_promoteUnary (h : t.promoteUnary = some r) : r ∈ arithmetic := by
  cases t with
  | prim p =>
    revert h
    cases p <;> simp [promoteUnary, Primitive.promoteUnary, Primitive.isNumeric,
      Primitive.isIntegral, arithmetic] <;> rintro rfl <;> simp
  | _ => simp [promoteUnary] at h

theorem isReference_of_convertsTo (hl : l.isReference) (h : l.convertsTo r) : r.isReference := by
  unfold convertsTo at h
  split at h
  case isTrue eq => exact eq ▸ hl
  case isFalse =>
    split at h
    case isTrue eq => exact eq ▸ rfl
    case isFalse =>
      split at h
      case h_1 => exact h
      case h_2 p q _ _ =>
        -- Neither of the two predefined references widens to anything.
        cases p <;> simp [isReference, Primitive.isReference] at hl
        all_goals cases q <;> simp [Primitive.widensTo, Primitive.isIntegral] at h
      case h_3 => simp at h

end Ty

namespace Builder.Standard

open ExprTree.Expr (WellTyped wellTyped_iff)

theorem hasValues_iff {t : Ty} : hasValues t ↔ t.HasValues := by
  simp [hasValues, Ty.HasValues]

theorem Coerced.wellTyped {value e : Expr} (h : Coerced value e) (hv : value.WellTyped) :
    e.WellTyped := by
  cases h with
  | same => exact hv
  | converted other admitted =>
    refine wellTyped_iff.mpr ⟨⟨other, ?_⟩, List.forall_mem_singleton.mpr hv⟩
    rw [admits, Bool.or_eq_true] at admitted
    exact admitted

section Operator

theorem unaryTy_typed {op : UnaryOp} {t r : Ty} (plain : op.isMutating = false)
    (h : unaryTy op t = some r) (operand : Expr) : op.Typed operand r := by
  rcases unaryTy_cases h with ⟨rfl, _, bool⟩ | ⟨rfl, _, rfl⟩ | ⟨other, promoted, signed, integral⟩
  · exact bool
  · exact ⟨by decide, by decide, by decide⟩
  · have arithmetic := Ty.mem_arithmetic_of_promoteUnary promoted
    cases op with
    | not => exact absurd rfl other
    | negate => exact ⟨arithmetic, signed rfl⟩
    | plus => exact arithmetic
    | complement => exact ⟨arithmetic, integral rfl⟩
    | _ => simp [UnaryOp.isMutating] at plain

theorem mem_integral {t : Ty} (h : t ∈ Ty.arithmetic) (integral : t.isIntegral) :
    t ∈ [Ty.int, Ty.uint, Ty.long, Ty.ulong] := by
  simp only [Ty.arithmetic, List.mem_cons, List.not_mem_nil, or_false] at h
  rcases h with rfl | rfl | rfl | rfl | rfl | rfl | rfl
  all_goals first
    | decide
    | cases integral

theorem equalityTy_ne_void {l r t : Ty} (h : equalityTy l r = some t) : t ≠ .void := by
  -- Neither arithmetic nor a reference is `void`.
  have arithmetic : Ty.void ∉ Ty.arithmetic := by decide
  have reference : ¬Ty.void.isReference := by decide
  rcases equalityTy_cases h with promoted | ⟨_, _, some⟩ | ⟨_, left, _⟩ | ⟨_, right, _⟩
  · exact fun eq => arithmetic (eq ▸ Ty.mem_arithmetic_of_promote promoted)
  · exact some
  · exact fun eq => reference (eq ▸ left)
  · exact fun eq => reference (eq ▸ right)

theorem coalesceTy_isReference {l r t : Ty} (h : coalesceTy l r = some t) : t.isReference := by
  have ⟨left, chosen⟩ := coalesceTy_cases h
  rcases chosen with ⟨eq, _⟩ | ⟨_, converts⟩
  · exact eq ▸ left
  · exact Ty.isReference_of_convertsTo left converts

theorem operation_typed {op : BinaryOp} {l r : Ty} {o : Operation}
    (h : operation op l r = some o) : op.Typed o.left o.right o.result := by
  cases operation_chooses h with
  | concatenation string left right => exact .inl ⟨rfl, string, left, right⟩
  | arithmetic listed promoted =>
    have arithmetic := Ty.mem_arithmetic_of_promote promoted
    simp only [List.mem_cons, List.not_mem_nil, or_false] at listed
    rcases listed with rfl | rfl | rfl | rfl | rfl
    · exact .inr ⟨rfl, rfl, arithmetic⟩
    all_goals exact ⟨rfl, rfl, arithmetic⟩
  | shift listed promoted integral _ =>
    have integral := mem_integral (Ty.mem_arithmetic_of_promoteUnary promoted) integral
    simp only [List.mem_cons, List.not_mem_nil, or_false] at listed
    rcases listed with rfl | rfl <;> exact ⟨rfl, rfl, integral⟩
  | order listed promoted =>
    have arithmetic := Ty.mem_arithmetic_of_promote promoted
    simp only [List.mem_cons, List.not_mem_nil, or_false] at listed
    rcases listed with rfl | rfl | rfl | rfl <;> exact ⟨rfl, rfl, arithmetic⟩
  | equality listed compared =>
    have some := equalityTy_ne_void compared
    simp only [List.mem_cons, List.not_mem_nil, or_false] at listed
    rcases listed with rfl | rfl <;> exact ⟨rfl, rfl, some⟩
  | logic listed _ _ =>
    simp only [List.mem_cons, List.not_mem_nil, or_false] at listed
    rcases listed with rfl | rfl | rfl | rfl | rfl
    case inr.inr.inr.inl | inr.inr.inr.inr => exact ⟨rfl, rfl, rfl⟩
    all_goals exact ⟨rfl, rfl, .inl rfl⟩
  | bitwise listed promoted integral =>
    have integral := mem_integral (Ty.mem_arithmetic_of_promote promoted) integral
    simp only [List.mem_cons, List.not_mem_nil, or_false] at listed
    rcases listed with rfl | rfl | rfl <;> exact ⟨rfl, rfl, .inr integral⟩
  | coalescing chosen => exact ⟨rfl, rfl, coalesceTy_isReference chosen⟩

end Operator

section Node

variable {e : Expr}

theorem literal_wellTyped (value : Literal) : (literal value).WellTyped :=
  wellTyped_iff.mpr ⟨rfl, List.forall_mem_nil _⟩

theorem defaultValue_wellTyped {t : Ty} (h : defaultValue t = .ok e) : e.WellTyped := by
  obtain ⟨values, rfl⟩ := defaultValue_shape h
  exact wellTyped_iff.mpr ⟨hasValues_iff.mp values, List.forall_mem_nil _⟩

theorem typeOf_wellTyped {t : Ty} (h : typeOf t = .ok e) : e.WellTyped := by
  obtain ⟨_, rfl⟩ := typeOf_shape h
  exact literal_wellTyped _

theorem unary_wellTyped {op : UnaryOp} {operand : Expr} (ho : operand.WellTyped)
    (h : unary op operand = .ok e) : e.WellTyped := by
  obtain ⟨operand', coerced, rfl, works⟩ := unary_shape h
  refine wellTyped_iff.mpr ⟨⟨rfl, ?_⟩, List.forall_mem_singleton.mpr (coerced.wellTyped ho)⟩
  rcases works with ⟨mutating, assignable, numeric⟩ | ⟨plain, chosen⟩
  · cases op <;> simp_all [UnaryOp.isMutating, UnaryOp.Typed]
  · exact unaryTy_typed plain chosen operand'

theorem binary_wellTyped {op : BinaryOp} {left right : Expr} (hl : left.WellTyped)
    (hr : right.WellTyped) (h : binary op left right = .ok e) : e.WellTyped := by
  obtain ⟨left', right', t, chosen, coercedLeft, coercedRight, rfl⟩ := binary_shape h
  refine wellTyped_iff.mpr ⟨operation_typed chosen, List.forall_mem_cons.mpr ⟨?_, ?_⟩⟩
  · exact coercedLeft.wellTyped hl
  · exact List.forall_mem_singleton.mpr (coercedRight.wellTyped hr)

theorem conditional_wellTyped {condition yes no : Expr} (hc : condition.WellTyped)
    (hy : yes.WellTyped) (hn : no.WellTyped) (h : conditional condition yes no = .ok e) :
    e.WellTyped := by
  obtain ⟨condition', yes', no', _, ⟨bool, noTy⟩, ⟨coercedCondition, coercedYes, coercedNo⟩, rfl⟩ :=
    conditional_shape h
  exact wellTyped_iff.mpr ⟨⟨bool, rfl, noTy⟩, List.forall_mem_cons.mpr
    ⟨coercedCondition.wellTyped hc, List.forall_mem_cons.mpr
      ⟨coercedYes.wellTyped hy, List.forall_mem_singleton.mpr (coercedNo.wellTyped hn)⟩⟩⟩

theorem member_wellTyped {target : Expr} {name : String} (ht : target.WellTyped)
    (h : member target name = .ok e) : e.WellTyped := by
  obtain ⟨t, found, rfl⟩ := member_shape h
  exact wellTyped_iff.mpr ⟨⟨rfl, found⟩, List.forall_mem_singleton.mpr ht⟩

theorem staticMember_wellTyped {owner : Ty} {name : String}
    (h : staticMember owner name = .ok e) : e.WellTyped := by
  obtain ⟨t, found, rfl⟩ := staticMember_shape h
  exact wellTyped_iff.mpr ⟨found, List.forall_mem_nil _⟩

theorem coerced_wellTyped {values es : List Expr} (h : List.Forall₂ Coerced values es)
    (hvs : ∀ value ∈ values, value.WellTyped) : ∀ e ∈ es, e.WellTyped :=
  forall_of_coerced (fun _ _ => Coerced.wellTyped) h hvs

theorem invoke_wellTyped {delegate : Expr} {args : List Expr} (hd : delegate.WellTyped)
    (hargs : ∀ arg ∈ args, arg.WellTyped) (h : invoke delegate args = .ok e) : e.WellTyped := by
  obtain ⟨args', t, signature, coerced, rfl⟩ := invoke_shape h
  exact wellTyped_iff.mpr
    ⟨signature, List.forall_mem_cons.mpr ⟨hd, coerced_wellTyped coerced hargs⟩⟩

theorem call_wellTyped {target : Expr} {method : String} {args : List Expr}
    (ht : target.WellTyped) (hargs : ∀ arg ∈ args, arg.WellTyped)
    (h : call target method args = .ok e) : e.WellTyped := by
  rcases call_shape h with invoked | ⟨args', t, listed, coerced, rfl⟩
  · exact invoke_wellTyped ht hargs invoked
  · exact wellTyped_iff.mpr
      ⟨⟨rfl, listed⟩, List.forall_mem_cons.mpr ⟨ht, coerced_wellTyped coerced hargs⟩⟩

theorem staticCall_wellTyped {owner : Ty} {method : String} {args : List Expr}
    (hargs : ∀ arg ∈ args, arg.WellTyped) (h : staticCall owner method args = .ok e) :
    e.WellTyped := by
  obtain ⟨args', t, listed, coerced, rfl⟩ := staticCall_shape h
  exact wellTyped_iff.mpr ⟨listed, coerced_wellTyped coerced hargs⟩

theorem index_wellTyped {target : Expr} {args : List Expr} (ht : target.WellTyped)
    (hargs : ∀ arg ∈ args, arg.WellTyped) (h : index target args = .ok e) : e.WellTyped := by
  obtain ⟨args', t, element, types, coerced, rfl⟩ := index_shape h
  refine wellTyped_iff.mpr
    ⟨⟨types, ?_⟩, List.forall_mem_cons.mpr ⟨ht, coerced_wellTyped coerced hargs⟩⟩
  unfold elementTy at element
  split at element
  case h_1 array => exact .inl (Option.some.inj element ▸ array)
  case h_2 string => exact .inr ⟨string, (Option.some.inj element).symm⟩
  case h_3 => simp at element

theorem newArray_wellTyped {element : Ty} {items : List Expr}
    (hitems : ∀ item ∈ items, item.WellTyped) (h : newArray element items = .ok e) :
    e.WellTyped := by
  obtain ⟨items', values, types, coerced, rfl⟩ := newArray_shape h
  exact wellTyped_iff.mpr
    ⟨⟨rfl, hasValues_iff.mp values, types⟩, coerced_wellTyped coerced hitems⟩

theorem lambda_wellTyped {expected : Option Ty} {params : List Symbol} {body : Expr}
    (hparams : ∀ v ∈ params, v.ty.HasValues) (hbody : body.WellTyped)
    (h : lambda expected params body = .ok e) : e.WellTyped := by
  obtain ⟨body', t, coerced, rfl, delegate⟩ := lambda_shape h
  exact wellTyped_iff.mpr ⟨⟨hparams, delegate.imp_left And.right⟩,
    List.forall_mem_singleton.mpr (coerced.wellTyped hbody)⟩

theorem block_wellTyped {locals : List Symbol} {body : List Expr}
    (hlocals : ∀ v ∈ locals, v.ty.HasValues) (hbody : ∀ e ∈ body, e.WellTyped)
    (h : block locals body = .ok e) : e.WellTyped :=
  Except.ok.inj h ▸ wellTyped_iff.mpr ⟨⟨hlocals, rfl⟩, hbody⟩

theorem declare_hasValues {name : String} {t : Ty} {v : Symbol} (h : declare name t = .ok v) :
    v.ty.HasValues := by
  obtain ⟨values, rfl⟩ := declare_shape h
  exact hasValues_iff.mp values

theorem assign_wellTyped {target value : Expr} (ht : target.WellTyped) (hv : value.WellTyped)
    (h : assign target value = .ok e) : e.WellTyped := by
  obtain ⟨value', assignable, type, coerced, rfl⟩ := assign_shape h
  exact wellTyped_iff.mpr ⟨⟨assignable, rfl, type⟩, List.forall_mem_cons.mpr
    ⟨ht, List.forall_mem_singleton.mpr (coerced.wellTyped hv)⟩⟩

end Node

end Builder.Standard

end ExprTree
