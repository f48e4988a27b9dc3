import ExprTree.Proofs.Builder.Shape

namespace ExprTree

namespace Ty

variable {t l r : Ty}

@[simp]
theorem convertsTo_refl (t : Ty) : t.convertsTo t := by
  simp [convertsTo]

theorem convertsTo_of_promote (h : l.promote r = some t) : l.convertsTo t ∧ r.convertsTo t := by
  have table : ∀ p ∈ Primitive.all, ∀ q ∈ Primitive.all, ∀ s ∈ p.promote q,
      (prim p).convertsTo (prim s) ∧ (prim q).convertsTo (prim s) := by decide
  unfold promote at h
  split at h
  case h_1 p q =>
    have ⟨s, promoted, eq⟩ := Option.map_eq_some_iff.mp h
    exact eq ▸ table p p.mem_all q q.mem_all s promoted
  case h_2 => simp at h

theorem convertsTo_of_promoteUnary (h : t.promoteUnary = some r) : t.convertsTo r := by
  have table : ∀ p ∈ Primitive.all, ∀ s ∈ p.promoteUnary, (prim p).convertsTo (prim s) := by decide
  cases t with
  | prim p =>
    have ⟨s, promoted, eq⟩ := Option.map_eq_some_iff.mp h
    exact eq ▸ table p p.mem_all s promoted
  | _ => simp [promoteUnary] at h

theorem eq_uint_of_promoteUnary (h : t.promoteUnary = some .uint) : t = .uint := by
  have table : ∀ p ∈ Primitive.all, (prim p).promoteUnary = some .uint → prim p = .uint := by decide
  cases t with
  | prim p => exact table p p.mem_all h
  | _ => simp [promoteUnary] at h

end Ty

namespace Builder.Standard

open TypeError
open List (Forall₂)

section Coercion

variable {value : Expr} {t : Ty}

theorem coerce_of_admits (h : admits t value) : ∃ e, coerce value t = .ok e := by
  rw [coerce]
  split
  case isTrue => exact ⟨value, rfl⟩
  case isFalse => exact ⟨.convert value t, rfl⟩

theorem admits_iff : admits t value ↔ value.ty.convertsTo t ∨ fitsConstant value t := by
  rw [admits, Bool.or_eq_true]

theorem admits_of_convertsTo (h : value.ty.convertsTo t) : admits t value :=
  admits_iff.mpr (.inl h)

theorem coerceAll_of_admits {args : List Expr} {ts : List Ty}
    (h : Forall₂ (fun arg t => admits t arg) args ts) : ∃ args', coerceAll args ts = .ok args' := by
  induction h with
  | nil => exact ⟨[], rfl⟩
  | cons admitted _ ih =>
    have ⟨e, coerced⟩ := coerce_of_admits admitted
    have ⟨es, others⟩ := ih
    exact ⟨e :: es, by rw [coerceAll, coerced, others]; rfl⟩

end Coercion

section Operator

variable {l r t : Ty} {o : Operation}

theorem unaryTy_converts {op : UnaryOp} (h : unaryTy op t = some r) : t.convertsTo r := by
  rcases unaryTy_cases h with ⟨_, rfl, rfl⟩ | ⟨_, promoted, rfl⟩ | ⟨_, promoted, _⟩
  · rfl
  · rw [Ty.eq_uint_of_promoteUnary promoted]
    rfl
  · exact Ty.convertsTo_of_promoteUnary promoted

theorem equalityTy_converts (h : equalityTy l r = some t) : l.convertsTo t ∧ r.convertsTo t := by
  rcases equalityTy_cases h with
    promoted | ⟨rfl, rfl, _⟩ | ⟨rfl, _, converts⟩ | ⟨rfl, _, converts⟩
  · exact Ty.convertsTo_of_promote promoted
  · exact ⟨Ty.convertsTo_refl _, Ty.convertsTo_refl _⟩
  · exact ⟨Ty.convertsTo_refl _, converts⟩
  · exact ⟨converts, Ty.convertsTo_refl _⟩

theorem coalesceTy_converts (h : coalesceTy l r = some t) : l.convertsTo t ∧ r.convertsTo t := by
  rcases coalesceTy_cases h with ⟨_, ⟨rfl, _, converts⟩ | ⟨rfl, converts⟩⟩
  · exact ⟨Ty.convertsTo_refl _, converts⟩
  · exact ⟨converts, Ty.convertsTo_refl _⟩

theorem operation_converts {op : BinaryOp} (h : operation op l r = some o) :
    l.convertsTo o.left ∧ r.convertsTo o.right := by
  cases operation_chooses h with
  | concatenation => exact ⟨Ty.convertsTo_refl l, Ty.convertsTo_refl r⟩
  | arithmetic _ promoted | order _ promoted | bitwise _ promoted =>
    exact Ty.convertsTo_of_promote promoted
  | shift _ promoted _ count => exact ⟨Ty.convertsTo_of_promoteUnary promoted, count⟩
  | equality _ compared => exact equalityTy_converts compared
  | logic _ left right =>
    rw [left, right]
    exact ⟨rfl, rfl⟩
  | coalescing chosen => exact coalesceTy_converts chosen

end Operator

section Overload

variable {owner : Ty} {name : String} {candidates : List Ty.Signature} {args : List Expr}
  {s : Ty.Signature}

-- An overload takes arguments if there is one for each parameter, which converts by its type, or as
-- an `int` constant that fits.
def Takes (args : List Expr) (s : Ty.Signature) : Prop :=
  Forall₂ (fun arg t => arg.ty.convertsTo t ∨ fitsConstant arg t) args s.params

def First (candidates : List Ty.Signature) (args : List Expr) (s : Ty.Signature) : Prop :=
  Takes args s ∧ ∃ before after, candidates = before ++ s :: after ∧ ∀ s' ∈ before, ¬Takes args s'

theorem accepts_iff : accepts args s ↔ Takes args s := by
  rw [accepts, Takes, List.forall₂_iff_zip, Bool.and_eq_true, beq_iff_eq, List.all_eq_true, eq_comm]
  simp [admits_iff]

instance (args : List Expr) (s : Ty.Signature) : Decidable (Takes args s) :=
  decidable_of_iff _ accepts_iff

theorem first_iff : First candidates args s ↔ candidates.find? (accepts args) = some s := by
  have refused (s' : Ty.Signature) : (!accepts args s') = true ↔ ¬Takes args s' := by
    rw [← accepts_iff, Bool.not_eq_true', Bool.not_eq_true]
  simp only [First, List.find?_eq_some_iff_append, accepts_iff, refused]

theorem exists_first (h : ∃ s ∈ candidates, Takes args s) : ∃ s, First candidates args s := by
  simp only [← accepts_iff] at h
  simp only [first_iff]
  exact Option.isSome_iff_exists.mp (List.find?_isSome.mpr h)

theorem overload_of_first (owner : Ty) (name : String) (h : First candidates args s) :
    ∃ args', overload owner name candidates args = .ok (args', s.result) ∧
      Forall₂ Wraps args args' ∧ args'.map Expr.ty = s.params := by
  have listed : candidates.isEmpty = false := by
    obtain ⟨_, before, after, rfl, _⟩ := h
    simp
  have admitted : Forall₂ (fun arg t => admits t arg) args s.params :=
    h.1.imp fun _ _ => admits_iff.mpr
  have ⟨args', granted⟩ := coerceAll_of_admits admitted
  have ⟨coerced, types⟩ := coerceAll_shape h.1.length_eq granted
  refine ⟨args', ?_, coerced.imp fun _ _ => Coerced.wraps, types⟩
  rw [overload, listed, if_neg Bool.false_ne_true, first_iff.mp h]
  simp only [granted]
  rfl

theorem overload_refuses (h : ∀ s ∈ candidates, ¬Takes args s) :
    overload owner name candidates args =
      .error (if candidates = [] then unknownMember owner name
        else noOverload owner name (args.map Expr.ty)) := by
  have none : candidates.find? (accepts args) = none := by
    simpa only [List.find?_eq_none, accepts_iff] using h
  rw [overload, none]
  split <;> simp_all

-- A member is called with the first overload that takes the arguments, whatever comes behind it in
-- the table, and if there is none, the call is refused for the whole table.
structure Selects (owner : Ty) (name : String) (candidates : List Ty.Signature) (args : List Expr)
    (node : List Expr → Ty → Expr) (built : Built) : Prop where
  ok_iff  : (∃ e, built = .ok e) ↔ ∃ s ∈ candidates, Takes args s
  first   : ∀ s, First candidates args s → ∃ args',
    built = .ok (node args' s.result) ∧ Forall₂ Wraps args args' ∧ args'.map Expr.ty = s.params
  refused : ∀ e, built = .error e → e =
    if candidates = [] then unknownMember owner name else noOverload owner name (args.map Expr.ty)

theorem selects_overload (node : List Expr → Ty → Expr) :
    Selects owner name candidates args node
      ((overload owner name candidates args).map fun (args, t) => node args t) := by
  have chosen (s : Ty.Signature) (first : First candidates args s) : ∃ args',
      (overload owner name candidates args).map (fun (args, t) => node args t) =
        .ok (node args' s.result) ∧ Forall₂ Wraps args args' ∧ args'.map Expr.ty = s.params := by
    have ⟨args', ok, converted⟩ := overload_of_first owner name first
    exact ⟨args', by rw [ok]; rfl, converted⟩
  by_cases taken : ∃ s ∈ candidates, Takes args s
  case pos =>
    have ⟨s, first⟩ := exists_first taken
    have ⟨args', ok, _⟩ := chosen s first
    refine ⟨⟨fun _ => taken, fun _ => ⟨_, ok⟩⟩, chosen, fun e error => ?_⟩
    simp [ok] at error
  case neg =>
    have none : ∀ s ∈ candidates, ¬Takes args s := fun s mem takes => taken ⟨s, mem, takes⟩
    rw [overload_refuses none] at chosen ⊢
    refine ⟨?_, chosen, fun e error => (Except.error.inj error).symm⟩
    exact iff_of_false (fun ⟨_, ok⟩ => by simp [Except.map] at ok) taken

end Overload

section Node

theorem binary_cases (op : BinaryOp) (left right : Expr) :
    (operation op left.ty right.ty = none ∧
        binary op left right = .error (invalidOperator op.symbol [left.ty, right.ty])) ∨
      ∃ o left' right', operation op left.ty right.ty = some o ∧
        binary op left right = .ok (.binary op left' right' o.result) := by
  rw [binary]
  cases chosen : operation op left.ty right.ty with
  | none => exact .inl ⟨rfl, rfl⟩
  | some o =>
    obtain ⟨leftConverts, rightConverts⟩ := operation_converts chosen
    obtain ⟨left', coerced⟩ := coerce_of_admits (admits_of_convertsTo leftConverts)
    obtain ⟨right', coerced'⟩ := coerce_of_admits (admits_of_convertsTo rightConverts)
    refine .inr ⟨o, left', right', rfl, ?_⟩
    simp only [coerced, coerced']
    rfl

theorem binary_ty (op : BinaryOp) (left right : Expr) :
    (binary op left right).map Expr.ty =
      match operation op left.ty right.ty with
      | none => .error (invalidOperator op.symbol [left.ty, right.ty])
      | some o => .ok o.result := by
  rcases binary_cases op left right with ⟨chosen, built⟩ | ⟨o, left', right', chosen, built⟩
  all_goals
    rw [built, chosen]
    rfl

theorem unary_cases (op : UnaryOp) (operand : Expr) :
    (∃ e, unary op operand = .ok e) ∨
      unary op operand = .error (invalidOperator op.symbol [operand.ty]) ∨
      unary op operand = .error notAssignable := by
  simp only [unary]
  split
  case isTrue =>
    split
    case isTrue => exact .inr (.inr rfl)
    case isFalse =>
      split
      case isTrue => exact .inr (.inl rfl)
      case isFalse => exact .inl ⟨_, rfl⟩
  case isFalse =>
    split
    case h_1 => exact .inr (.inl rfl)
    case h_2 t chosen =>
      have converts := unaryTy_converts chosen
      obtain ⟨operand', coerced⟩ := coerce_of_admits (admits_of_convertsTo converts)
      exact .inl ⟨.unary op operand' t, by rw [coerced]; rfl⟩

-- What is chosen, coercion grants. A binary operator is refused only because there is no type to
-- work in, and like the type of its result this is a matter of the types of its operands; a unary
-- one may have an operand that cannot be assigned to as well. A call finds the first overload that
-- takes its arguments, or is refused because the table has none. No operand or argument is ever
-- found not to convert after that.
theorem selection_granted :
    (∀ op left right, (∃ e, binary op left right = .ok e) ∨
      binary op left right = .error (invalidOperator op.symbol [left.ty, right.ty])) ∧
    (∀ op (left right left' right' : Expr), left.ty = left'.ty → right.ty = right'.ty →
      (binary op left right).map Expr.ty = (binary op left' right').map Expr.ty) ∧
    (∀ op operand, (∃ e, unary op operand = .ok e) ∨
      unary op operand = .error (invalidOperator op.symbol [operand.ty]) ∨
      unary op operand = .error notAssignable) ∧
    (∀ target method args, ¬(method = "Invoke" ∧ target.ty.isDelegate) →
      Selects target.ty method (Members.methods target.ty method) args
        (.call target target.ty method) (call target method args)) ∧
    (∀ owner method args,
      Selects owner method (Members.staticMethods owner method) args
        (.staticCall owner method) (staticCall owner method args)) := by
  refine ⟨fun op left right => ?_, fun op left right left' right' hl hr => ?_, unary_cases,
    fun target method args plain => ?_, fun owner method args => selects_overload _⟩
  · rcases binary_cases op left right with ⟨_, refused⟩ | ⟨o, left', right', _, built⟩
    · exact .inr refused
    · exact .inl ⟨_, built⟩
  · rw [binary_ty, binary_ty, hl, hr]
  · have called : call target method args =
        (overload target.ty method (Members.methods target.ty method) args).map
          fun (args, t) => .call target target.ty method args t := by
      rw [call, if_neg]
      simpa using plain
    exact called ▸ selects_overload _

theorem selection_granted_constant :
    let one := Expr.constant (.int 1) .int
    let i := Expr.var ⟨"i", .int⟩
    let x := Expr.var ⟨"x", .ulong⟩
    let math := Ty.named Members.mathName []
    let table := Members.staticMethods math "Max"
    (First table [one, x] ⟨[.ulong, .ulong], .ulong⟩ ∧ ∃ args',
      staticCall math "Max" [one, x] = .ok (.staticCall math "Max" args' .ulong) ∧
        Forall₂ Wraps [one, x] args' ∧ args'.map Expr.ty = [.ulong, .ulong]) ∧
      (First table [i, x] ⟨[.float, .float], .float⟩ ∧ ∃ args',
        staticCall math "Max" [i, x] = .ok (.staticCall math "Max" args' .float) ∧
          Forall₂ Wraps [i, x] args' ∧ args'.map Expr.ty = [.float, .float]) ∧
      (binary .add one one).map Expr.ty = (binary .add i i).map Expr.ty ∧
      ¬∃ e, call x "Equals" [] = .ok e := by
  intro one i x math table
  have ⟨_, types, _, calls, staticCalls⟩ := selection_granted
  have first : First table [one, x] ⟨[.ulong, .ulong], .ulong⟩ := first_iff.mpr (by decide)
  have first' : First table [i, x] ⟨[.float, .float], .float⟩ := first_iff.mpr (by decide)
  refine ⟨⟨first, (staticCalls math "Max" [one, x]).first _ first⟩,
    ⟨first', (staticCalls math "Max" [i, x]).first _ first'⟩, types .add one one i i rfl rfl, ?_⟩
  have none : ∀ s ∈ Members.methods x.ty "Equals", ¬Takes [] s := by decide
  rw [(calls x "Equals" [] (by decide)).ok_iff]
  exact fun ⟨s, mem, takes⟩ => none s mem takes

end Node

end Builder.Standard

end ExprTree
