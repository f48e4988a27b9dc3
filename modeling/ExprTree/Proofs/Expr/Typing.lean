import ExprTree.Builder.Standard

namespace ExprTree

def Ty.HasValues (t : Ty) : Prop :=
  t ≠ .void ∧ t ≠ .null

def Ty.arithmetic : List Ty :=
  [.int, .uint, .long, .ulong, .float, .double, .decimal]

def UnaryOp.Typed (op : UnaryOp) (operand : Expr) (t : Ty) : Prop :=
  match op with
  | .not => t = .bool
  | .negate => t ∈ Ty.arithmetic ∧ t ≠ .uint ∧ t ≠ .ulong
  | .plus => t ∈ Ty.arithmetic
  | .complement => t ∈ Ty.arithmetic ∧ t.isIntegral
  | .preIncrement | .preDecrement | .postIncrement | .postDecrement =>
    t.isNumeric ∧ operand.isAssignable

def BinaryOp.Typed (op : BinaryOp) (left right t : Ty) : Prop :=
  match op with
  | .add =>
    (t = .string ∧ (left = .string ∨ right = .string) ∧ left ≠ .void ∧ right ≠ .void) ∨
      (left = t ∧ right = t ∧ t ∈ Ty.arithmetic)
  | .subtract | .multiply | .divide | .modulo => left = t ∧ right = t ∧ t ∈ Ty.arithmetic
  | .leftShift | .rightShift => left = t ∧ right = .int ∧ t ∈ [.int, .uint, .long, .ulong]
  | .lessThan | .greaterThan | .lessThanOrEqual | .greaterThanOrEqual =>
    left = right ∧ t = .bool ∧ left ∈ Ty.arithmetic
  | .equal | .notEqual => left = right ∧ t = .bool ∧ left ≠ .void
  | .and | .or | .exclusiveOr =>
    left = t ∧ right = t ∧ (t = .bool ∨ t ∈ [.int, .uint, .long, .ulong])
  | .andAlso | .orElse => left = t ∧ right = t ∧ t = .bool
  | .coalesce => left = t ∧ right = t ∧ t.isReference

namespace Expr

-- The typing rule of a node.
def Typed : Expr → Prop
  | constant value t => t = value.ty
  | var v => v.ty.HasValues
  | defaultValue t => t.HasValues
  | unary op operand t => operand.ty = t ∧ op.Typed operand t
  | binary op left right t => op.Typed left.ty right.ty t
  | conditional condition yes no t => condition.ty = .bool ∧ yes.ty = t ∧ no.ty = t
  | member target owner name t => owner = target.ty ∧ Members.property? owner name = some t
  | staticMember owner name t => Members.staticProperty? owner name = some t
  | call target owner method args t =>
    owner = target.ty ∧ ⟨args.map ty, t⟩ ∈ Members.methods owner method
  | staticCall owner method args t => ⟨args.map ty, t⟩ ∈ Members.staticMethods owner method
  | invoke delegate args t => delegate.ty.signature? = some ⟨args.map ty, t⟩
  | index target args t =>
    args.map ty = [.int] ∧ (target.ty = .array t ∨ (target.ty = .string ∧ t = .char))
  | newArray element items t =>
    t = .array element ∧ element.HasValues ∧ ∀ item ∈ items, item.ty = element
  -- A lambda has the delegate type that the context asks for, or else the one that its parameters
  -- and its body make.
  | lambda params body t =>
    (∀ v ∈ params, v.ty.HasValues) ∧
      ((∃ result, t.signature? = some ⟨params.map (·.ty), result⟩ ∧
          (result = .void ∨ body.ty = result)) ∨
        (t = .delegate (params.map (·.ty)) body.ty ∧ body.ty ≠ .null))
  | convert operand t =>
    operand.ty ≠ t ∧ (operand.ty.convertsTo t ∨ Builder.Standard.fitsConstant operand t)
  | block locals body t =>
    (∀ v ∈ locals, v.ty.HasValues) ∧ t = (body.getLast?.map ty).getD .void
  | assign target value t => target.isAssignable ∧ target.ty = t ∧ value.ty = t

def children : Expr → List Expr
  | constant _ _ | var _ | defaultValue _ | staticMember _ _ _ => []
  | unary _ e _ | member e _ _ _ | lambda _ e _ | convert e _ => [e]
  | binary _ left right _ => [left, right]
  | assign target value _ => [target, value]
  | conditional condition yes no _ => [condition, yes, no]
  | call e _ _ es _ | invoke e es _ | index e es _ => e :: es
  | staticCall _ _ es _ | newArray _ es _ | block _ es _ => es

theorem sizeOf_child_lt {e child : Expr} (h : child ∈ e.children) : sizeOf child < sizeOf e := by
  cases e
  all_goals simp only [children, List.mem_cons, List.not_mem_nil, or_false] at h
  case unary | member | lambda | convert =>
    rw [h]
    decreasing_tactic
  case binary | assign => rcases h with rfl | rfl <;> decreasing_tactic
  case conditional => rcases h with rfl | rfl | rfl <;> decreasing_tactic
  case call | invoke | index =>
    cases h with
    | inl eq =>
      rw [eq]
      decreasing_tactic
    | inr mem =>
      have := List.sizeOf_lt_of_mem mem
      decreasing_tactic
  case staticCall | newArray | block =>
    have := List.sizeOf_lt_of_mem h
    decreasing_tactic

def nodes (e : Expr) : List Expr :=
  e :: e.children.attach.flatMap fun child => child.1.nodes
termination_by sizeOf e
decreasing_by exact sizeOf_child_lt child.2

theorem nodes_eq (e : Expr) : e.nodes = e :: e.children.flatMap nodes := by
  rw [nodes]
  congr 1
  conv => rhs; rw [← List.attach_map_subtype_val e.children, List.flatMap_map]

theorem forall_nodes_iff {e : Expr} {P : Expr → Prop} : (∀ node ∈ e.nodes, P node) ↔
    P e ∧ ∀ child ∈ e.children, ∀ node ∈ child.nodes, P node := by
  simp only [nodes_eq e, List.forall_mem_cons, List.mem_flatMap]
  grind

def WellTyped (e : Expr) : Prop :=
  ∀ node ∈ e.nodes, node.Typed

theorem wellTyped_iff {e : Expr} :
    e.WellTyped ↔ e.Typed ∧ ∀ child ∈ e.children, child.WellTyped :=
  forall_nodes_iff

end Expr

end ExprTree
