import ExprTree.Builder.Basic
import ExprTree.Builder.Members
import ExprTree.Ty.Promotion

namespace ExprTree.Builder.Standard

open TypeError

abbrev Built := Except TypeError Expr

-- An `int` constant converts to every integer type that holds its value.
def fitsConstant (value : Expr) (target : Ty) : Bool :=
  match value, target with
  | .constant (.int n) .int, .prim p =>
    let n := n.toInt
    match p with
    | .sbyte => -128 ≤ n && n < 128
    | .byte => 0 ≤ n && n < 256
    | .short => -32768 ≤ n && n < 32768
    | .ushort => 0 ≤ n && n < 65536
    | .uint | .ulong => 0 ≤ n
    | _ => false
  | _, _ => false

def admits (target : Ty) (value : Expr) : Bool :=
  value.ty.convertsTo target || fitsConstant value target

def coerce (value : Expr) (target : Ty) : Built :=
  if value.ty = target then .ok value
  else if admits target value then .ok (.convert value target)
  else .error (mismatch target value.ty)

def coerceAll : List Expr → List Ty → Except TypeError (List Expr)
  | value :: values, t :: ts => do
    let value ← coerce value t
    let values ← coerceAll values ts
    return value :: values
  | _, _ => return []

def accepts (args : List Expr) (s : Ty.Signature) : Bool :=
  s.params.length == args.length && (args.zip s.params).all fun (arg, t) => admits t arg

def overload (owner : Ty) (name : String) (candidates : List Ty.Signature) (args : List Expr) :
    Except TypeError (List Expr × Ty) :=
  if candidates.isEmpty then .error (unknownMember owner name)
  else
    match candidates.find? (accepts args) with
    | none => .error (noOverload owner name (args.map (·.ty)))
    | some s => (coerceAll args s.params).map fun args => (args, s.result)

def literal (value : Literal) : Expr :=
  .constant value value.ty

def hasValues (t : Ty) : Bool :=
  t != .void && t != .null

def defaultValue (t : Ty) : Built :=
  if hasValues t then .ok (.defaultValue t) else .error (invalidVariableType t)

def typeOf (t : Ty) : Built :=
  if t = .null then .error (invalidVariableType t) else .ok (literal (.type t))

def unaryTy (op : UnaryOp) (t : Ty) : Option Ty :=
  match op with
  | .not => if t = .bool then some .bool else none
  | .negate =>
    match t.promoteUnary with
    | some .uint => some .long
    | some .ulong => none
    | promoted => promoted
  | .complement => t.promoteUnary.filter Ty.isIntegral
  | _ => t.promoteUnary

def unary (op : UnaryOp) (operand : Expr) : Built :=
  let t := operand.ty
  let invalid : Built := .error (invalidOperator op.symbol [t])
  if op.isMutating then
    if !operand.isAssignable then .error notAssignable
    else if !t.isNumeric then invalid
    else .ok (.unary op operand t)
  else
    match unaryTy op t with
    | none => invalid
    | some result => (coerce operand result).map fun operand => .unary op operand result

-- How a binary operator works: the types to which its operands are converted, and its own type.
structure Operation where
  left   : Ty
  right  : Ty
  result : Ty
deriving DecidableEq

def Operation.uniform (t : Ty) : Operation := ⟨t, t, t⟩

def Operation.comparing (t : Ty) : Operation := ⟨t, t, .bool⟩

def equalityTy (l r : Ty) : Option Ty :=
  match l.promote r with
  | some t => some t
  | none =>
    if l = r && l != .void then some l
    else if l.isReference && r.convertsTo l then some l
    else if r.isReference && l.convertsTo r then some r
    else none

def coalesceTy (l r : Ty) : Option Ty :=
  if !l.isReference then none
  else if r.convertsTo l && l != .null then some l
  else if l.convertsTo r then some r
  else none

def operation (op : BinaryOp) (l r : Ty) : Option Operation :=
  match op with
  | .add =>
    -- A string takes up everything that has a value, and nothing is converted.
    if (l = .string || r = .string) && l != .void && r != .void then some ⟨l, r, .string⟩
    else (l.promote r).map .uniform
  | .subtract | .multiply | .divide | .modulo => (l.promote r).map .uniform
  | .leftShift | .rightShift =>
    match l.promoteUnary.filter Ty.isIntegral with
    | some t => if r.convertsTo .int then some ⟨t, .int, t⟩ else none
    | none => none
  | .lessThan | .greaterThan | .lessThanOrEqual | .greaterThanOrEqual =>
    (l.promote r).map .comparing
  | .equal | .notEqual => (equalityTy l r).map .comparing
  | .and | .or | .exclusiveOr =>
    if l = .bool && r = .bool then some (.uniform .bool)
    else ((l.promote r).filter Ty.isIntegral).map .uniform
  | .andAlso | .orElse => if l = .bool && r = .bool then some (.uniform .bool) else none
  | .coalesce => (coalesceTy l r).map .uniform

def binary (op : BinaryOp) (left right : Expr) : Built :=
  match operation op left.ty right.ty with
  | none => .error (invalidOperator op.symbol [left.ty, right.ty])
  | some o => do
    let left ← coerce left o.left
    let right ← coerce right o.right
    return .binary op left right o.result

def choiceTy (yes no : Ty) : Except TypeError Ty :=
  if yes = no then .ok yes
  else if yes.convertsTo no then .ok no
  else if no.convertsTo yes then .ok yes
  else .error (mismatch yes no)

def conditional (condition yes no : Expr) : Built := do
  let condition ← coerce condition .bool
  let result ← choiceTy yes.ty no.ty
  let yes ← coerce yes result
  let no ← coerce no result
  return .conditional condition yes no result

def member (target : Expr) (name : String) : Built :=
  match Members.property? target.ty name with
  | none => .error (unknownMember target.ty name)
  | some t => .ok (.member target target.ty name t)

def staticMember (owner : Ty) (name : String) : Built :=
  match Members.staticProperty? owner name with
  | none => .error (unknownMember owner name)
  | some t => .ok (.staticMember owner name t)

def invoke (delegate : Expr) (args : List Expr) : Built :=
  match delegate.ty.signature? with
  | none => .error (notCallable delegate.ty)
  | some s =>
    if s.params.length = args.length then
      (coerceAll args s.params).map fun args => .invoke delegate args s.result
    else .error (notCallable delegate.ty)

def call (target : Expr) (method : String) (args : List Expr) : Built :=
  let owner := target.ty
  if method = "Invoke" && owner.isDelegate then invoke target args
  else
    (overload owner method (Members.methods owner method) args).map fun (args, t) =>
      .call target owner method args t

def staticCall (owner : Ty) (method : String) (args : List Expr) : Built :=
  (overload owner method (Members.staticMethods owner method) args).map fun (args, t) =>
    .staticCall owner method args t

def elementTy : Ty → Option Ty
  | .array element => some element
  | .string => some .char
  | _ => none

def index (target : Expr) (args : List Expr) : Built :=
  match elementTy target.ty, args with
  | some t, [arg] => (coerce arg .int).map fun arg => .index target [arg] t
  | _, _ => .error (notCallable target.ty)

def newArray (element : Ty) (items : List Expr) : Built :=
  if hasValues element then
    (coerceAll items (items.map fun _ => element)).map fun items =>
      .newArray element items (.array element)
  else .error (invalidVariableType element)

def lambda (expected : Option Ty) (params : List Symbol) (body : Expr) : Built :=
  match expected, Ty.signatureFor? expected (params.map (·.ty)) with
  | some t, some s =>
    if s.result = .void then .ok (.lambda params body t)
    else
      match coerce body s.result with
      | .ok body => .ok (.lambda params body t)
      | .error _ => .error (lambdaMismatch t)
  | _, _ =>
    if body.ty = .null then .error (invalidVariableType .null)
    else .ok (.lambda params body (.delegate (params.map (·.ty)) body.ty))

def block (locals : List Symbol) (body : List Expr) : Built :=
  .ok (.block locals body ((body.getLast?.map (·.ty)).getD .void))

def declare (name : String) (t : Ty) : Except TypeError Symbol :=
  if hasValues t then .ok ⟨name, t⟩ else .error (invalidVariableType t)

def assign (target value : Expr) : Built :=
  if target.isAssignable then
    (coerce value target.ty).map fun value => .assign target value target.ty
  else .error notAssignable

end Standard

def standard : Builder where
  literal      := Standard.literal
  defaultValue := Standard.defaultValue
  typeOf       := Standard.typeOf
  unary        := Standard.unary
  binary       := Standard.binary
  conditional  := Standard.conditional
  member       := Standard.member
  staticMember := Standard.staticMember
  call         := Standard.call
  staticCall   := Standard.staticCall
  invoke       := Standard.invoke
  index        := Standard.index
  newArray     := Standard.newArray
  lambda       := Standard.lambda
  block        := Standard.block
  declare      := Standard.declare
  assign       := Standard.assign
  convert      := Standard.coerce

end ExprTree.Builder
