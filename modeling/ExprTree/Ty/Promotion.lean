import ExprTree.Ty.Basic

namespace ExprTree

namespace Primitive

-- The common type of two numeric operands. There is none for a decimal and a binary floating-point
-- number, nor for `ulong` and a signed type.
def promote (p q : Primitive) : Option Primitive :=
  let either (r : Primitive) : Bool := p = r || q = r
  let anySigned := p.isSigned || q.isSigned
  if !p.isNumeric || !q.isNumeric then none
  else if either decimal then if either float || either double then none else some decimal
  else if either double then some double
  else if either float then some float
  else if either ulong then if anySigned then none else some ulong
  else if either long then some long
  else if either uint then some (if anySigned then long else uint)
  else some int

def promoteUnary : Primitive → Option Primitive
  | sbyte | byte | short | ushort | char => some int
  | p => if p.isNumeric then some p else none

end Primitive

namespace Ty

def promote : Ty → Ty → Option Ty
  | prim p, prim q => (p.promote q).map prim
  | _, _ => none

def promoteUnary : Ty → Option Ty
  | prim p => p.promoteUnary.map prim
  | _ => none

end Ty

end ExprTree
