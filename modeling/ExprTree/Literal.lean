import ExprTree.Binary.Shortest
import ExprTree.Decimal
import ExprTree.Text.Quoted
import ExprTree.Ty.Delegate

namespace ExprTree

-- A floating-point number is its bit pattern, so that equal literals are the same ones.
inductive Literal where
  | bool (b : Bool)
  | int (n : Int32)
  | uint (n : UInt32)
  | long (n : Int64)
  | ulong (n : UInt64)
  | float (bits : UInt32)
  | double (bits : UInt64)
  | decimal (d : Decimal)
  | char (c : Char)
  | string (s : String)
  | null
  | type (t : Ty)
deriving DecidableEq

namespace Literal

def ty : Literal → Ty
  | bool _ => .bool
  | int _ => .int
  | uint _ => .uint
  | long _ => .long
  | ulong _ => .ulong
  | float _ => .float
  | double _ => .double
  | decimal _ => .decimal
  | char _ => .char
  | string _ => .string
  | null => .null
  | type _ => .systemType

def text : Literal → String
  | bool b => if b then "true" else "false"
  | int n => toString n.toInt
  | uint n => toString n.toNat ++ "u"
  | long n => toString n.toInt ++ "L"
  | ulong n => toString n.toNat ++ "UL"
  | float bits => Binary.Format.single.text bits.toNat ++ "f"
  | double bits => Binary.Format.double.text bits.toNat
  | decimal d => d.text ++ "m"
  | char c => Text.quotedChar c
  | string s => Text.quotedString s
  | null => "null"
  | type t => "typeof(" ++ t.text ++ ")"

end Literal

end ExprTree
