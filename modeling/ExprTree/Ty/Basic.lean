namespace ExprTree

inductive Primitive where
  | void | bool | char | sbyte | byte | short | ushort | int | uint | long | ulong
  | float | double | decimal | string | object
deriving DecidableEq, Repr

namespace Primitive

def all : List Primitive :=
  [void, bool, char, sbyte, byte, short, ushort, int, uint, long, ulong, float, double, decimal,
   string, object]

theorem mem_all (p : Primitive) : p ∈ all := by
  cases p <;> decide

def keyword : Primitive → String
  | void => "void"
  | bool => "bool"
  | char => "char"
  | sbyte => "sbyte"
  | byte => "byte"
  | short => "short"
  | ushort => "ushort"
  | int => "int"
  | uint => "uint"
  | long => "long"
  | ulong => "ulong"
  | float => "float"
  | double => "double"
  | decimal => "decimal"
  | string => "string"
  | object => "object"

def systemName : Primitive → String
  | void => "System.Void"
  | bool => "System.Boolean"
  | char => "System.Char"
  | sbyte => "System.SByte"
  | byte => "System.Byte"
  | short => "System.Int16"
  | ushort => "System.UInt16"
  | int => "System.Int32"
  | uint => "System.UInt32"
  | long => "System.Int64"
  | ulong => "System.UInt64"
  | float => "System.Single"
  | double => "System.Double"
  | decimal => "System.Decimal"
  | string => "System.String"
  | object => "System.Object"

def ofKeyword? (word : String) : Option Primitive :=
  all.find? (·.keyword == word)

theorem ofKeyword?_keyword (p : Primitive) : ofKeyword? p.keyword = some p := by
  cases p <;> decide

def isIntegral : Primitive → Bool
  | char | sbyte | byte | short | ushort | int | uint | long | ulong => true
  | _ => false

def isNumeric : Primitive → Bool
  | float | double | decimal => true
  | p => p.isIntegral

def isSigned : Primitive → Bool
  | sbyte | short | int | long => true
  | _ => false

def isReference : Primitive → Bool
  | string | object => true
  | _ => false

-- The implicit conversions between different numeric types. None of them loses magnitude.
def widensTo : Primitive → Primitive → Bool
  | sbyte, short | sbyte, int | sbyte, long => true
  | byte, short | byte, ushort | byte, int | byte, uint | byte, long | byte, ulong => true
  | short, int | short, long => true
  | ushort, int | ushort, uint | ushort, long | ushort, ulong => true
  | char, ushort | char, int | char, uint | char, long | char, ulong => true
  | int, long => true
  | uint, long | uint, ulong => true
  | float, double => true
  | p, float | p, double | p, decimal => p.isIntegral
  | _, _ => false

end Primitive

inductive Ty where
  | prim (p : Primitive)
  | null
  | array (element : Ty)
  | named (name : String) (args : List Ty)
deriving Inhabited

namespace Ty

@[match_pattern] abbrev void : Ty := prim .void
@[match_pattern] abbrev bool : Ty := prim .bool
@[match_pattern] abbrev char : Ty := prim .char
@[match_pattern] abbrev int : Ty := prim .int
@[match_pattern] abbrev uint : Ty := prim .uint
@[match_pattern] abbrev long : Ty := prim .long
@[match_pattern] abbrev ulong : Ty := prim .ulong
@[match_pattern] abbrev float : Ty := prim .float
@[match_pattern] abbrev double : Ty := prim .double
@[match_pattern] abbrev decimal : Ty := prim .decimal
@[match_pattern] abbrev string : Ty := prim .string
@[match_pattern] abbrev object : Ty := prim .object

mutual

def decEq : (s t : Ty) → Decidable (s = t)
  | prim p, prim q => decidable_of_iff (p = q) (by simp)
  | null, null => isTrue rfl
  | array s, array t =>
    have := decEq s t
    decidable_of_iff (s = t) (by simp)
  | named m ss, named n ts =>
    have := decEqList ss ts
    decidable_of_iff (m = n ∧ ss = ts) (by simp)
  | prim _, null | prim _, array _ | prim _, named _ _
  | null, prim _ | null, array _ | null, named _ _
  | array _, prim _ | array _, null | array _, named _ _
  | named _ _, prim _ | named _ _, null | named _ _, array _ => isFalse (by simp)

def decEqList : (ss ts : List Ty) → Decidable (ss = ts)
  | [], [] => isTrue rfl
  | s :: ss, t :: ts =>
    have := decEq s t
    have := decEqList ss ts
    decidable_of_iff (s = t ∧ ss = ts) (by simp)
  | [], _ :: _ | _ :: _, [] => isFalse (by simp)

end

instance : DecidableEq Ty := decEq

def ofKeyword? (word : String) : Option Ty :=
  (Primitive.ofKeyword? word).map prim

def systemName? : Ty → Option String
  | prim p => some p.systemName
  | _ => none

def isIntegral : Ty → Bool
  | prim p => p.isIntegral
  | _ => false

def isNumeric : Ty → Bool
  | prim p => p.isNumeric
  | _ => false

def isSigned : Ty → Bool
  | prim p => p.isSigned
  | _ => false

def isReference : Ty → Bool
  | prim p => p.isReference
  | _ => true

def baseName (name : String) : String :=
  String.ofList (name.toList.takeWhile (· != '\x60'))

mutual

def text : Ty → String
  | prim p => p.keyword
  | null => "null"
  | array element => element.text ++ "[]"
  | named name [] => baseName name
  | named name (t :: ts) => baseName name ++ "<" ++ t.text ++ listText ts ++ ">"

def listText : List Ty → String
  | [] => ""
  | t :: ts => ", " ++ t.text ++ listText ts

end

def textList (ts : List Ty) : String :=
  ", ".intercalate (ts.map text)

-- Implicit conversion: identity, everything but `void` to `object`, `null` to every type that has
-- it, and numeric widening.
def convertsTo (source target : Ty) : Bool :=
  if source = target then true
  else if target = object then source != void
  else
    match source, target with
    | null, _ => target.isReference
    | prim p, prim q => p.widensTo q
    | _, _ => false

end Ty

end ExprTree
