import ExprTree.Ty.Delegate

namespace ExprTree.Members

open Ty

def mathName : String := "System.Math"

def property? (owner : Ty) (name : String) : Option Ty :=
  match owner, name with
  | string, "Length" => some int
  | array _, "Length" => some int
  | _, _ => none

def staticProperty? (owner : Ty) (name : String) : Option Ty :=
  if owner.isNumeric && (name = "MaxValue" || name = "MinValue") then some owner
  else
    match owner, name with
    | string, "Empty" => some string
    | named n _, "PI" => if n = mathName then some double else none
    | named n _, "E" => if n = mathName then some double else none
    | _, _ => none

def stringMethods : String → List Signature
  | "Substring" => [⟨[int], string⟩, ⟨[int, int], string⟩]
  | "Contains" | "StartsWith" | "EndsWith" => [⟨[string], bool⟩]
  | "IndexOf" => [⟨[char], int⟩, ⟨[string], int⟩]
  | "ToUpper" | "ToLower" | "Trim" => [⟨[], string⟩]
  | _ => []

def commonMethods : String → List Signature
  | "ToString" => [⟨[], string⟩]
  | "GetHashCode" => [⟨[], int⟩]
  | "Equals" => [⟨[object], bool⟩]
  | _ => []

def methods (owner : Ty) (name : String) : List Signature :=
  (if owner = string then stringMethods name else []) ++ commonMethods name

def uniform (n : Nat) (ts : List Ty) : List Signature :=
  ts.map fun t => ⟨List.replicate n t, t⟩

def mathMethods : String → List Signature
  | "Abs" => uniform 1 [int, long, float, double, decimal]
  | "Max" | "Min" => uniform 2 [int, uint, long, ulong, float, double, decimal]
  | "Floor" | "Ceiling" => uniform 1 [double, decimal]
  | "Sqrt" => uniform 1 [double]
  | "Pow" => uniform 2 [double]
  | _ => []

def staticMethods (owner : Ty) (name : String) : List Signature :=
  match owner with
  | named n _ => if n = mathName then mathMethods name else []
  | string =>
    match name with
    | "IsNullOrEmpty" => [⟨[string], bool⟩]
    | "Concat" => [2, 3, 4].map fun n => ⟨List.replicate n string, string⟩
    | _ => []
  | char =>
    match name with
    | "IsDigit" | "IsLetter" | "IsWhiteSpace" => [⟨[char], bool⟩]
    | _ => []
  | _ => []

end ExprTree.Members
