import ExprTree.Text.Digits
import ExprTree.Ty.Basic

namespace ExprTree.Ty

def funcName : String := "System.Func"

def actionName : String := "System.Action"

def systemType : Ty :=
  named "System.Type" []

def genericName (base : String) (arity : Nat) : String :=
  base ++ "\x60" ++ toString arity

def afterBackquote? : List Char → Option (List Char)
  | [] => none
  | c :: cs =>
    match afterBackquote? cs with
    | some found => some found
    | none => if c = '\x60' then some cs else none

-- The number of type parameters that a name tells. A number beyond 64 bits tells none.
def nameArity (name : String) : Nat :=
  ((afterBackquote? name.toList).bind (Text.natural? 0x10000000000000000)).getD 0

def arity : Ty → Nat
  | named name _ => nameArity name
  | _ => 0

def instantiate? : Ty → List Ty → Option Ty
  | named name [], args => if nameArity name = args.length then some (named name args) else none
  | _, _ => none

def delegate (params : List Ty) (result : Ty) : Ty :=
  if result = void then
    match params with
    | [] => named actionName []
    | _ => named (genericName actionName params.length) params
  else
    let args := params ++ [result]
    named (genericName funcName args.length) args

structure Signature where
  params : List Ty
  result : Ty
deriving DecidableEq

def signature? : Ty → Option Signature
  | named name args =>
    if args.length = nameArity name then
      if baseName name = funcName then args.getLast?.map fun result => ⟨args.dropLast, result⟩
      else if baseName name = actionName then some ⟨args, void⟩
      else none
    else none
  | _ => none

def signatureFor? (expected : Option Ty) (params : List Ty) : Option Signature := do
  let s ← (← expected).signature?
  if s.params = params then some s else none

def isDelegate (t : Ty) : Bool :=
  t.signature?.isSome

end ExprTree.Ty
