import ExprTree.Builder.Members

namespace ExprTree

inductive ResolveError where
  | unknownType (name : String)
deriving DecidableEq, Repr

def ResolveError.message : ResolveError → String
  | unknownType name => "unknown type: " ++ name

abbrev Resolver := String → Except ResolveError Ty

structure Registry where
  -- Newer entries come first and hide older ones of the same name.
  types      : List (String × Ty)
  -- In the order in which they are tried.
  namespaces : List String

namespace Registry

open Ty

-- A generic definition under its own name.
def definition (name : String) : String × Ty :=
  (name, named name [])

def system : Registry where
  types :=
    Primitive.all.map (fun p => (p.systemName, prim p)) ++
    [definition Members.mathName, ("System.Type", systemType), definition actionName] ++
    [1, 2, 3, 4, 5].map (fun n => definition (genericName funcName n)) ++
    [1, 2, 3, 4].map (fun n => definition (genericName actionName n))
  namespaces := []

def withNamespace (r : Registry) (name : String) : Registry :=
  { r with namespaces := r.namespaces ++ [name] }

def withType (r : Registry) (name : String) (t : Ty) : Registry :=
  { r with types := (name, t) :: r.types }

def find? (r : Registry) (name : String) : Option Ty :=
  r.types.lookup name

def resolve (r : Registry) : Resolver := fun name =>
  match r.find? name with
  | some t => .ok t
  | none =>
    match r.namespaces.findSome? fun ns => r.find? (ns ++ "." ++ name) with
    | some t => .ok t
    | none => .error (.unknownType name)

end Registry

end ExprTree
