import ExprTree.Grammar.Token

namespace ExprTree.Grammar

open ExprTree.Parser

def predefinedType : Rule Ty :=
  oneOf (Primitive.all.map fun p => (fun _ => .prim p) <$> keyword p.keyword)

def path : Rule (List String) :=
  identifier.separatedBy (symbol ".")

def dotted (segments : List String) : String :=
  ".".intercalate segments

def resolveNamed (s : Scope) (segments : List String) (args : List Ty) : Option Ty :=
  if args.isEmpty then (s.resolver (dotted segments)).toOption
  else do
    let definition ← (s.resolver (Ty.genericName (dotted segments) args.length)).toOption
    definition.instantiate? args

section Nested

variable (inner : Rule Ty)

def typeArguments : Rule (List Ty) :=
  between (symbol "<") (inner.separatedBy (symbol ",")) (symbol ">")

def namedType : Rule Ty :=
  (path.pair (typeArguments inner).optional).filterMapState fun s (segments, args) =>
    resolveNamed s segments (args.getD [])

def typeNameOver : Rule Ty := do
  let t ← predefinedType <|> namedType inner
  (symbol "[" <* symbol "]").manyFold t fun t _ => .array t

end Nested

def typeNameFrom (bottom : Rule Ty) : Nat → Rule Ty
  | 0 => bottom
  | depth + 1 => typeNameOver ⟨fun c => (typeNameFrom bottom depth).run c⟩

def typeNameAt (depth : Nat) : Rule Ty :=
  typeNameFrom fail depth

-- An argument list is behind a name, so the input bounds the depth.
def typeName : Rule Ty where
  run c := (typeNameAt (c.remaining + 1)).run c

theorem parses_typeName (c : Cursor Scope) :
    typeName.parses c = (typeNameAt (c.remaining + 1)).parses c := by
  simp only [parses, typeName]

end ExprTree.Grammar
