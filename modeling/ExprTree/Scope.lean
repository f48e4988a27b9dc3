import ExprTree.AvlMap.Basic
import ExprTree.Builder.Basic
import ExprTree.Registry
import ExprTree.Stack

namespace ExprTree

@[ext]
structure Scope where
  expected : Option Ty
  resolver : Resolver
  builder  : Builder
  symbols  : AvlMap String Symbol
  locals   : Stack Symbol

namespace Scope

def new (resolver : Resolver) (builder : Builder) : Scope where
  expected := none
  resolver := resolver
  builder  := builder
  symbols  := ∅
  locals   := ∅

def withExpected (s : Scope) (expected : Option Ty) : Scope :=
  { s with expected := expected }

def lookup (s : Scope) (name : String) : Option Symbol :=
  s.symbols.get? name

def withSymbol (s : Scope) (symbol : Symbol) : Scope :=
  { s with symbols := s.symbols.replace symbol.name symbol }

-- Declares a local, which hides an outer symbol of its name. A second local of one name is refused.
def declare (s : Scope) (symbol : Symbol) : Option Scope :=
  if s.locals.items.any (·.name == symbol.name) then none
  else some { s.withSymbol symbol with locals := s.locals.push symbol }

def enterBlock (s : Scope) : Scope :=
  { s with expected := none, locals := ∅ }

-- Starts the body of a lambda, whose first locals are the parameters. Two parameters of one name
-- are refused.
def enterLambda (s : Scope) (params : List Symbol) (result : Option Ty) : Option Scope :=
  (params.foldlM declare s.enterBlock).map (·.withExpected result)

def declared (s : Scope) : List Symbol :=
  s.locals.inPushOrder

def agrees (s t : Scope) : Bool :=
  s.expected == t.expected && s.symbols == t.symbols && s.locals == t.locals

end Scope

end ExprTree
