namespace ExprTree

universe u

structure Stack (α : Type u) where
  items : List α
deriving DecidableEq

inductive StackError where
  | empty
deriving DecidableEq, Repr

def StackError.message : StackError → String
  | empty => "the stack is empty"

namespace Stack

variable {α : Type u}

def empty : Stack α := ⟨[]⟩

instance : Inhabited (Stack α) := ⟨empty⟩

instance : EmptyCollection (Stack α) := ⟨empty⟩

def size (s : Stack α) : Nat :=
  s.items.length

def isEmpty (s : Stack α) : Bool :=
  s.items.isEmpty

def push (s : Stack α) (a : α) : Stack α :=
  ⟨a :: s.items⟩

def peek (s : Stack α) : Except StackError α :=
  match s.items with
  | [] => .error .empty
  | a :: _ => .ok a

def pop (s : Stack α) : Except StackError (α × Stack α) :=
  match s.items with
  | [] => .error .empty
  | a :: below => .ok (a, ⟨below⟩)

def inPushOrder (s : Stack α) : List α :=
  s.items.reverse

@[simp]
theorem inPushOrder_empty : (∅ : Stack α).inPushOrder = [] := rfl

@[simp]
theorem inPushOrder_push (s : Stack α) (a : α) :
    (s.push a).inPushOrder = s.inPushOrder ++ [a] := by
  simp [inPushOrder, push]

@[simp]
theorem pop_push (s : Stack α) (a : α) : (s.push a).pop = .ok (a, s) := rfl

def describe (element : α → String) (s : Stack α) : String :=
  "[" ++ ", ".intercalate (s.items.map element) ++ "]"

end Stack

end ExprTree
