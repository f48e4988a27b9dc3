namespace ExprTree

universe u v

inductive AvlTree (κ : Type u) (ν : Type v) where
  | leaf
  | node (height : Nat) (left : AvlTree κ ν) (key : κ) (value : ν) (right : AvlTree κ ν)

inductive MapError where
  | duplicateKey
deriving DecidableEq, Repr

def MapError.message : MapError → String
  | duplicateKey => "the specified key already exists"

namespace AvlTree

variable {κ : Type u} {ν : Type v}

def height : AvlTree κ ν → Nat
  | leaf => 0
  | node h _ _ _ _ => h

def count : AvlTree κ ν → Nat
  | leaf => 0
  | node _ l _ _ r => l.count + 1 + r.count

def toList : AvlTree κ ν → List (κ × ν)
  | leaf => []
  | node _ l k v r => l.toList ++ (k, v) :: r.toList

def make (l : AvlTree κ ν) (k : κ) (v : ν) (r : AvlTree κ ν) : AvlTree κ ν :=
  node (1 + max l.height r.height) l k v r

def rotateRight (l : AvlTree κ ν) (k : κ) (v : ν) (r : AvlTree κ ν) : AvlTree κ ν :=
  match l with
  | leaf => make l k v r
  | node _ ll lk lv lr => make ll lk lv (make lr k v r)

def rotateLeft (l : AvlTree κ ν) (k : κ) (v : ν) (r : AvlTree κ ν) : AvlTree κ ν :=
  match r with
  | leaf => make l k v r
  | node _ rl rk rv rr => make (make l k v rl) rk rv rr

-- A left child that leans to the right is turned before its parent is.
def straightenLeft : AvlTree κ ν → AvlTree κ ν
  | leaf => leaf
  | node h l k v r => if l.height < r.height then rotateLeft l k v r else node h l k v r

def straightenRight : AvlTree κ ν → AvlTree κ ν
  | leaf => leaf
  | node h l k v r => if r.height < l.height then rotateRight l k v r else node h l k v r

def rebalance (l : AvlTree κ ν) (k : κ) (v : ν) (r : AvlTree κ ν) : AvlTree κ ν :=
  if r.height + 1 < l.height then rotateRight l.straightenLeft k v r
  else if l.height + 1 < r.height then rotateLeft l k v r.straightenRight
  else make l k v r

section Ordered

variable [Ord κ]

def get? (k : κ) : AvlTree κ ν → Option ν
  | leaf => none
  | node _ l k' v r =>
    match compare k k' with
    | .lt => l.get? k
    | .eq => some v
    | .gt => r.get? k

def insert (k : κ) (v : ν) : AvlTree κ ν → Except MapError (AvlTree κ ν)
  | leaf => .ok (make leaf k v leaf)
  | node _ l k' v' r =>
    match compare k k' with
    | .lt => (l.insert k v).map fun l => rebalance l k' v' r
    | .eq => .error .duplicateKey
    | .gt => (r.insert k v).map fun r => rebalance l k' v' r

def replace (k : κ) (v : ν) : AvlTree κ ν → AvlTree κ ν × Bool
  | leaf => (make leaf k v leaf, true)
  | node _ l k' v' r =>
    match compare k k' with
    | .lt =>
      let (l, added) := l.replace k v
      (rebalance l k' v' r, added)
    | .eq => (make l k v r, false)
    | .gt =>
      let (r, added) := r.replace k v
      (rebalance l k' v' r, added)

end Ordered

end AvlTree

-- Nodes still to be visited, each with the subtree on its right, the nearest first.
structure Spine (κ : Type u) (ν : Type v) where
  pending : List ((κ × ν) × AvlTree κ ν)

namespace Spine

variable {κ : Type u} {ν : Type v}

def count (s : Spine κ ν) : Nat :=
  s.pending.foldr (fun p n => p.2.count + 1 + n) 0

def descend (s : Spine κ ν) : AvlTree κ ν → Spine κ ν
  | .leaf => s
  | .node _ l k v r => descend ⟨((k, v), r) :: s.pending⟩ l

-- Goes down to a bound, and keeps the nodes that are not below it.
def descendFrom [Ord κ] (bound : κ) (s : Spine κ ν) : AvlTree κ ν → Spine κ ν
  | .leaf => s
  | .node _ l k v r =>
    if compare k bound == .lt then descendFrom bound s r
    else descendFrom bound ⟨((k, v), r) :: s.pending⟩ l

theorem count_descend (s : Spine κ ν) (t : AvlTree κ ν) :
    (s.descend t).count = s.count + t.count := by
  induction t generalizing s with
  | leaf => rfl
  | node _ l k v r ihl _ =>
    rw [descend, ihl]
    simp only [count, List.foldr_cons, AvlTree.count]
    omega

def toList (s : Spine κ ν) : List (κ × ν) :=
  match _h : s.pending with
  | [] => []
  | (entry, right) :: below => entry :: (descend ⟨below⟩ right).toList
termination_by s.count
decreasing_by
  rw [count_descend]
  simp only [count, _h, List.foldr_cons]
  omega

end Spine

structure AvlMap (κ : Type u) (ν : Type v) where
  root : AvlTree κ ν
  size : Nat

namespace AvlMap

variable {κ : Type u} {ν : Type v}

def empty : AvlMap κ ν := ⟨.leaf, 0⟩

instance : Inhabited (AvlMap κ ν) := ⟨empty⟩

instance : EmptyCollection (AvlMap κ ν) := ⟨empty⟩

def isEmpty (m : AvlMap κ ν) : Bool :=
  match m.root with
  | .leaf => true
  | .node .. => false

def height (m : AvlMap κ ν) : Nat :=
  m.root.height

def entries (m : AvlMap κ ν) : List (κ × ν) :=
  (Spine.descend ⟨[]⟩ m.root).toList

section Ordered

variable [Ord κ]

def get? (m : AvlMap κ ν) (k : κ) : Option ν :=
  m.root.get? k

def contains (m : AvlMap κ ν) (k : κ) : Bool :=
  (m.get? k).isSome

def entriesFrom (m : AvlMap κ ν) (bound : κ) : List (κ × ν) :=
  (Spine.descendFrom bound ⟨[]⟩ m.root).toList

def insert (m : AvlMap κ ν) (k : κ) (v : ν) : Except MapError (AvlMap κ ν) :=
  (m.root.insert k v).map fun root => ⟨root, m.size + 1⟩

def replace (m : AvlMap κ ν) (k : κ) (v : ν) : AvlMap κ ν :=
  let (root, added) := m.root.replace k v
  ⟨root, if added then m.size + 1 else m.size⟩

end Ordered

instance [BEq κ] [BEq ν] : BEq (AvlMap κ ν) where
  beq m n := m.size == n.size && m.entries == n.entries

def describe (key : κ → String) (value : ν → String) (m : AvlMap κ ν) : String :=
  "\x7b" ++ ", ".intercalate (m.entries.map fun e => key e.1 ++ ": " ++ value e.2) ++ "\x7d"

end AvlMap

end ExprTree
