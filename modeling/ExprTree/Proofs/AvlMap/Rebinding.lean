import ExprTree.Proofs.AvlMap.Balance

namespace ExprTree

universe u v

open Std

variable {κ : Type u} {ν : Type v}

namespace AvlTree

variable {h : Nat} {l l' r r' t t' : AvlTree κ ν} {k k' : κ} {v v' w : ν}

-- Two trees that are the same node for node, but for one node with the key, which holds `v` in the
-- first tree and `w` in the second one.
inductive Rebound (k : κ) (v w : ν) : AvlTree κ ν → AvlTree κ ν → Prop
  | here {h : Nat} {l r : AvlTree κ ν} : Rebound k v w (node h l k v r) (node h l k w r)
  | left {h : Nat} {l l' r : AvlTree κ ν} {k' : κ} {v' : ν} (below : Rebound k v w l l') :
      Rebound k v w (node h l k' v' r) (node h l' k' v' r)
  | right {h : Nat} {l r r' : AvlTree κ ν} {k' : κ} {v' : ν} (below : Rebound k v w r r') :
      Rebound k v w (node h l k' v' r) (node h l k' v' r')

theorem Rebound.height_eq (rebound : Rebound k v w t t') : t'.height = t.height := by
  cases rebound <;> rfl

theorem rebalance_eq_make (left : l.height ≤ r.height + 1) (right : r.height ≤ l.height + 1) :
    rebalance l k v r = make l k v r := by
  rw [rebalance, if_neg (by omega), if_neg (by omega)]

-- To mend a node of a balanced tree after its children have kept their heights changes nothing.
theorem rebalance_eq_node (height : h = 1 + max l.height r.height)
    (left : l.height ≤ r.height + 1) (right : r.height ≤ l.height + 1) :
    rebalance l k v r = node h l k v r := by
  rw [rebalance_eq_make left right, height, make]

theorem Balanced.replace_rebound [Ord κ] [LawfulEqOrd κ] (balanced : t.Balanced)
    (bound : t.get? k = some v) (w : ν) : Rebound k v w t (t.replace k w).1 := by
  induction balanced with
  | leaf => simp [get?] at bound
  | @node h l r k' v' height left right hl hr ihl ihr =>
    cases order : compare k k' <;> simp only [get?, order] at bound <;> simp only [replace, order]
    case lt =>
      have below := ihl bound
      have same := below.height_eq
      rw [rebalance_eq_node (h := h) (by omega) (by omega) (by omega)]
      exact .left below
    case eq =>
      have key : k = k' := LawfulEqCmp.eq_of_compare order
      rw [make, ← height, ← key, Option.some.inj bound]
      exact .here
    case gt =>
      have below := ihr bound
      have same := below.height_eq
      rw [rebalance_eq_node (h := h) (by omega) (by omega) (by omega)]
      exact .right below

end AvlTree

namespace AvlMap

variable [Ord κ]

theorem replace_size_of_bound {m : AvlMap κ ν} {k : κ} (bound : m.contains k) (v : ν) :
    (m.replace k v).size = m.size := by
  rw [contains, get?, AvlTree.get?_eq_found, Option.isSome_map] at bound
  simpa [replace] using Option.isSome_iff_ne_none.mp bound

theorem run_balanced (updates : List (Update κ ν)) : (run updates).root.Balanced := by
  refine run_induction (P := fun m => m.root.Balanced) .leaf (fun m u balanced => ?_) updates
  cases m.update_eq u with
  | inl unchanged => rwa [unchanged]
  | inr replaced =>
    have ⟨k, v, replaced⟩ := replaced
    rw [replaced]
    exact (balanced.replace k v).1

-- In every map, to insert a key that is not bound gives the very map that a replacement gives: the
-- same nodes with the same heights, and the same size. If the key is bound, the insertion is
-- refused, and the replacement changes the value in its node and nothing else.
theorem run_insert_replace [LawfulEqOrd κ] (updates : List (Update κ ν)) (k : κ) (v : ν) :
    let m := run updates
    (m.get? k = none → m.insert k v = .ok (m.replace k v)) ∧
      ∀ w, m.get? k = some w →
        m.insert k v = .error .duplicateKey ∧
          m.root.Rebound k w v (m.replace k v).root ∧ (m.replace k v).size = m.size := by
  intro m
  refine ⟨fun free => ?_, fun w bound => ?_⟩
  · rw [insert_eq, contains, free]
    rfl
  · have contained : m.contains k := by simp [contains, bound]
    refine ⟨?_, (run_balanced updates).replace_rebound bound v, replace_size_of_bound contained v⟩
    rw [insert_eq, if_pos contained]

theorem run_insert_replace_twoRotations :
    let m : AvlMap Int String := run [.insert 1 "a", .insert 3 "c"]
    let n := m.replace 2 "b"
    (m.insert 2 "b" = .ok n ∧ n.root.toList = [(1, "a"), (2, "b"), (3, "c")] ∧ n.height = 2) ∧
      m.insert 3 "d" = .error .duplicateKey ∧
        m.root.Rebound 3 "c" "d" (m.replace 3 "d").root ∧ (m.replace 3 "d").size = 2 := by
  intro m n
  have ⟨inserted, _⟩ := run_insert_replace [.insert 1 "a", .insert 3 "c"] (2 : Int) "b"
  have ⟨_, replaced⟩ := run_insert_replace [.insert 1 "a", .insert 3 "c"] (3 : Int) "d"
  have shape : n.root.toList = [(1, "a"), (2, "b"), (3, "c")] ∧ n.height = 2 := by decide
  exact ⟨⟨inserted (by decide), shape⟩, replaced "c" (by decide)⟩

end AvlMap

end ExprTree
