import ExprTree.AvlMap.Basic

namespace ExprTree

universe u v

variable {κ : Type u} {ν : Type v}

namespace AvlTree

@[simp]
theorem toList_leaf : (leaf : AvlTree κ ν).toList = [] := rfl

@[simp]
theorem toList_node (h : Nat) (l : AvlTree κ ν) (k : κ) (v : ν) (r : AvlTree κ ν) :
    (node h l k v r).toList = l.toList ++ (k, v) :: r.toList := rfl

@[simp]
theorem toList_make (l : AvlTree κ ν) (k : κ) (v : ν) (r : AvlTree κ ν) :
    (make l k v r).toList = l.toList ++ (k, v) :: r.toList := rfl

@[simp]
theorem toList_rotateRight (l : AvlTree κ ν) (k : κ) (v : ν) (r : AvlTree κ ν) :
    (rotateRight l k v r).toList = l.toList ++ (k, v) :: r.toList := by
  cases l <;> simp [rotateRight]

@[simp]
theorem toList_rotateLeft (l : AvlTree κ ν) (k : κ) (v : ν) (r : AvlTree κ ν) :
    (rotateLeft l k v r).toList = l.toList ++ (k, v) :: r.toList := by
  cases r <;> simp [rotateLeft]

@[simp]
theorem toList_straightenLeft (t : AvlTree κ ν) : t.straightenLeft.toList = t.toList := by
  cases t with
  | leaf => rfl
  | node h l k v r =>
    rw [straightenLeft]
    split
    case isTrue => exact toList_rotateLeft l k v r
    case isFalse => rfl

@[simp]
theorem toList_straightenRight (t : AvlTree κ ν) : t.straightenRight.toList = t.toList := by
  cases t with
  | leaf => rfl
  | node h l k v r =>
    rw [straightenRight]
    split
    case isTrue => exact toList_rotateRight l k v r
    case isFalse => rfl

@[simp]
theorem toList_rebalance (l : AvlTree κ ν) (k : κ) (v : ν) (r : AvlTree κ ν) :
    (rebalance l k v r).toList = l.toList ++ (k, v) :: r.toList := by
  rw [rebalance]
  split
  case isTrue => simp
  case isFalse => split <;> simp

variable [Ord κ] {t : AvlTree κ ν} {k : κ} {v : ν}

theorem mem_toList_of_get? (h : t.get? k = some v) : ∃ key, (key, v) ∈ t.toList := by
  induction t with
  | leaf => simp [get?] at h
  | node _ l k' v' r ihl ihr =>
    rw [get?] at h
    split at h
    case h_1 =>
      have ⟨key, mem⟩ := ihl h
      exact ⟨key, List.mem_append_left _ mem⟩
    case h_2 => exact ⟨k', by simp_all⟩
    case h_3 =>
      have ⟨key, mem⟩ := ihr h
      exact ⟨key, List.mem_append_right _ (List.mem_cons_of_mem _ mem)⟩

theorem mem_toList_replace {entry : κ × ν} (h : entry ∈ (t.replace k v).1.toList) :
    entry = (k, v) ∨ entry ∈ t.toList := by
  induction t with
  | leaf => simpa [replace] using h
  | node _ l k' v' r ihl ihr =>
    rw [replace] at h
    split at h
    all_goals
      simp only [toList_rebalance, toList_make, toList_node, List.mem_append, List.mem_cons] at h ⊢
    case h_1 =>
      cases h with
      | inl mem => exact (ihl mem).imp_right .inl
      | inr mem => exact .inr (.inr mem)
    case h_2 => grind
    case h_3 =>
      rcases h with mem | mem | mem
      · exact .inr (.inl mem)
      · exact .inr (.inr (.inl mem))
      · exact (ihr mem).imp_right fun mem => .inr (.inr mem)

end AvlTree

namespace Spine

theorem toList_cons (entry : κ × ν) (right : AvlTree κ ν) (below : List ((κ × ν) × AvlTree κ ν)) :
    toList ⟨(entry, right) :: below⟩ = entry :: (descend ⟨below⟩ right).toList := by
  rw [toList]

theorem toList_descend (s : Spine κ ν) (t : AvlTree κ ν) :
    (s.descend t).toList = t.toList ++ s.toList := by
  induction t generalizing s with
  | leaf => rfl
  | node _ l k v r ihl ihr =>
    rw [descend, ihl, toList_cons, ihr, AvlTree.toList_node, List.append_assoc, List.cons_append]

end Spine

namespace AvlMap

theorem entries_eq_toList (m : AvlMap κ ν) : m.entries = m.root.toList := by
  rw [entries, Spine.toList_descend, Spine.toList, List.append_nil]

variable [Ord κ] {m : AvlMap κ ν} {k : κ} {v : ν}

theorem mem_entries_of_get? (h : m.get? k = some v) : ∃ key, (key, v) ∈ m.entries := by
  rw [entries_eq_toList]
  exact AvlTree.mem_toList_of_get? h

theorem mem_entries_replace {entry : κ × ν} (h : entry ∈ (m.replace k v).entries) :
    entry = (k, v) ∨ entry ∈ m.entries := by
  rw [entries_eq_toList] at *
  exact AvlTree.mem_toList_replace h

end AvlMap

end ExprTree
