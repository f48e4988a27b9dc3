import ExprTree.Proofs.AvlMap.Balance

namespace ExprTree

universe u v

open Std

variable {κ : Type u} {ν : Type v} [Ord κ]

namespace AvlTree

variable {h : Nat} {l r : AvlTree κ ν} {k bound : κ} {v : ν}

def notBelow (bound : κ) (t : AvlTree κ ν) : List (κ × ν) :=
  t.toList.filter fun e => (compare e.1 bound).isGE

theorem notBelow_node (h : Nat) (l : AvlTree κ ν) (k : κ) (v : ν) (r : AvlTree κ ν) (bound : κ) :
    (node h l k v r).notBelow bound =
      l.notBelow bound ++ if compare k bound = .lt then r.notBelow bound
        else (k, v) :: r.notBelow bound := by
  rw [notBelow, toList_node, List.filter_append, List.filter_cons]
  cases compare k bound <;> rfl

variable [TransOrd κ]

theorem Ordered.notBelow_left (ordered : (node h l k v r).Ordered) (below : compare k bound = .lt) :
    l.notBelow bound = [] := by
  have ⟨smaller, _⟩ := ordered_node.mp ordered
  refine List.filter_eq_nil_iff.mpr fun e mem => ?_
  simp [TransCmp.lt_trans (smaller e mem) below]

theorem Ordered.notBelow_right (ordered : (node h l k v r).Ordered)
    (kept : compare k bound ≠ .lt) : r.notBelow bound = r.toList := by
  have ⟨_, greater, _⟩ := ordered_node.mp ordered
  refine List.filter_eq_self.mpr fun e mem => ?_
  have above : (compare e.1 k).isGE :=
    Ordering.isGE_of_eq_gt (OrientedCmp.gt_of_lt (greater e mem))
  exact TransCmp.isGE_trans above (Ordering.isGE_iff_ne_lt.mpr kept)

end AvlTree

variable [TransOrd κ]

theorem Spine.toList_descendFrom {t : AvlTree κ ν} (ordered : t.Ordered) (bound : κ)
    (s : Spine κ ν) : (s.descendFrom bound t).toList = t.notBelow bound ++ s.toList := by
  induction t generalizing s with
  | leaf => rfl
  | node _ l k v r ihl ihr =>
    have ⟨_, _, _, left, right⟩ := AvlTree.ordered_node.mp ordered
    simp only [descendFrom, AvlTree.notBelow_node, beq_iff_eq]
    split
    case isTrue below => rw [ihr right, ordered.notBelow_left below, List.nil_append]
    case isFalse kept =>
      rw [ihl left, toList_cons, toList_descend, ordered.notBelow_right kept, List.append_assoc,
        List.cons_append]

namespace AvlMap

variable {m : AvlMap κ ν}

theorem Invariant.entriesFrom (h : m.Invariant) (bound : κ) :
    m.entriesFrom bound = m.root.notBelow bound := by
  rw [AvlMap.entriesFrom, Spine.toList_descendFrom h.ordered, Spine.toList, List.append_nil]

-- In every map, and from every bound, be it a key of the map or not, the listing is what the
-- traversal lists from there on: the same entries in the same order. Each of them comes once, since
-- the keys grow.
theorem run_entriesFrom (updates : List (Update κ ν)) (bound : κ) :
    let m := run updates
    m.entriesFrom bound = m.entries.filter (fun e => (compare e.1 bound).isGE) ∧
      (m.entriesFrom bound).Pairwise fun a b => compare a.1 b.1 = .lt := by
  intro m
  have invariant : m.Invariant := .run updates
  have listed : m.entriesFrom bound = m.entries.filter fun e => (compare e.1 bound).isGE := by
    rw [invariant.entriesFrom, entries_eq_toList, AvlTree.notBelow]
  refine ⟨listed, ?_⟩
  rw [listed, entries_eq_toList]
  exact invariant.ordered.sublist List.filter_sublist

theorem run_entriesFrom_betweenKeys :
    let updates : List (Update Int String) :=
      [.insert 5 "e", .insert 1 "a", .insert 9 "i", .insert 7 "g", .replace 1 "b", .insert 3 "c"]
    let m := run updates
    m.entries = [(1, "b"), (3, "c"), (5, "e"), (7, "g"), (9, "i")] ∧
      m.entriesFrom 4 = [(5, "e"), (7, "g"), (9, "i")] ∧ m.entriesFrom 9 = [(9, "i")] := by
  intro updates m
  have entries : m.entries = [(1, "b"), (3, "c"), (5, "e"), (7, "g"), (9, "i")] := by
    rw [entries_eq_toList]
    decide
  have ⟨between, _⟩ := run_entriesFrom updates 4
  have ⟨last, _⟩ := run_entriesFrom updates 9
  refine ⟨entries, ?_, ?_⟩
  · rw [between, entries]
    decide
  · rw [last, entries]
    decide

end AvlMap

end ExprTree
