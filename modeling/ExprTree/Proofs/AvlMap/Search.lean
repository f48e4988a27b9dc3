import ExprTree.Proofs.AvlMap.Entries

namespace ExprTree

universe u v

open Std

variable {κ : Type u} {ν : Type v} [Ord κ]

namespace AvlTree

-- The entries on the left of the path to a key.
def before (k : κ) : AvlTree κ ν → List (κ × ν)
  | leaf => []
  | node _ l k' v r =>
    match compare k k' with
    | .lt => l.before k
    | .eq => l.toList
    | .gt => l.toList ++ (k', v) :: r.before k

-- The entry at the end of the path to a key.
def found (k : κ) : AvlTree κ ν → Option (κ × ν)
  | leaf => none
  | node _ l k' v r =>
    match compare k k' with
    | .lt => l.found k
    | .eq => some (k', v)
    | .gt => r.found k

-- The entries on the right of the path to a key.
def behind (k : κ) : AvlTree κ ν → List (κ × ν)
  | leaf => []
  | node _ l k' v r =>
    match compare k k' with
    | .lt => l.behind k ++ (k', v) :: r.toList
    | .eq => r.toList
    | .gt => r.behind k

variable {h : Nat} {l r t : AvlTree κ ν} {k k' : κ} {v v' : ν}

@[simp]
theorem before_leaf : (leaf : AvlTree κ ν).before k = [] := rfl

@[simp]
theorem found_leaf : (leaf : AvlTree κ ν).found k = none := rfl

@[simp]
theorem behind_leaf : (leaf : AvlTree κ ν).behind k = [] := rfl

theorem before_node :
    (node h l k' v' r).before k =
      match compare k k' with
      | .lt => l.before k
      | .eq => l.toList
      | .gt => l.toList ++ (k', v') :: r.before k := rfl

theorem found_node :
    (node h l k' v' r).found k =
      match compare k k' with
      | .lt => l.found k
      | .eq => some (k', v')
      | .gt => r.found k := rfl

theorem behind_node :
    (node h l k' v' r).behind k =
      match compare k k' with
      | .lt => l.behind k ++ (k', v') :: r.toList
      | .eq => r.toList
      | .gt => r.behind k := rfl

theorem toList_eq_around (t : AvlTree κ ν) (k : κ) :
    t.toList = t.before k ++ (t.found k).toList ++ t.behind k := by
  induction t with
  | leaf => rfl
  | node _ l k' v r ihl ihr =>
    cases h : compare k k' <;> simp [before_node, found_node, behind_node, h]
    case lt => simp [ihl]
    case gt => simp [ihr]

theorem get?_eq_found (t : AvlTree κ ν) (k : κ) : t.get? k = (t.found k).map (·.2) := by
  induction t with
  | leaf => rfl
  | node _ l k' v r ihl ihr => cases h : compare k k' <;> simp [get?, found_node, h, ihl, ihr]

@[simp]
theorem toList_replace (t : AvlTree κ ν) (k : κ) (v : ν) :
    (t.replace k v).1.toList = t.before k ++ (k, v) :: t.behind k := by
  induction t with
  | leaf => rfl
  | node _ l k' v' r ihl ihr =>
    cases h : compare k k' <;> simp [replace, before_node, behind_node, h, ihl, ihr]

@[simp]
theorem replace_added (t : AvlTree κ ν) (k : κ) (v : ν) :
    (t.replace k v).2 = (t.found k).isNone := by
  induction t with
  | leaf => rfl
  | node _ l k' v' r ihl ihr => cases h : compare k k' <;> simp [replace, found_node, h, ihl, ihr]

theorem insert_eq (t : AvlTree κ ν) (k : κ) (v : ν) :
    t.insert k v = if (t.found k).isSome then .error .duplicateKey else .ok (t.replace k v).1 := by
  induction t with
  | leaf => rfl
  | node _ l k' v' r ihl ihr =>
    cases h : compare k k' <;>
      simp only [insert, replace, found_node, h, ihl, ihr, Option.isSome_some]
    case lt => split <;> rfl
    case eq => rfl
    case gt => split <;> rfl

theorem compare_found {e : κ × ν} (h : t.found k = some e) : compare k e.1 = .eq := by
  induction t with
  | leaf => simp at h
  | node _ l k' v' r ihl ihr =>
    cases hc : compare k k' <;> simp only [found_node, hc] at h
    case lt => exact ihl h
    case eq => exact Option.some.inj h ▸ hc
    case gt => exact ihr h

def Ordered (t : AvlTree κ ν) : Prop :=
  t.toList.Pairwise fun a b => compare a.1 b.1 = .lt

theorem ordered_node {h : Nat} {l r : AvlTree κ ν} :
    (node h l k v r).Ordered ↔
      (∀ e ∈ l.toList, compare e.1 k = .lt) ∧ (∀ e ∈ r.toList, compare k e.1 = .lt) ∧
        (∀ a ∈ l.toList, ∀ b ∈ r.toList, compare a.1 b.1 = .lt) ∧ l.Ordered ∧ r.Ordered := by
  simp only [Ordered, toList_node, List.pairwise_append, List.pairwise_cons, List.mem_cons,
    forall_eq_or_imp, forall_and]
  grind

variable [TransOrd κ]

theorem Ordered.before_lt (h : t.Ordered) : ∀ e ∈ t.before k, compare e.1 k = .lt := by
  induction t with
  | leaf => simp
  | node _ l k' v' r ihl ihr =>
    have ⟨left, _, _, hl, hr⟩ := ordered_node.mp h
    cases hc : compare k k' <;> simp only [before_node, hc]
    case lt => exact ihl hl
    case eq => exact fun e mem => TransCmp.lt_of_lt_of_eq (left e mem) (OrientedCmp.eq_symm hc)
    case gt =>
      have passed : compare k' k = .lt := OrientedCmp.gt_iff_lt.mp hc
      intro e mem
      simp only [List.mem_append, List.mem_cons] at mem
      rcases mem with mem | rfl | mem
      · exact TransCmp.lt_trans (left e mem) passed
      · exact passed
      · exact ihr hr e mem

theorem Ordered.behind_gt (h : t.Ordered) : ∀ e ∈ t.behind k, compare k e.1 = .lt := by
  induction t with
  | leaf => simp
  | node _ l k' v' r ihl ihr =>
    have ⟨_, right, _, hl, hr⟩ := ordered_node.mp h
    cases hc : compare k k' <;> simp only [behind_node, hc]
    case lt =>
      intro e mem
      simp only [List.mem_append, List.mem_cons] at mem
      rcases mem with mem | rfl | mem
      · exact ihl hl e mem
      · exact hc
      · exact TransCmp.lt_trans hc (right e mem)
    case eq => exact fun e mem => TransCmp.lt_of_eq_of_lt hc (right e mem)
    case gt => exact ihr hr

theorem Ordered.replace (h : t.Ordered) (k : κ) (v : ν) : (t.replace k v).1.Ordered := by
  have before := h.before_lt (k := k)
  have behind := h.behind_gt (k := k)
  rw [Ordered, toList_eq_around t k] at h
  simp only [List.pairwise_append, List.mem_append] at h
  have ⟨⟨hbefore, _, _⟩, hbehind, across⟩ := h
  simp only [Ordered, toList_replace, List.pairwise_append, List.pairwise_cons, List.mem_cons]
  refine ⟨hbefore, ⟨behind, hbehind⟩, fun a mem b mem' => ?_⟩
  rcases mem' with rfl | mem'
  · exact before a mem
  · exact across a (.inl mem) b mem'

theorem Ordered.found_eq_some_iff (h : t.Ordered) {e : κ × ν} :
    t.found k = some e ↔ e ∈ t.toList ∧ compare k e.1 = .eq := by
  constructor
  case mp =>
    intro eq
    rw [toList_eq_around t k]
    exact ⟨by simp [eq], compare_found eq⟩
  case mpr =>
    intro ⟨mem, same⟩
    rw [toList_eq_around t k] at mem
    simp only [List.mem_append, Option.mem_toList] at mem
    rcases mem with (mem | eq) | mem
    · have lt := h.before_lt e mem
      rw [OrientedCmp.eq_symm same] at lt
      cases lt
    · exact eq
    · have lt := h.behind_gt e mem
      rw [same] at lt
      cases lt

end AvlTree

end ExprTree
