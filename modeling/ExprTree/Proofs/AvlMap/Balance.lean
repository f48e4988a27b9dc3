import ExprTree.Proofs.AvlMap.Search

namespace ExprTree

universe u v

open Std

variable {κ : Type u} {ν : Type v}

namespace AvlTree

variable {l r t : AvlTree κ ν} {k : κ} {v : ν}

@[simp]
theorem height_leaf : (leaf : AvlTree κ ν).height = 0 := rfl

@[simp]
theorem height_node {h : Nat} : (node h l k v r).height = h := rfl

@[simp]
theorem height_make : (make l k v r).height = 1 + max l.height r.height := rfl

def depth : AvlTree κ ν → Nat
  | leaf => 0
  | node _ l _ _ r => 1 + max l.depth r.depth

theorem count_eq_length (t : AvlTree κ ν) : t.count = t.toList.length := by
  induction t with
  | leaf => rfl
  | node _ l k v r ihl ihr =>
    simp [count, ihl, ihr]
    omega

section Mirror

def mirror : AvlTree κ ν → AvlTree κ ν
  | leaf => leaf
  | node h l k v r => node h r.mirror k v l.mirror

@[simp]
theorem mirror_leaf : (leaf : AvlTree κ ν).mirror = leaf := rfl

@[simp]
theorem mirror_node {h : Nat} : (node h l k v r).mirror = node h r.mirror k v l.mirror := rfl

@[simp]
theorem mirror_mirror (t : AvlTree κ ν) : t.mirror.mirror = t := by
  induction t with
  | leaf => rfl
  | node _ _ _ _ _ ihl ihr => simp [ihl, ihr]

@[simp]
theorem height_mirror (t : AvlTree κ ν) : t.mirror.height = t.height := by
  cases t <;> rfl

theorem mirror_make : (make l k v r).mirror = make r.mirror k v l.mirror := by
  simp [make, Nat.max_comm]

theorem mirror_rotateRight : (rotateRight l k v r).mirror = rotateLeft r.mirror k v l.mirror := by
  cases l <;> simp [rotateRight, rotateLeft, mirror_make]

theorem mirror_rotateLeft : (rotateLeft l k v r).mirror = rotateRight r.mirror k v l.mirror := by
  cases r <;> simp [rotateRight, rotateLeft, mirror_make]

theorem mirror_straightenLeft : t.straightenLeft.mirror = t.mirror.straightenRight := by
  cases t with
  | leaf => rfl
  | node h l k v r =>
    simp only [straightenLeft, straightenRight, mirror_node, height_mirror]
    split
    case isTrue => exact mirror_rotateLeft
    case isFalse => rfl

end Mirror

inductive Balanced : AvlTree κ ν → Prop
  | leaf : Balanced leaf
  | node {h : Nat} {l r : AvlTree κ ν} {k : κ} {v : ν} (height : h = 1 + max l.height r.height)
      (left : l.height ≤ r.height + 1) (right : r.height ≤ l.height + 1) (hl : Balanced l)
      (hr : Balanced r) : Balanced (node h l k v r)

-- A balanced tree in the place of a node over two subtrees. It has the height of that node, or is
-- lower by one if the subtrees differ by two.
structure Mended (l r t : AvlTree κ ν) : Prop where
  balanced : t.Balanced
  least    : max l.height r.height ≤ t.height
  most     : t.height ≤ 1 + max l.height r.height
  even     : l.height ≤ r.height + 1 → r.height ≤ l.height + 1 →
    t.height = 1 + max l.height r.height

namespace Balanced

theorem height_eq_depth (h : t.Balanced) : t.height = t.depth := by
  induction h with
  | leaf => rfl
  | node height _ _ _ _ ihl ihr => simp [depth, height, ihl, ihr]

protected theorem mirror (h : t.Balanced) : t.mirror.Balanced := by
  induction h with
  | leaf => exact .leaf
  | node height left right _ _ ihl ihr =>
    refine .node ?_ (by simpa using right) (by simpa using left) ihr ihl
    simp [height, Nat.max_comm]

protected theorem make (hl : l.Balanced) (hr : r.Balanced) (left : l.height ≤ r.height + 1)
    (right : r.height ≤ l.height + 1) : (make l k v r).Balanced :=
  .node rfl left right hl hr

-- The left subtree is too high. It is turned to the right, after it has been turned to the left
-- itself if its right subtree is the higher one.
theorem mended_left (hl : l.Balanced) (hr : r.Balanced) (high : l.height = r.height + 2) :
    Mended l r (rotateRight l.straightenLeft k v r) := by
  cases hl with
  | leaf => simp at high
  | @node h ll lr lk lv height left right hll hlr =>
    simp only [height_node] at high
    rw [straightenLeft]
    split
    case isFalse =>
      have inner : (make lr k v r).Balanced := hlr.make hr (by omega) (by omega)
      refine ⟨hll.make inner ?_ ?_, ?_, ?_, ?_⟩
      all_goals
        simp only [rotateRight, height_make, height_node]
        omega
    case isTrue lean =>
      cases hlr with
      | leaf => simp at lean
      | @node h' a b mk mv height' left' right' ha hb =>
        simp only [height_node] at lean right height
        have first : (make ll lk lv a).Balanced := hll.make ha (by omega) (by omega)
        have second : (make b k v r).Balanced := hb.make hr (by omega) (by omega)
        refine ⟨first.make second ?_ ?_, ?_, ?_, ?_⟩
        all_goals
          simp only [rotateLeft, rotateRight, make, height_node]
          omega

end Balanced

protected theorem Mended.mirror (h : Mended l r t) : Mended r.mirror l.mirror t.mirror where
  balanced := h.balanced.mirror
  least    := by simpa [Nat.max_comm] using h.least
  most     := by simpa [Nat.max_comm] using h.most
  even     := by simpa [Nat.max_comm] using fun left right => h.even right left

namespace Balanced

theorem mended_right (hl : l.Balanced) (hr : r.Balanced) (high : r.height = l.height + 2) :
    Mended l r (rotateLeft l k v r.straightenRight) := by
  have turned := (mended_left (k := k) (v := v) hr.mirror hl.mirror (by simpa using high)).mirror
  simpa [mirror_rotateRight, mirror_straightenLeft] using turned

protected theorem rebalance (hl : l.Balanced) (hr : r.Balanced) (left : l.height ≤ r.height + 2)
    (right : r.height ≤ l.height + 2) : Mended l r (rebalance l k v r) := by
  rw [rebalance]
  split
  case isTrue high => exact mended_left hl hr (by omega)
  case isFalse =>
    split
    case isTrue high => exact mended_right hl hr (by omega)
    case isFalse => exact ⟨hl.make hr (by omega) (by omega), by simp, by simp, by simp⟩

protected theorem replace [Ord κ] (h : t.Balanced) (k : κ) (v : ν) :
    (t.replace k v).1.Balanced ∧ t.height ≤ (t.replace k v).1.height ∧
      (t.replace k v).1.height ≤ t.height + 1 := by
  induction h with
  | leaf => exact ⟨leaf.make leaf (by simp) (by simp), by simp [replace]⟩
  | @node _ l r k' v' height left right hl hr ihl ihr =>
    cases h : compare k k' <;> simp only [replace, h, height_node]
    case lt =>
      obtain ⟨hl', least, most⟩ := ihl
      obtain ⟨balanced, _, _, even⟩ := hl'.rebalance (k := k') (v := v') hr (by omega) (by omega)
      exact ⟨balanced, by omega, by omega⟩
    case eq => exact ⟨hl.make hr left right, by simp [height], by simp [height]⟩
    case gt =>
      obtain ⟨hr', least, most⟩ := ihr
      obtain ⟨balanced, _, _, even⟩ := hl.rebalance (k := k') (v := v') hr' (by omega) (by omega)
      exact ⟨balanced, by omega, by omega⟩

end Balanced

-- The invariant at every node: the keys on its two sides, the height that it caches, and the
-- heights of its children.
def Sound [Ord κ] : AvlTree κ ν → Prop
  | leaf => True
  | node h l k _ r =>
    ((∀ e ∈ l.toList, compare e.1 k = .lt) ∧ (∀ e ∈ r.toList, compare k e.1 = .lt)) ∧
      h = 1 + max l.depth r.depth ∧ (l.depth ≤ r.depth + 1 ∧ r.depth ≤ l.depth + 1) ∧
      l.Sound ∧ r.Sound

theorem sound_of_ordered [Ord κ] (ordered : t.Ordered) (balanced : t.Balanced) : t.Sound := by
  induction balanced with
  | leaf => trivial
  | node height left right hl hr ihl ihr =>
    have ⟨smaller, greater, _, ordered, ordered'⟩ := ordered_node.mp ordered
    rw [hl.height_eq_depth, hr.height_eq_depth] at height left right
    exact ⟨⟨smaller, greater⟩, height, ⟨left, right⟩, ihl ordered, ihr ordered'⟩

end AvlTree

inductive Update (κ : Type u) (ν : Type v) where
  | insert (key : κ) (value : ν)
  | replace (key : κ) (value : ν)

namespace AvlMap

variable [Ord κ]

def update (m : AvlMap κ ν) : Update κ ν → AvlMap κ ν
  | .insert k v => (m.insert k v).toOption.getD m
  | .replace k v => m.replace k v

def run (updates : List (Update κ ν)) : AvlMap κ ν :=
  updates.foldl update ∅

-- What the empty map has and every change keeps, all maps have.
theorem run_induction {P : AvlMap κ ν → Prop} (empty : P ∅) (step : ∀ m u, P m → P (m.update u))
    (updates : List (Update κ ν)) : P (run updates) :=
  List.foldlRecOn updates update empty fun m hm u _ => step m u hm

theorem insert_eq (m : AvlMap κ ν) (k : κ) (v : ν) :
    m.insert k v = if m.contains k then .error .duplicateKey else .ok (m.replace k v) := by
  have bound : m.contains k = (m.root.found k).isSome := by
    simp [contains, get?, AvlTree.get?_eq_found]
  simp only [insert, AvlTree.insert_eq, replace, bound]
  cases h : m.root.found k <;> simp [Except.map, h]

theorem update_eq (m : AvlMap κ ν) (u : Update κ ν) :
    m.update u = m ∨ ∃ k v, m.update u = m.replace k v := by
  cases u with
  | replace k v => exact .inr ⟨k, v, rfl⟩
  | insert k v =>
    rw [update, insert_eq]
    split
    case isTrue => exact .inl rfl
    case isFalse => exact .inr ⟨k, v, rfl⟩

structure Invariant (m : AvlMap κ ν) : Prop where
  ordered  : m.root.Ordered
  balanced : m.root.Balanced
  size     : m.size = m.root.count

namespace Invariant

theorem empty : (∅ : AvlMap κ ν).Invariant :=
  ⟨.nil, .leaf, rfl⟩

variable [TransOrd κ] {m : AvlMap κ ν}

theorem replace (h : m.Invariant) (k : κ) (v : ν) : (m.replace k v).Invariant where
  ordered  := h.ordered.replace k v
  balanced := (h.balanced.replace k v).1
  size     := by
    have entries := AvlTree.toList_eq_around m.root k
    simp only [AvlMap.replace, h.size, AvlTree.count_eq_length, AvlTree.toList_replace,
      AvlTree.replace_added, entries]
    cases m.root.found k with
    | none => simp; omega
    | some e => simp

theorem update (h : m.Invariant) (u : Update κ ν) : (m.update u).Invariant := by
  cases m.update_eq u with
  | inl eq => exact eq.symm ▸ h
  | inr eq =>
    have ⟨k, v, eq⟩ := eq
    exact eq ▸ h.replace k v

theorem run (updates : List (Update κ ν)) : (AvlMap.run updates).Invariant :=
  run_induction empty (fun _ u h => h.update u) updates

end Invariant

variable [TransOrd κ]

-- In every map, the keys on the left of a node are smaller and those on its right are greater than
-- its own, it caches its true height, its children differ in height by one at most, and the map
-- knows the number of its nodes.
theorem run_sound (updates : List (Update κ ν)) :
    (run updates).root.Sound ∧ (run updates).size = (run updates).root.count :=
  have invariant := Invariant.run updates
  ⟨AvlTree.sound_of_ordered invariant.ordered invariant.balanced, invariant.size⟩

theorem run_sound_twoRotations :
    let m : AvlMap Int String :=
      run [.insert 3 "c", .insert 1 "a", .insert 2 "b", .replace 2 "d", .insert 1 "e"]
    (m.root.toList = [(1, "a"), (2, "d"), (3, "c")] ∧ m.root.depth = 2) ∧
      m.root.Sound ∧ m.size = m.root.count := by
  intro m
  have shape : m.root.toList = [(1, "a"), (2, "d"), (3, "c")] ∧ m.root.depth = 2 := by decide
  exact ⟨shape, run_sound _⟩

end AvlMap

end ExprTree
