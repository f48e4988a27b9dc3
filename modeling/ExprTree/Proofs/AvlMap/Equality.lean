import ExprTree.Proofs.AvlMap.Balance

namespace ExprTree

universe u v

open Std

variable {κ : Type u} {ν : Type v} [Ord κ]

namespace Entries

def lookup (k : κ) (entries : List (κ × ν)) : Option ν :=
  (entries.find? fun e => compare k e.1 == .eq).map (·.2)

def Sorted (entries : List (κ × ν)) : Prop :=
  entries.Pairwise fun a b => compare a.1 b.1 = .lt

variable {k : κ} {a b : κ × ν} {as bs : List (κ × ν)}

@[simp]
theorem lookup_nil : lookup k ([] : List (κ × ν)) = none := rfl

theorem lookup_cons_same (same : compare k a.1 = .eq) : lookup k (a :: as) = some a.2 := by
  simp [lookup, same]

theorem lookup_cons_other (other : compare k a.1 ≠ .eq) : lookup k (a :: as) = lookup k as := by
  simp [lookup, other]

theorem lookup_eq_none (others : ∀ e ∈ as, compare k e.1 ≠ .eq) : lookup k as = none := by
  simpa [lookup] using others

theorem cons_beq_cons_iff [BEq κ] [LawfulBEqOrd κ] [BEq ν] :
    a :: as == b :: bs ↔ compare a.1 b.1 = .eq ∧ a.2 == b.2 ∧ as == bs := by
  rw [List.cons_beq_cons, Bool.and_eq_true, LawfulBEqCmp.compare_eq_iff_beq, ← and_assoc]
  exact and_congr_left' Bool.and_eq_true_iff

variable [TransOrd κ]

theorem Sorted.lookup_tail (sorted : Sorted (a :: as)) (low : (compare k a.1).isLE) :
    lookup k as = none := by
  refine lookup_eq_none fun e mem => ?_
  have lt : compare a.1 e.1 = .lt := List.rel_of_pairwise_cons sorted mem
  simp [TransCmp.lt_of_isLE_of_lt low lt]

theorem Sorted.lookup_below (sorted : Sorted (a :: as)) (below : compare k a.1 = .lt) :
    lookup k (a :: as) = none := by
  rw [lookup_cons_other (by simp [below])]
  exact sorted.lookup_tail (by simp [below])

theorem Sorted.not_below_of_bound (sorted : Sorted (a :: as))
    (bound : (lookup k (a :: as)).isSome) : compare k a.1 ≠ .lt := by
  intro below
  simp [sorted.lookup_below below] at bound

section Agreement

variable [BEq ν]

theorem isSome_eq_of_beq {o p : Option ν} (same : o == p) : o.isSome = p.isSome := by
  cases o <;> cases p <;> simp_all

-- The smallest key that is bound is the first one in both lists.
theorem Sorted.compare_heads (ha : Sorted (a :: as)) (hb : Sorted (b :: bs))
    (agree : ∀ k, lookup k (a :: as) == lookup k (b :: bs)) : compare a.1 b.1 = .eq := by
  have notBelow : compare a.1 b.1 ≠ .lt := by
    refine hb.not_below_of_bound ?_
    rw [← isSome_eq_of_beq (agree a.1), lookup_cons_same compare_self]
    rfl
  have notAbove : compare b.1 a.1 ≠ .lt := by
    refine ha.not_below_of_bound ?_
    rw [isSome_eq_of_beq (agree b.1), lookup_cons_same compare_self]
    rfl
  cases order : compare a.1 b.1 with
  | eq => rfl
  | lt => exact absurd order notBelow
  | gt => exact absurd (OrientedCmp.lt_of_gt order) notAbove

theorem Sorted.agree_tails (ha : Sorted (a :: as)) (hb : Sorted (b :: bs))
    (key : compare a.1 b.1 = .eq) (agree : ∀ k, lookup k (a :: as) == lookup k (b :: bs)) (k : κ) :
    lookup k as == lookup k bs := by
  have alike : compare k a.1 = compare k b.1 := TransCmp.congr_right key
  by_cases here : compare k a.1 = .eq
  case pos =>
    rw [ha.lookup_tail (by simp [here]), hb.lookup_tail (by simp [← alike, here])]
    rfl
  case neg =>
    have both := agree k
    rwa [lookup_cons_other here, lookup_cons_other (alike ▸ here)] at both

end Agreement

section Equality

variable [BEq κ] [LawfulBEqOrd κ] [BEq ν]

theorem lookup_beq_of_beq (same : as == bs) (k : κ) : lookup k as == lookup k bs := by
  induction as generalizing bs with
  | nil =>
    cases bs with
    | nil => rfl
    | cons b bs => simp at same
  | cons a as ih =>
    cases bs with
    | nil => simp at same
    | cons b bs =>
      have ⟨key, value, rest⟩ := cons_beq_cons_iff.mp same
      have alike : compare k a.1 = compare k b.1 := TransCmp.congr_right key
      by_cases here : compare k a.1 = .eq
      case pos => rwa [lookup_cons_same here, lookup_cons_same (alike ▸ here)]
      case neg =>
        rw [lookup_cons_other here, lookup_cons_other (alike ▸ here)]
        exact ih rest

theorem Sorted.beq_of_lookup (ha : Sorted as) (hb : Sorted bs)
    (agree : ∀ k, lookup k as == lookup k bs) : as == bs := by
  induction as generalizing bs with
  | nil =>
    cases bs with
    | nil => rfl
    | cons b bs =>
      have bound : lookup b.1 (b :: bs) = some b.2 := lookup_cons_same compare_self
      simpa [bound] using agree b.1
  | cons a as ih =>
    have bound : lookup a.1 (a :: as) = some a.2 := lookup_cons_same compare_self
    cases bs with
    | nil => simpa [bound] using agree a.1
    | cons b bs =>
      have key := ha.compare_heads hb agree
      have value : a.2 == b.2 := by
        have both := agree a.1
        rwa [bound, lookup_cons_same key] at both
      have rest : as == bs := ih ha.of_cons hb.of_cons (ha.agree_tails hb key agree)
      exact cons_beq_cons_iff.mpr ⟨key, value, rest⟩

end Equality

end Entries

-- A search through the traversal ends at the entry that the search in the tree ends at.
theorem AvlTree.Ordered.get?_eq_lookup [TransOrd κ] {t : AvlTree κ ν} (h : t.Ordered) (k : κ) :
    t.get? k = Entries.lookup k t.toList := by
  have before : (t.before k).find? (fun e => compare k e.1 == .eq) = none := by
    refine List.find?_eq_none.mpr fun e mem => ?_
    simp [OrientedCmp.gt_of_lt (h.before_lt e mem)]
  have behind : (t.behind k).find? (fun e => compare k e.1 == .eq) = none := by
    refine List.find?_eq_none.mpr fun e mem => ?_
    simp [h.behind_gt e mem]
  rw [get?_eq_found, Entries.lookup, toList_eq_around t k, List.find?_append, List.find?_append,
    before, behind]
  cases found : t.found k with
  | none => rfl
  | some e => simp [compare_found found]

namespace AvlMap

variable [BEq κ] [BEq ν] {m n : AvlMap κ ν}

theorem Invariant.beq_iff (hm : m.Invariant) (hn : n.Invariant) :
    m == n ↔ m.root.toList == n.root.toList := by
  have unfolded : (m == n) = (m.size == n.size && m.root.toList == n.root.toList) := by
    rw [← entries_eq_toList, ← entries_eq_toList]
    rfl
  rw [unfolded, Bool.and_eq_true, and_iff_right_iff_imp, hm.size, hn.size,
    AvlTree.count_eq_length, AvlTree.count_eq_length]
  intro same
  exact beq_iff_eq.mpr (List.length_eq_of_beq same)

variable [TransOrd κ] [LawfulBEqOrd κ]

-- Whatever their histories, and whatever trees these have left, maps are equal exactly if they
-- agree on all look-ups. Maps that share their tree are equal, so a comparison may look for that
-- first.
theorem run_beq_iff [ReflBEq ν] (updates updates' : List (Update κ ν)) :
    let m := run updates
    let n := run updates'
    (m == n ↔ ∀ k, m.get? k == n.get? k) ∧ (m.root = n.root → m == n) := by
  intro m n
  have hm : m.Invariant := .run updates
  have hn : n.Invariant := .run updates'
  have lookup (k : κ) : m.get? k = Entries.lookup k m.root.toList := hm.ordered.get?_eq_lookup k
  have lookup' (k : κ) : n.get? k = Entries.lookup k n.root.toList := hn.ordered.get?_eq_lookup k
  have agree : m == n ↔ ∀ k, m.get? k == n.get? k := by
    simp only [hm.beq_iff hn, lookup, lookup']
    exact ⟨Entries.lookup_beq_of_beq, Entries.Sorted.beq_of_lookup hm.ordered hn.ordered⟩
  refine ⟨agree, fun shared => agree.mpr fun k => ?_⟩
  rw [get?, get?, shared]
  exact beq_self_eq_true _

theorem run_beq_iff_rotated :
    let updates : List (Update Int String) := [.insert 1 "a", .insert 2 "x", .replace 2 "b"]
    let updates' : List (Update Int String) := [.insert 2 "b", .insert 1 "a"]
    let m := run updates
    let n := run updates'
    let older := run (updates.take 2)
    (m.root ≠ n.root ∧ m == n ∧ ∀ k, m.get? k == n.get? k) ∧ ¬(m == older) := by
  intro updates updates' m n older
  have left : m.root = .node 2 .leaf 1 "a" (.node 1 .leaf 2 "b" .leaf) := rfl
  have right : n.root = .node 2 (.node 1 .leaf 1 "a" .leaf) 2 "b" .leaf := rfl
  have ⟨agree, _⟩ := run_beq_iff updates updates'
  have same : m == n := by
    rw [Invariant.beq_iff (.run updates) (.run updates'), left, right]
    rfl
  refine ⟨⟨by simp [left, right], same, agree.mp same⟩, fun same => ?_⟩
  have ⟨agree, _⟩ := run_beq_iff updates (updates.take 2)
  exact absurd (agree.mp same 2) (by decide)

end AvlMap

end ExprTree
