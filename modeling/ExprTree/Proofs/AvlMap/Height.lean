import Mathlib.Analysis.SpecialFunctions.Log.Base
import Mathlib.NumberTheory.Real.GoldenRatio
import Mathlib.Tactic.NormNum.NatFib
import ExprTree.Proofs.AvlMap.Balance

namespace ExprTree

universe u v

open Std

variable {κ : Type u} {ν : Type v}

section Fibonacci

open Real

-- Of two subtrees of neighbouring heights, the higher one has nodes for one Fibonacci number, and the
-- other one for the number before.
theorem fib_le_add {m n : Nat} (near : n ≤ m + 1) :
    Nat.fib (n + 3) ≤ Nat.fib (m + 2) + Nat.fib (n + 2) := by
  have lower : Nat.fib (n + 1) ≤ Nat.fib (m + 2) := Nat.fib_mono (by omega)
  have split : Nat.fib (n + 3) = Nat.fib (n + 1) + Nat.fib (n + 2) := Nat.fib_add_two
  omega

theorem goldenRatio_pow_le_fib (n : Nat) : goldenRatio ^ n ≤ Nat.fib (n + 2) := by
  cases n with
  | zero => simp
  | succ n =>
    have split : (Nat.fib (n + 3) : ℝ) = Nat.fib n + 2 * Nat.fib (n + 1) := by
      rw [Nat.fib_add_two, Nat.fib_add_two]
      push_cast
      ring
    calc goldenRatio ^ (n + 1)
      _ = goldenRatio * Nat.fib (n + 1) + Nat.fib n := (goldenRatio_mul_fib_succ_add_fib n).symm
      _ ≤ 2 * Nat.fib (n + 1) + Nat.fib n := by gcongr; exact goldenRatio_lt_two.le
      _ = Nat.fib (n + 3) := by rw [split, add_comm]

theorem logb_goldenRatio_ge : 1 ≤ 1.4405 * logb 2 goldenRatio := by
  have ratio : (8 : ℝ) / 5 ≤ goldenRatio := by
    have root : (11 : ℝ) / 5 ≤ √5 := Real.le_sqrt_of_sq_le (by norm_num)
    rw [goldenRatio]
    linarith
  have power : (2 : ℝ) ^ 2000 ≤ goldenRatio ^ 2881 := by
    calc (2 : ℝ) ^ 2000
      _ = (2 ^ 200) ^ 10 := by rw [← pow_mul]
      _ ≤ 8 / 5 * Nat.fib 2881 + Nat.fib 2880 := by norm_num
      _ ≤ goldenRatio * Nat.fib 2881 + Nat.fib 2880 := by gcongr
      _ = goldenRatio ^ 2881 := goldenRatio_mul_fib_succ_add_fib 2880
  have logs : logb 2 ((2 : ℝ) ^ 2000) ≤ logb 2 (goldenRatio ^ 2881) :=
    logb_le_logb_of_le one_lt_two (by positivity) power
  rw [logb_pow, logb_pow, logb_self_eq_one one_lt_two] at logs
  norm_num at logs ⊢
  linarith

theorem le_logb_of_fib_le {n size : Nat} (h : Nat.fib (n + 2) ≤ size + 1) :
    (n : ℝ) ≤ 1.4405 * logb 2 (size + 2) := by
  have power : goldenRatio ^ n ≤ size + 2 := by
    calc goldenRatio ^ n
      _ ≤ Nat.fib (n + 2) := goldenRatio_pow_le_fib n
      _ ≤ size + 1 := mod_cast h
      _ ≤ size + 2 := by linarith
  calc (n : ℝ)
    _ = n * 1 := (mul_one _).symm
    _ ≤ n * (1.4405 * logb 2 goldenRatio) := by gcongr; exact logb_goldenRatio_ge
    _ = 1.4405 * logb 2 (goldenRatio ^ n) := by rw [logb_pow]; ring
    _ ≤ 1.4405 * logb 2 (size + 2) := by gcongr; norm_num

end Fibonacci

namespace AvlTree

variable {t : AvlTree κ ν}

theorem Balanced.fib_le_count (h : t.Balanced) : Nat.fib (t.height + 2) ≤ t.count + 1 := by
  induction h with
  | leaf => simp [count]
  | @node h l r k v height left right hl hr ihl ihr =>
    -- A tree as small as its height allows has subtrees of neighbouring heights.
    rw [height_node, height, count]
    cases Nat.le_total l.height r.height with
    | inl le =>
      have split := fib_le_add right
      rw [Nat.max_eq_right le, show 1 + r.height + 2 = r.height + 3 by omega]
      omega
    | inr le =>
      have split := fib_le_add left
      rw [Nat.max_eq_left le, show 1 + l.height + 2 = l.height + 3 by omega]
      omega

variable [Ord κ] {cmp : κ → κ → Ordering} {k : κ}

def path (k : κ) : AvlTree κ ν → List κ
  | leaf => []
  | node _ l k' _ r =>
    k' :: match compare k k' with
      | .lt => l.path k
      | .eq => []
      | .gt => r.path k

theorem length_path_le (t : AvlTree κ ν) (k : κ) : (t.path k).length ≤ t.depth := by
  induction t with
  | leaf => exact Nat.le_refl 0
  | node _ l k' _ r ihl ihr =>
    rw [path, depth, List.length_cons]
    split
    case h_1 => omega
    case h_2 => exact Nat.le_add_right_of_le (Nat.le_refl 1)
    case h_3 => omega

theorem found_congr (same : ∀ k' ∈ t.path k, cmp k k' = compare k k') :
    @found κ ν ⟨cmp⟩ k t = t.found k := by
  induction t with
  | leaf => rfl
  | node _ l k' v r ihl ihr =>
    rw [path, List.forall_mem_cons] at same
    have ⟨here, below⟩ := same
    cases h : compare k k' <;> rw [h] at below <;> simp only [found, compare, here, h]
    case lt => exact ihl below
    case gt => exact ihr below

theorem replace_congr (same : ∀ k' ∈ t.path k, cmp k k' = compare k k') (v : ν) :
    @replace κ ν ⟨cmp⟩ k v t = t.replace k v := by
  induction t with
  | leaf => rfl
  | node _ l k' v' r ihl ihr =>
    rw [path, List.forall_mem_cons] at same
    have ⟨here, below⟩ := same
    cases h : compare k k' <;> rw [h] at below <;> simp only [replace, compare, here, h]
    case lt => rw [ihl below]
    case gt => rw [ihr below]

theorem get?_congr (same : ∀ k' ∈ t.path k, cmp k k' = compare k k') :
    @get? κ ν ⟨cmp⟩ k t = t.get? k := by
  rw [@get?_eq_found κ ν ⟨cmp⟩, found_congr same, get?_eq_found]

theorem insert_congr (same : ∀ k' ∈ t.path k, cmp k k' = compare k k') (v : ν) :
    @insert κ ν ⟨cmp⟩ k v t = t.insert k v := by
  rw [@insert_eq κ ν ⟨cmp⟩, found_congr same, replace_congr same, insert_eq]

end AvlTree

namespace AvlMap

variable [Ord κ]

-- A look-up and an update of a key ask for nothing about it but how it compares with these keys.
def AsksOnly (m : AvlMap κ ν) (k : κ) (keys : List κ) : Prop :=
  ∀ cmp : κ → κ → Ordering, (∀ k' ∈ keys, cmp k k' = compare k k') →
    @get? κ ν ⟨cmp⟩ m k = m.get? k ∧
      ∀ v, @insert κ ν ⟨cmp⟩ m k v = m.insert k v ∧ @replace κ ν ⟨cmp⟩ m k v = m.replace k v

theorem asksOnly_path (m : AvlMap κ ν) (k : κ) : m.AsksOnly k (m.root.path k) := by
  intro cmp same
  refine ⟨AvlTree.get?_congr same, fun v => ⟨?_, ?_⟩⟩
  · unfold insert
    rw [AvlTree.insert_congr same]
  · unfold replace
    rw [AvlTree.replace_congr same]

variable [TransOrd κ]

-- The height of a map is that of a Fibonacci number that its size comes up to, so it grows with the
-- logarithm of the size. A look-up or an update compares its key with no more keys than the map has
-- levels.
theorem run_height (updates : List (Update κ ν)) :
    let m : AvlMap κ ν := run updates
    Nat.fib (m.height + 2) ≤ m.size + 1 ∧
      (m.height : ℝ) ≤ 1.4405 * Real.logb 2 (m.size + 2) ∧
      ∀ k, m.AsksOnly k (m.root.path k) ∧ (m.root.path k).length ≤ m.height := by
  intro m
  have invariant : m.Invariant := .run updates
  have least : Nat.fib (m.height + 2) ≤ m.size + 1 := by
    rw [invariant.size]
    exact invariant.balanced.fib_le_count
  refine ⟨least, le_logb_of_fib_le least, fun k => ⟨m.asksOnly_path k, ?_⟩⟩
  rw [height, invariant.balanced.height_eq_depth]
  exact m.root.length_path_le k

theorem run_height_smallest :
    let updates : List (Update Int String) :=
      [.insert 2 "b", .insert 1 "a", .insert 3 "c", .insert 4 "d"]
    let m := run updates
    (m.height = 3 ∧ m.size = 4 ∧ m.root.path 5 = [2, 3, 4]) ∧
      Nat.fib (m.height + 2) ≤ m.size + 1 ∧ (m.height : ℝ) ≤ 1.4405 * Real.logb 2 (m.size + 2) ∧
      m.AsksOnly 5 [2, 3, 4] ∧ [2, 3, 4].length ≤ m.height := by
  intro updates m
  have shape : m.height = 3 ∧ m.size = 4 ∧ m.root.path 5 = [2, 3, 4] := by decide
  have ⟨least, most, asks⟩ := run_height updates
  have path : m.AsksOnly 5 (m.root.path 5) ∧ (m.root.path 5).length ≤ m.height := asks 5
  rw [shape.2.2] at path
  exact ⟨shape, least, most, path⟩

end AvlMap

end ExprTree
