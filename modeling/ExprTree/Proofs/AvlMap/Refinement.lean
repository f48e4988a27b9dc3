import ExprTree.Proofs.AvlMap.Balance

namespace ExprTree

universe u v

open Std

variable {κ : Type u} {ν : Type v}

namespace AvlTree

variable [Ord κ] [TransOrd κ] [LawfulEqOrd κ] {t : AvlTree κ ν} {k k' : κ} {v w : ν}

theorem Ordered.get?_eq_some_iff (h : t.Ordered) : t.get? k = some v ↔ (k, v) ∈ t.toList := by
  simp only [get?_eq_found, Option.map_eq_some_iff, h.found_eq_some_iff, Std.compare_eq_iff_eq]
  constructor
  case mp =>
    intro ⟨(k', v'), ⟨mem, key⟩, value⟩
    exact key ▸ value ▸ mem
  case mpr => exact fun mem => ⟨(k, v), ⟨mem, rfl⟩, rfl⟩

theorem Ordered.mem_around_iff (h : t.Ordered) :
    (k', w) ∈ t.before k ∨ (k', w) ∈ t.behind k ↔ k' ≠ k ∧ (k', w) ∈ t.toList := by
  have middle (found : t.found k = some (k', w)) : k' = k :=
    (Std.compare_eq_iff_eq.mp (compare_found found)).symm
  rw [toList_eq_around t k, List.mem_append, List.mem_append, Option.mem_toList]
  constructor
  case mp =>
    intro mem
    refine ⟨fun eq => ?_, mem.imp_left .inl⟩
    subst eq
    cases mem with
    | inl mem => simpa using h.before_lt _ mem
    | inr mem => simpa using h.behind_gt _ mem
  case mpr =>
    intro ⟨ne, mem⟩
    rcases mem with (mem | found) | mem
    · exact .inl mem
    · exact absurd (middle found) ne
    · exact .inr mem

theorem Ordered.get?_replace [DecidableEq κ] (h : t.Ordered) :
    (t.replace k v).1.get? k' = if k' = k then some v else t.get? k' := by
  ext w
  rw [(h.replace k v).get?_eq_some_iff, toList_replace, List.mem_append, List.mem_cons,
    or_left_comm, h.mem_around_iff, Prod.mk.injEq]
  split
  case isTrue eq => simp [eq, eq_comm]
  case isFalse ne => simp [ne, h.get?_eq_some_iff]

end AvlTree

abbrev Bindings (κ : Type u) (ν : Type v) := κ → Option ν

namespace Bindings

variable [DecidableEq κ]

def bind (f : Bindings κ ν) (k : κ) (v : ν) : Bindings κ ν :=
  fun k' => if k' = k then some v else f k'

-- An insertion is refused for a key that is bound.
def update (f : Bindings κ ν) : Update κ ν → Bindings κ ν
  | .insert k v => if (f k).isSome then f else f.bind k v
  | .replace k v => f.bind k v

def run (updates : List (Update κ ν)) : Bindings κ ν :=
  updates.foldl update fun _ => none

end Bindings

namespace AvlMap

variable [Ord κ] [TransOrd κ] [LawfulEqOrd κ] [DecidableEq κ] {m : AvlMap κ ν}

theorem Invariant.get?_replace (h : m.Invariant) (k : κ) (v : ν) :
    (m.replace k v).get? = Bindings.bind m.get? k v :=
  funext fun _ => h.ordered.get?_replace

theorem Invariant.get?_update (h : m.Invariant) (u : Update κ ν) :
    (m.update u).get? = Bindings.update m.get? u := by
  cases u with
  | replace k v => exact h.get?_replace k v
  | insert k v =>
    simp only [AvlMap.update, Bindings.update, insert_eq, contains]
    by_cases bound : (m.get? k).isSome
    case pos => simp [bound, Except.toOption]
    case neg => simpa [bound, Except.toOption] using h.get?_replace k v

theorem Invariant.get?_foldl (h : m.Invariant) (updates : List (Update κ ν)) :
    (updates.foldl AvlMap.update m).get? = updates.foldl Bindings.update m.get? := by
  induction updates generalizing m with
  | nil => rfl
  | cons u updates ih => rw [List.foldl_cons, List.foldl_cons, ih (h.update u), h.get?_update u]

-- A map has the bindings that its changes make, lists them in the order of the keys, refuses to
-- insert exactly what is bound, and changes nothing but the binding of the key.
theorem run_refines (updates : List (Update κ ν)) :
    let m := run updates
    let f := Bindings.run updates
    (∀ k, m.get? k = f k) ∧
    (m.entries.Pairwise (fun a b => compare a.1 b.1 = .lt) ∧
      ∀ k v, (k, v) ∈ m.entries ↔ f k = some v) ∧
    (∀ k v, m.insert k v = .error .duplicateKey ↔ ∃ bound, f k = some bound) ∧
    (∀ k v, f k = none → ∃ m', m.insert k v = .ok m' ∧ ∀ k', m'.get? k' = f.bind k v k') ∧
    (∀ k v k', (m.replace k v).get? k' = f.bind k v k') := by
  intro m f
  have invariant : m.Invariant := .run updates
  have bindings : m.get? = f := Invariant.empty.get?_foldl updates
  have replaced (k : κ) (v : ν) : (m.replace k v).get? = f.bind k v :=
    bindings ▸ invariant.get?_replace k v
  have contained (k : κ) : m.contains k = (f k).isSome := by rw [contains, bindings]
  refine ⟨congrFun bindings, ⟨?_, fun k v => ?_⟩, fun k v => ?_, fun k v free => ?_, fun k v => ?_⟩
  · rw [entries_eq_toList]
    exact invariant.ordered
  · rw [entries_eq_toList, ← invariant.ordered.get?_eq_some_iff, ← bindings]
    rfl
  · rw [insert_eq, contained, ← Option.isSome_iff_exists]
    split <;> simp [*]
  · refine ⟨m.replace k v, ?_, congrFun (replaced k v)⟩
    rw [insert_eq, contained, free]
    rfl
  · exact congrFun (replaced k v)

theorem run_refines_letters :
    let updates : List (Update String Nat) :=
      [.insert "b" 1, .insert "a" 2, .insert "b" 3, .replace "a" 4, .insert "c" 5]
    let m := run updates
    (m.get? "a" = some 4 ∧ m.get? "b" = some 1 ∧ m.get? "d" = none) ∧
      (("a", 4) ∈ m.entries ∧ ("b", 3) ∉ m.entries) ∧
      m.insert "c" 6 = .error .duplicateKey ∧
      ∃ m', m.insert "d" 6 = .ok m' ∧ m'.get? "d" = some 6 ∧ m'.get? "b" = some 1 := by
  intro updates m
  have ⟨look, ⟨_, listed⟩, refused, inserted, _⟩ := run_refines updates
  have bound : Bindings.run updates "a" = some 4 ∧ Bindings.run updates "b" = some 1 ∧
      Bindings.run updates "c" = some 5 ∧ Bindings.run updates "d" = none := by
    decide
  have ⟨a, b, c, d⟩ := bound
  have ⟨m', ok, look'⟩ := inserted "d" 6 d
  refine ⟨⟨?_, ?_, ?_⟩, ⟨?_, ?_⟩, (refused "c" 6).mpr ⟨5, c⟩, m', ok, ?_, ?_⟩
  · rw [look, a]
  · rw [look, b]
  · rw [look, d]
  · rw [listed, a]
  · rw [listed, b]
    decide
  · rw [look']
    rfl
  · rw [look', Bindings.bind, b]
    rfl

end AvlMap

end ExprTree
