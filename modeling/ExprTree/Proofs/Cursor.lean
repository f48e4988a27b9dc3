import ExprTree.Cursor

namespace ExprTree

universe u v

theorem byteSize_eq_zero {text : List Char} : byteSize text = 0 ↔ text = [] := by
  cases text with
  | nil => simp
  | cons c text => simp [Nat.ne_of_gt c.utf8Size_pos]

namespace Cursor

variable {σ : Type u} {τ : Type v} {c : Cursor σ}

theorem Valid.byteSize_rest (h : c.Valid) : c.offset + byteSize c.rest = c.source.utf8ByteSize := by
  have ⟨read, source, offset⟩ := h
  rw [offset, ← byteSize_append, ← source, byteSize_toList]

theorem Valid.remaining_eq (h : c.Valid) : c.remaining = byteSize c.rest := by
  have := h.byteSize_rest
  rw [remaining]
  omega

theorem Valid.offset_le (h : c.Valid) : c.offset ≤ c.source.utf8ByteSize := by
  have := h.byteSize_rest
  omega

@[simp]
theorem drop_zero (c : Cursor σ) : c.drop 0 = c := by
  simp [drop]

@[simp]
theorem drop_drop (c : Cursor σ) (m n : Nat) : (c.drop m).drop n = c.drop (m + n) := by
  simp [drop, List.take_add, Nat.add_assoc]

@[simp]
theorem drop_state (c : Cursor σ) (n : Nat) : (c.drop n).state = c.state := rfl

@[simp]
theorem withState_state (c : Cursor σ) (s : τ) : (c.withState s).state = s := rfl

@[simp]
theorem withState_drop (c : Cursor σ) (s : σ) (n : Nat) :
    (c.withState s).drop n = (c.drop n).withState s := rfl

@[simp]
theorem withState_valid (c : Cursor σ) (s : τ) : (c.withState s).Valid ↔ c.Valid := Iff.rfl

theorem Valid.drop_remaining_lt (h : c.Valid) {n : Nat} (some : 0 < n) (rest : c.rest ≠ []) :
    (c.drop n).remaining < c.remaining := by
  rw [h.remaining_eq, (h.drop n).remaining_eq]
  have split : byteSize c.rest = byteSize (c.rest.take n) + byteSize (c.rest.drop n) := by
    rw [← byteSize_append, List.take_append_drop]
  have read : byteSize (c.rest.take n) ≠ 0 := by
    rw [Ne, byteSize_eq_zero, List.take_eq_nil_iff]
    exact fun empty => empty.elim (Nat.ne_of_gt some) rest
  show byteSize (c.rest.drop n) < _
  omega

theorem drop_remaining_le (c : Cursor σ) (n : Nat) : (c.drop n).remaining ≤ c.remaining := by
  show c.source.utf8ByteSize - (c.offset + _) ≤ c.source.utf8ByteSize - c.offset
  omega

end Cursor

end ExprTree
