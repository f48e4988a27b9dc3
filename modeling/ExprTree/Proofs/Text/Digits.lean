import Mathlib.Algebra.Group.Nat.Defs
import Mathlib.Data.List.Induction
import Mathlib.Data.Nat.Digits.Defs
import ExprTree.Text.Digits

namespace ExprTree.Text

variable {d : Char} {ds : List Char}

def decimalDigits : List Char :=
  "0123456789".toList

def hexadecimalDigits : List Char :=
  "0123456789abcdefABCDEF".toList

-- The place of a digit, in either case, among all digits.
def rank (d : Char) : Nat :=
  "0123456789abcdef".toList.idxOf d.toLower

def positional (base : Nat) (ds : List Char) : Nat :=
  Nat.ofDigits base (ds.reverse.map rank)

theorem digitValue_eq_rank (h : d ∈ hexadecimalDigits) : digitValue d = rank d := by
  have table : hexadecimalDigits.all fun d => digitValue d == rank d := by decide
  exact beq_iff_eq.mp (List.all_eq_true.mp table d h)

theorem numeral_eq_positional (base : Nat) (h : ∀ d ∈ ds, d ∈ hexadecimalDigits) :
    numeral base ds = positional base ds := by
  induction ds using List.reverseRecOn with
  | nil => rfl
  | append_singleton ds d ih =>
    have ⟨others, last⟩ := List.forall_mem_append.mp h
    have value := digitValue_eq_rank (List.forall_mem_singleton.mp last)
    rw [numeral, List.foldl_append, ← numeral, ih others, positional, positional]
    simp [Nat.ofDigits_cons, value, Nat.mul_comm, Nat.add_comm]

theorem exists_rank {m : Nat} (small : m < 16) : ∃ d ∈ hexadecimalDigits, rank d = m := by
  have table : (List.range 16).all fun m => hexadecimalDigits.any fun d => rank d == m := by decide
  have found := List.all_eq_true.mp table m (List.mem_range.mpr small)
  simpa using found

theorem exists_positional {n : Nat} (size : Nat) (small : n < 16 ^ size) :
    ∃ ds, ds.length = size ∧ (∀ d ∈ ds, d ∈ hexadecimalDigits) ∧ positional 16 ds = n := by
  induction size generalizing n with
  | zero =>
    have zero : n = 0 := by simpa using small
    exact ⟨[], rfl, nofun, zero ▸ rfl⟩
  | succ size ih =>
    obtain ⟨ds, length, listed, value⟩ := ih (Nat.div_lt_of_lt_mul (Nat.pow_succ' ▸ small))
    obtain ⟨d, last, place⟩ := exists_rank (Nat.mod_lt n (by decide))
    refine ⟨ds ++ [d], by simp [length], by simpa [or_imp, forall_and, last] using listed, ?_⟩
    rw [positional] at value ⊢
    rw [List.reverse_append, List.reverse_singleton, List.singleton_append, List.map_cons,
      Nat.ofDigits_cons, value, place, Nat.mod_add_div]

theorem numeral_eq (h : ∀ d ∈ ds, d.isDigit) : numeral 10 ds = Nat.ofDigitChars 10 ds 0 := by
  have folded (n : Nat) :
      ds.foldl (fun n d => n * 10 + digitValue d) n = Nat.ofDigitChars 10 ds n := by
    induction ds generalizing n with
    | nil => rfl
    | cons d ds ih =>
      have ⟨head, tail⟩ := List.forall_mem_cons.mp h
      rw [List.foldl_cons, ih tail, Nat.ofDigitChars_cons, digitValue, if_pos head, Nat.mul_comm]
  exact folded 0

theorem natural?_eq_some {limit : Nat} (h : ∀ d ∈ ds, d.isDigit) (nonempty : ds ≠ [])
    (small : Nat.ofDigitChars 10 ds 0 < limit) :
    natural? limit ds = some (Nat.ofDigitChars 10 ds 0) := by
  have unsigned : ∀ ds', ds ≠ '+' :: ds' := by
    rintro ds' rfl
    have sign : '+'.isDigit := h '+' List.mem_cons_self
    exact absurd sign (by decide)
  unfold natural?
  split
  case h_1 ds' => exact absurd rfl (unsigned ds')
  case h_2 => simpa [numeral_eq h, small, nonempty] using h

theorem natural?_toDigits {limit n : Nat} (small : n < limit) :
    natural? limit (Nat.toDigits 10 n) = some n := by
  have digits : ∀ d ∈ Nat.toDigits 10 n, d.isDigit :=
    fun _ mem => Nat.isDigit_of_mem_toDigits (by decide) (by decide) mem
  have value : Nat.ofDigitChars 10 (Nat.toDigits 10 n) 0 = n := Nat.ofDigitChars_ten_toDigits
  rw [natural?_eq_some digits Nat.toDigits_ne_nil (value.symm ▸ small), value]

theorem digit_bounds (h : d.isDigit) : '0'.toNat ≤ d.toNat ∧ d.toNat ≤ '9'.toNat :=
  Char.isDigit_iff_toNat.mp h

theorem ofDigitChars_cons_eq (d : Char) (ds : List Char) :
    Nat.ofDigitChars 10 (d :: ds) 0 =
      10 ^ ds.length * (d.toNat - '0'.toNat) + Nat.ofDigitChars 10 ds 0 := by
  rw [Nat.ofDigitChars_cons, Nat.mul_zero, Nat.zero_add, Nat.ofDigitChars_eq_ofDigitChars_zero]

theorem ofDigitChars_lt (h : ∀ d ∈ ds, d.isDigit) : Nat.ofDigitChars 10 ds 0 < 10 ^ ds.length := by
  induction ds with
  | nil => decide
  | cons d ds ih =>
    have ⟨head, tail⟩ := List.forall_mem_cons.mp h
    have digit : d.toNat - '0'.toNat ≤ 9 := by
      have ⟨_, high⟩ := digit_bounds head
      exact Nat.sub_le_sub_right high _
    have bound : 10 ^ ds.length * (d.toNat - '0'.toNat) ≤ 10 ^ ds.length * 9 :=
      Nat.mul_le_mul_left _ digit
    have below := ih tail
    rw [ofDigitChars_cons_eq, List.length_cons, Nat.pow_succ]
    omega

theorem ofDigitChars_append_eq (ds ds' : List Char) :
    Nat.ofDigitChars 10 (ds ++ ds') 0 =
      Nat.ofDigitChars 10 ds 0 * 10 ^ ds'.length + Nat.ofDigitChars 10 ds' 0 := by
  rw [Nat.ofDigitChars_append, Nat.ofDigitChars_eq_ofDigitChars_zero, Nat.mul_comm]

theorem ofDigitChars_append_zeros (ds : List Char) (zeros : Nat) :
    Nat.ofDigitChars 10 (ds ++ List.replicate zeros '0') 0 = Nat.ofDigitChars 10 ds 0 * 10 ^ zeros := by
  induction zeros with
  | zero => simp
  | succ zeros ih =>
    rw [List.replicate_succ', ← List.append_assoc, ofDigitChars_append_eq, ih, Nat.mul_assoc]
    rfl

theorem le_ofDigitChars {size : Nat} (h : ∀ d ∈ ds, d.isDigit) (significant : ds.head? ≠ some '0')
    (long : size < ds.length) : 10 ^ size ≤ Nat.ofDigitChars 10 ds 0 := by
  cases ds with
  | nil => exact absurd long (Nat.not_lt_zero _)
  | cons d ds =>
    have some : 1 ≤ d.toNat - '0'.toNat := by
      have ⟨low, _⟩ := digit_bounds (h d List.mem_cons_self)
      have other : d.toNat ≠ '0'.toNat := fun eq => significant (congrArg some (Char.toNat_inj.mp eq))
      omega
    calc 10 ^ size
      _ ≤ 10 ^ ds.length := Nat.pow_le_pow_right (by decide) (Nat.le_of_lt_succ long)
      _ ≤ 10 ^ ds.length * (d.toNat - '0'.toNat) := Nat.le_mul_of_pos_right _ some
      _ ≤ Nat.ofDigitChars 10 (d :: ds) 0 := ofDigitChars_cons_eq d ds ▸ Nat.le_add_right _ _

theorem ofDigitChars_pos_iff (h : ∀ d ∈ ds, d.isDigit) :
    0 < Nat.ofDigitChars 10 ds 0 ↔ ds.any (· != '0') := by
  induction ds with
  | nil => simp
  | cons d ds ih =>
    have ⟨head, tail⟩ := List.forall_mem_cons.mp h
    rw [List.any_cons, Bool.or_eq_true, ← ih tail, ofDigitChars_cons_eq]
    by_cases zero : d = '0'
    case pos => simp [zero]
    case neg =>
      have counts : 0 < Nat.ofDigitChars 10 (d :: ds) 0 :=
        Nat.lt_of_lt_of_le (Nat.pow_pos (by decide))
          (le_ofDigitChars h (by simpa using zero) (Nat.lt_succ_self ds.length))
      exact iff_of_true (ofDigitChars_cons_eq d ds ▸ counts) (.inl (bne_iff_ne.mpr zero))

theorem ofDigitChars_dropWhile (ds : List Char) :
    Nat.ofDigitChars 10 (ds.dropWhile (· == '0')) 0 = Nat.ofDigitChars 10 ds 0 := by
  induction ds with
  | nil => rfl
  | cons d ds ih =>
    by_cases zero : d = '0'
    case pos => simpa [zero, ofDigitChars_cons_eq] using ih
    case neg => simp [zero]

theorem ofDigitChars_padded (size : Nat) (ds : List Char) :
    Nat.ofDigitChars 10 (List.replicate size '0' ++ ds) 0 = Nat.ofDigitChars 10 ds 0 := by
  have zeros : ∀ d ∈ List.replicate size '0', (d == '0') = true :=
    fun d mem => beq_iff_eq.mpr (List.eq_of_mem_replicate mem)
  rw [← ofDigitChars_dropWhile, List.dropWhile_append_of_pos zeros, ofDigitChars_dropWhile]

end ExprTree.Text
