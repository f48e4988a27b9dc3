import Mathlib.Algebra.Order.Field.Basic
import Mathlib.Algebra.Order.Field.Rat
import Mathlib.Tactic.FieldSimp
import Mathlib.Tactic.Linarith
import ExprTree.Decimal
import ExprTree.Proofs.Text.Digits
import ExprTree.Rounding

namespace ExprTree

section Rounding

-- An integer than which no other one is nearer, and an even one if another one is as near.
structure NearestEven (q : ℚ) (m : ℤ) : Prop where
  nearest : ∀ k : ℤ, |q - m| ≤ |q - k|
  even    : ∀ k : ℤ, k ≠ m → |q - k| = |q - m| → Even m

theorem NearestEven.unique {q : ℚ} {m k : ℤ} (hm : NearestEven q m) (hk : NearestEven q k) :
    k = m := by
  by_contra other
  have same : |q - k| = |q - m| := le_antisymm (hk.nearest m) (hm.nearest k)
  have ⟨a, ha⟩ := hm.even k other same
  have ⟨b, hb⟩ := hk.even m (Ne.symm other) same.symm
  -- The integer halfway between two even ones is nearer than both.
  have opposite : q - k = -(q - m) := by
    refine (abs_eq_abs.mp same).resolve_left fun eq => other ?_
    exact_mod_cast sub_right_injective eq
  have middle : q - (a + b : ℤ) = 0 := by
    rw [ha, hb] at opposite
    push_cast at opposite ⊢
    linarith
  have zero : q - m = 0 := by
    have closest := hm.nearest (a + b)
    rw [middle, abs_zero] at closest
    exact abs_eq_zero.mp (le_antisymm closest (abs_nonneg _))
  have zero' : q - k = 0 := by rw [opposite, zero, neg_zero]
  exact other (by exact_mod_cast (sub_right_injective (zero'.trans zero.symm) : (k : ℚ) = m))

theorem abs_div_sub (n : ℕ) {d : ℕ} (pos : 0 < d) (k : ℤ) :
    |(n / d : ℚ) - k| = (|(n : ℤ) - k * d| : ℤ) / (d : ℚ) := by
  have pos : (0 : ℚ) < d := Nat.cast_pos.mpr pos
  have scaled : (n / d : ℚ) - k = ((n : ℤ) - k * d : ℤ) / d := by
    push_cast
    field_simp
  rw [scaled, abs_div, abs_of_pos pos, Int.cast_abs]

theorem mul_apart (d : ℕ) {k m : ℤ} (other : k ≠ m) : k * d + d ≤ m * d ∨ m * d + d ≤ k * d := by
  have apart {a b : ℤ} (lt : a < b) : a * d + d ≤ b * d := by
    have le : (a + 1) * d ≤ b * d := Int.mul_le_mul_of_nonneg_right lt (Int.natCast_nonneg d)
    rwa [add_mul, one_mul] at le
  exact (lt_or_gt_of_ne other).imp apart apart

theorem nearestEven_div {n d : ℕ} {m : ℤ} (pos : 0 < d) (near : 2 * |(n : ℤ) - m * d| ≤ d)
    (tie : 2 * |(n : ℤ) - m * d| = d → Even m) : NearestEven (n / d) m := by
  have pos' : (0 : ℚ) < d := Nat.cast_pos.mpr pos
  have others {k : ℤ} (other : k ≠ m) : (d : ℤ) ≤ |(n : ℤ) - m * d| + |(n : ℤ) - k * d| := by
    have apart := mul_apart d other
    have ⟨up, down⟩ := abs_le.mp (le_refl |(n : ℤ) - m * d|)
    have ⟨up', down'⟩ := abs_le.mp (le_refl |(n : ℤ) - k * d|)
    omega
  constructor
  case nearest =>
    intro k
    rw [abs_div_sub n pos, abs_div_sub n pos]
    refine div_le_div_of_nonneg_right (Int.cast_le.mpr ?_) pos'.le
    by_cases other : k = m
    case pos => rw [other]
    case neg =>
      have away := others other
      omega
  case even =>
    intro k other same
    rw [abs_div_sub n pos, abs_div_sub n pos, div_left_inj' pos'.ne', Int.cast_inj] at same
    have away := others other
    exact tie (by omega)

theorem divRoundEven_parts (q : ℕ) {d r : ℕ} (less : r < d) :
    divRoundEven (q * d + r) d =
      if d < 2 * r ∨ 2 * r = d ∧ q % 2 = 1 then q + 1 else q := by
  have pos : 0 < d := Nat.zero_lt_of_lt less
  have quotient : (q * d + r) / d = q := by
    rw [Nat.add_comm, Nat.add_mul_div_right r q pos, Nat.div_eq_of_lt less, Nat.zero_add]
  have remainder : (q * d + r) % d = r := by
    rw [Nat.mul_add_mod_self_right, Nat.mod_eq_of_lt less]
  simp only [divRoundEven, quotient, remainder, Bool.or_eq_true, Bool.and_eq_true,
    decide_eq_true_eq, beq_iff_eq]

theorem divRoundEven_nearestEven (n : ℕ) {d : ℕ} (pos : 0 < d) :
    NearestEven (n / d) (divRoundEven n d) := by
  have split : (n : ℤ) = (n / d : ℕ) * d + (n % d : ℕ) := by
    exact_mod_cast (Nat.div_add_mod' n d).symm
  have less : n % d < d := Nat.mod_lt n pos
  have value := divRoundEven_parts (n / d) less
  rw [Nat.div_add_mod'] at value
  rw [value]
  generalize n / d = q, n % d = r at split less
  split
  case isTrue up =>
    have next : ((q + 1 : ℕ) : ℤ) * d = q * d + d := by
      push_cast
      rw [add_mul, one_mul]
    have distance : |(n : ℤ) - (q + 1 : ℕ) * d| = d - r := by
      rw [abs_of_nonpos (by omega)]
      omega
    refine nearestEven_div pos (by omega) fun tie => ?_
    have odd : ¬Even q := Nat.not_even_iff.mpr (by omega)
    exact_mod_cast Nat.even_add_one.mpr odd
  case isFalse down =>
    have distance : |(n : ℤ) - q * d| = r := by
      rw [abs_of_nonneg (by omega)]
      omega
    refine nearestEven_div pos (by omega) fun tie => ?_
    exact_mod_cast Nat.even_iff.mpr (by omega)

end Rounding

namespace Decimal

variable {integral fraction : List Char} {exponent s : ℤ} {n : ℕ}

structure Denotes (n : ℕ) (s : ℤ) (d : Decimal) : Prop where
  whole   : s < 0 → d = ⟨(n * 10 ^ (-s).toNat : ℕ), 0⟩
  placed  : 0 ≤ s → s ≤ 28 → d = ⟨n, s.toNat⟩
  rounded : 28 < s → NearestEven (n / 10 ^ (s - 28).toNat) d.mantissa ∧ d.scale = 28

theorem Denotes.unique {d d' : Decimal} (h : Denotes n s d) (h' : Denotes n s d') : d' = d := by
  by_cases negative : s < 0
  case pos => rw [h.whole negative, h'.whole negative]
  case neg =>
    have sign : 0 ≤ s := not_lt.mp negative
    by_cases small : s ≤ 28
    case pos => rw [h.placed sign small, h'.placed sign small]
    case neg =>
      have ⟨nearest, scale⟩ := h.rounded (not_le.mp small)
      have ⟨nearest', scale'⟩ := h'.rounded (not_le.mp small)
      cases d
      cases d'
      simp only [mk.injEq]
      exact ⟨nearest.unique nearest', scale'.trans scale.symm⟩

theorem fit?_eq (m scale : ℕ) :
    fit? m scale = if ((⟨m, scale⟩ : Decimal).mantissa < 2 ^ 96) then some ⟨m, scale⟩ else none := by
  have limit : (mantissaLimit : ℤ) = 2 ^ 96 := by decide
  simp only [fit?, ← limit, Int.ofNat_lt]

theorem fit?_large {m scale : ℕ} (large : 10 ^ 29 ≤ m) : fit? m scale = none := by
  have limit : mantissaLimit ≤ 10 ^ 29 := by decide
  rw [fit?, if_neg (Nat.not_lt.mpr (Nat.le_trans limit large))]

variable {ds : List Char}

section Digits

variable (digits : ∀ c ∈ ds, c.isDigit)

include digits

theorem mantissa?_short (short : ds.length ≤ 29) :
    ∃ m, mantissa? ds = some m ∧ m.toNat = Nat.ofDigitChars 10 ds 0 := by
  have small : Nat.ofDigitChars 10 ds 0 < 2 ^ 128 := calc
    _ < 10 ^ ds.length := Text.ofDigitChars_lt digits
    _ ≤ 10 ^ 29 := Nat.pow_le_pow_right (by decide) short
    _ < 2 ^ 128 := by decide
  cases ds with
  | nil => exact ⟨0, rfl, rfl⟩
  | cons d ds =>
    refine ⟨.ofNat 128 _, ?_, BitVec.toNat_ofNat .. ▸ Nat.mod_eq_of_lt small⟩
    simp only [mantissa?, List.length_cons, if_pos (Nat.lt_of_succ_le short)]
    exact congrArg _ (Text.natural?_eq_some digits (List.cons_ne_nil d ds) small)

omit digits in
theorem mantissa?_long (long : 29 < ds.length) : mantissa? ds = none := by
  obtain ⟨n, length⟩ : ∃ n, ds.length = n + 1 := Nat.exists_eq_add_one.mpr (by omega)
  simp only [mantissa?, length]
  exact if_neg (by omega)

theorem mantissa?_fits (significant : ds.head? ≠ some '0') (scale : ℕ) :
    ((mantissa? ds).bind fun m => fit? m.toNat scale) =
      fit? (Nat.ofDigitChars 10 ds 0) scale := by
  by_cases short : ds.length ≤ 29
  case pos =>
    have ⟨m, read, value⟩ := mantissa?_short digits short
    rw [read, Option.bind_some, value]
  case neg =>
    have long := Nat.lt_of_not_le short
    rw [mantissa?_long long, Option.bind_none,
      fit?_large (Text.le_ofDigitChars digits significant long)]

theorem roundsUp_iff (nonempty : ds ≠ []) (m : BitVec 128) :
    roundsUp m ds ↔ 10 ^ ds.length < 2 * Nat.ofDigitChars 10 ds 0 ∨
      2 * Nat.ofDigitChars 10 ds 0 = 10 ^ ds.length ∧ m.toNat % 2 = 1 := by
  obtain ⟨d, ds, rfl⟩ := List.exists_cons_of_ne_nil nonempty
  have ⟨head, tail⟩ := List.forall_mem_cons.mp digits
  have ⟨low, high⟩ := Text.digit_bounds head
  have below := Text.ofDigitChars_lt tail
  have sticky := Text.ofDigitChars_pos_iff tail
  have odd : (m % 2 == 1) = true ↔ m.toNat % 2 = 1 := by
    rw [beq_iff_eq, ← BitVec.toNat_inj]
    exact Iff.rfl
  have above : '5' < d ↔ 5 < d.toNat - '0'.toNat := by
    have order : '5' < d ↔ '0'.toNat + 5 < d.toNat := UInt32.lt_iff_toNat_lt
    rw [order, Nat.lt_sub_iff_add_lt']
  have five : (d == '5') = true ↔ d.toNat - '0'.toNat = 5 := by
    rw [beq_iff_eq, ← Char.toNat_inj]
    exact (Nat.sub_eq_iff_eq_add low).symm
  simp only [roundsUp, List.headD_cons, List.tail_cons, Bool.or_eq_true, Bool.and_eq_true,
    decide_eq_true_eq, odd, above, five, ← sticky]
  rw [Text.ofDigitChars_cons_eq, List.length_cons, Nat.pow_succ]
  generalize d.toNat - '0'.toNat = first, Nat.ofDigitChars 10 ds 0 = others at *
  generalize 10 ^ ds.length = unit at *
  -- Only behind a five do the other digits matter.
  rcases Nat.lt_trichotomy first 5 with less | rfl | greater
  · have product : unit * first ≤ unit * 4 := Nat.mul_le_mul_left unit (Nat.le_of_lt_succ less)
    omega
  · omega
  · have product : unit * 6 ≤ unit * first := Nat.mul_le_mul_left unit greater
    omega

theorem divRoundEven_short {drop : ℕ} (short : ds.length < drop) :
    divRoundEven (Nat.ofDigitChars 10 ds 0) (10 ^ drop) = 0 := by
  have small : Nat.ofDigitChars 10 ds 0 * 10 < 10 ^ drop := calc
    Nat.ofDigitChars 10 ds 0 * 10 < 10 ^ ds.length * 10 :=
      Nat.mul_lt_mul_of_pos_right (Text.ofDigitChars_lt digits) (by decide)
    _ = 10 ^ (ds.length + 1) := (Nat.pow_succ ..).symm
    _ ≤ 10 ^ drop := Nat.pow_le_pow_right (by decide) short
  have value := divRoundEven_parts 0 (r := Nat.ofDigitChars 10 ds 0) (d := 10 ^ drop) (by omega)
  rwa [Nat.zero_mul, Nat.zero_add, if_neg (by omega)] at value

end Digits

theorem roundHalfEven?_append (kept dropped : List Char) :
    roundHalfEven? (kept ++ dropped) dropped.length =
      (mantissa? kept).map fun m => if roundsUp m dropped then m + 1 else m := by
  have enough : ¬(kept ++ dropped).length < dropped.length := by simp
  have behind : (kept ++ dropped).length - dropped.length = kept.length := by simp
  simp only [roundHalfEven?, if_neg enough, behind, List.splitAt_eq, List.take_left, List.drop_left,
    Option.bind_eq_bind, Option.pure_def, Option.map_eq_bind, Function.comp_def]

-- The digits that are kept are the quotient, and those that are dropped are the remainder.
theorem roundHalfEven?_fits (digits : ∀ c ∈ ds, c.isDigit) (significant : ds.head? ≠ some '0')
    {drop : ℕ} (some : 0 < drop) (scale : ℕ) :
    ((roundHalfEven? ds drop).bind fun m => fit? m.toNat scale) =
      fit? (divRoundEven (Nat.ofDigitChars 10 ds 0) (10 ^ drop)) scale := by
  by_cases short : ds.length < drop
  case pos =>
    rw [roundHalfEven?, if_pos short, divRoundEven_short digits short]
    rfl
  case neg =>
    obtain ⟨kept, dropped, rfl, rfl⟩ : ∃ kept dropped, ds = kept ++ dropped ∧ drop = dropped.length :=
      ⟨ds.take (ds.length - drop), ds.drop (ds.length - drop),
        (List.take_append_drop _ ds).symm, by rw [List.length_drop]; omega⟩
    have ⟨keptDigits, droppedDigits⟩ := List.forall_mem_append.mp digits
    rw [roundHalfEven?_append, Option.bind_map, Text.ofDigitChars_append_eq,
      divRoundEven_parts _ (Text.ofDigitChars_lt droppedDigits)]
    by_cases long : 29 < kept.length
    case pos =>
      have first : kept.head? ≠ Option.some '0' := by
        rwa [List.head?_append_of_ne_nil _ (List.ne_nil_of_length_pos (by omega))] at significant
      have large := Text.le_ofDigitChars keptDigits first long
      rw [mantissa?_long long, fit?_large (by split <;> omega)]
      rfl
    case neg =>
      have ⟨m, read, value⟩ := mantissa?_short keptDigits (Nat.le_of_not_lt long)
      have small : m.toNat < 10 ^ 29 := calc
        m.toNat < 10 ^ kept.length := value ▸ Text.ofDigitChars_lt keptDigits
        _ ≤ 10 ^ 29 := Nat.pow_le_pow_right (by decide) (Nat.le_of_not_lt long)
      have next : (m + 1).toNat = m.toNat + 1 := by
        rw [BitVec.toNat_add]
        exact Nat.mod_eq_of_lt (Nat.lt_trans (Nat.succ_lt_succ small) (by decide))
      rw [read, Option.bind_some, Function.comp_apply, ← value]
      simp only [← roundsUp_iff droppedDigits (List.ne_nil_of_length_pos some)]
      split
      · rw [next]
      · rfl

section Numeral

variable (digits : ∀ c ∈ integral ++ fraction, c.isDigit)

include digits

theorem significant_digits :
    let ds := (integral ++ fraction).dropWhile (· == '0')
    (∀ c ∈ ds, c.isDigit) ∧ ds.head? ≠ some '0' ∧
      Nat.ofDigitChars 10 ds 0 = Nat.ofDigitChars 10 (integral ++ fraction) 0 := by
  intro ds
  have first := List.head?_dropWhile_not (· == '0') (integral ++ fraction)
  refine ⟨fun c mem => digits c (List.dropWhile_subset _ mem), fun zero => ?_,
    Text.ofDigitChars_dropWhile _⟩
  rw [zero] at first
  exact absurd first (by decide)

theorem ofNumeral?_whole {k : ℕ} (scale : (fraction.length : ℤ) - exponent = .negSucc k) :
    ofNumeral? integral fraction exponent =
      fit? (Nat.ofDigitChars 10 (integral ++ fraction) 0 * 10 ^ (k + 1)) 0 := by
  have ⟨digits, significant, value⟩ := significant_digits digits
  rw [ofNumeral?, scale, ← value]
  generalize (integral ++ fraction).dropWhile (· == '0') = ds at *
  cases ds with
  | nil => rw [Nat.ofDigitChars_nil, Nat.zero_mul]; rfl
  | cons d ds =>
    have zero : ∀ c ∈ List.replicate (k + 1) '0', c = '0' := fun _ => List.eq_of_mem_replicate
    have digits : ∀ c ∈ d :: ds ++ List.replicate (k + 1) '0', c.isDigit :=
      List.forall_mem_append.mpr ⟨digits, fun c mem => zero c mem ▸ rfl⟩
    rw [← Text.ofDigitChars_append_zeros, scaled?, if_neg (by simp)]
    split
    case isTrue long =>
      rw [← List.length_replicate (n := k + 1) (a := '0'), ← List.length_append] at long
      rw [fit?_large (Text.le_ofDigitChars digits significant long)]
      rfl
    case isFalse =>
      rw [Option.bind_map]
      exact mantissa?_fits digits significant 0

theorem ofNumeral?_placed {k : ℕ} (scale : (fraction.length : ℤ) - exponent = k) (small : k ≤ 28) :
    ofNumeral? integral fraction exponent =
      fit? (Nat.ofDigitChars 10 (integral ++ fraction) 0) k := by
  have ⟨digits, significant, value⟩ := significant_digits digits
  rw [ofNumeral?, scale, ← Int.ofNat_eq_natCast, scaled?, maxScale, if_pos small, Option.bind_map,
    ← value]
  exact mantissa?_fits digits significant k

theorem ofNumeral?_rounded {k : ℕ} (scale : (fraction.length : ℤ) - exponent = k)
    (large : 28 < k) :
    ofNumeral? integral fraction exponent =
      fit? (divRoundEven (Nat.ofDigitChars 10 (integral ++ fraction) 0) (10 ^ (k - 28))) 28 := by
  have ⟨digits, significant, value⟩ := significant_digits digits
  rw [ofNumeral?, scale, ← Int.ofNat_eq_natCast, scaled?, maxScale, if_neg (Nat.not_le_of_lt large),
    Option.bind_map, ← value]
  exact roundHalfEven?_fits digits significant (Nat.sub_pos_of_lt large) 28

end Numeral

-- The digits and the exponent of a literal stand for one decimal, and this is what they are read as
-- if its mantissa has at most 96 bits. Otherwise they are refused.
theorem ofNumeral?_denotes (digits : ∀ c ∈ integral ++ fraction, c.isDigit) (exponent : ℤ) :
    let n := Nat.ofDigitChars 10 (integral ++ fraction) 0
    let s := (fraction.length : ℤ) - exponent
    ∃ d : Decimal, (∀ d', Denotes n s d' ↔ d' = d) ∧
      ofNumeral? integral fraction exponent = if d.mantissa < 2 ^ 96 then some d else none := by
  intro n s
  -- One decimal that the digits stand for is enough, since there are no two of them.
  suffices found : ∃ m scale : ℕ, Denotes n s ⟨m, scale⟩ ∧
      ofNumeral? integral fraction exponent = fit? m scale by
    have ⟨m, scale, denotes, eq⟩ := found
    exact ⟨⟨m, scale⟩, fun d' => ⟨denotes.unique, (· ▸ denotes)⟩, eq.trans (fit?_eq m scale)⟩
  cases hs : s with
  | negSucc k =>
    refine ⟨n * 10 ^ (k + 1), 0, ⟨fun _ => rfl, fun sign => ?_, fun large => ?_⟩,
      ofNumeral?_whole digits hs⟩
    · exact absurd sign (by omega)
    · exact absurd large (by omega)
  | ofNat k =>
    by_cases small : k ≤ 28
    case pos =>
      refine ⟨n, k, ⟨fun negative => ?_, fun _ _ => rfl, fun large => ?_⟩,
        ofNumeral?_placed digits hs small⟩
      · exact absurd negative (by simp)
      · exact absurd large (by simpa using small)
    case neg =>
      have large : 28 < k := Nat.lt_of_not_le small
      refine ⟨divRoundEven n (10 ^ (k - 28)), 28, ⟨fun negative => ?_, fun _ small => ?_, fun _ => ?_⟩,
        ofNumeral?_rounded digits hs large⟩
      · exact absurd negative (by simp)
      · exact absurd small (by simpa using large)
      · have power : ((k : ℤ) - 28).toNat = k - 28 := by omega
        have nearest := divRoundEven_nearestEven n (d := 10 ^ (k - 28)) (Nat.pow_pos (by decide))
        refine ⟨?_, rfl⟩
        rw [Int.ofNat_eq_natCast, power]
        exact_mod_cast nearest

theorem ofNumeral?_denotes_carry :
    let integral := "0".toList
    let fraction := "01995".toList
    (∀ c ∈ integral ++ fraction, c.isDigit) ∧ Denotes 1995 29 ⟨200, 28⟩ ∧
      ofNumeral? integral fraction (-24) = some ⟨200, 28⟩ := by
  intro integral fraction
  have digits : ∀ c ∈ integral ++ fraction, c.isDigit := List.all_eq_true.mp (by decide)
  have read : ofNumeral? integral fraction (-24) = some ⟨200, 28⟩ := by decide
  have ⟨d, denotes, eq⟩ := ofNumeral?_denotes digits (-24)
  have value : Nat.ofDigitChars 10 (integral ++ fraction) 0 = 1995 := by decide
  have scale : (fraction.length : ℤ) - -24 = 29 := by decide
  rw [value, scale] at denotes
  have ⟨_, found⟩ := Option.ite_none_right_eq_some.mp (eq.symm.trans read)
  exact ⟨digits, (denotes _).mpr (Option.some.inj found).symm, read⟩

end Decimal

end ExprTree
