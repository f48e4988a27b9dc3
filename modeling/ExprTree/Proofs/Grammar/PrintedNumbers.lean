import ExprTree.Proofs.Decimal
import ExprTree.Proofs.Grammar.Literals

namespace ExprTree

-- A number that is not negative, and that is not rounded when it is read.
def Literal.Exact : Literal → Prop
  | int n => 0 ≤ n.toInt
  | long n => 0 ≤ n.toInt
  | uint _ | ulong _ => True
  | decimal d => 0 ≤ d.mantissa ∧ d.mantissa < 2 ^ 96 ∧ d.scale ≤ 28
  | _ => False

namespace Decimal

variable {d : Decimal}

def padded (d : Decimal) : List Char :=
  let digits := Nat.toDigits 10 d.mantissa.natAbs
  List.replicate (d.scale + 1 - digits.length) '0' ++ digits

def whole (d : Decimal) : List Char :=
  d.padded.take (d.padded.length - d.scale)

def fraction (d : Decimal) : List Char :=
  d.padded.drop (d.padded.length - d.scale)

theorem whole_append_fraction (d : Decimal) : d.whole ++ d.fraction = d.padded :=
  List.take_append_drop _ _

theorem padded_digit : ∀ a ∈ d.padded, a.isDigit := by
  intro a mem
  rcases List.mem_append.mp mem with zero | digit
  · rw [List.eq_of_mem_replicate zero]
    decide
  · exact Nat.isDigit_of_mem_toDigits (by decide) (by decide) digit

theorem scale_lt_length (d : Decimal) : d.scale < d.padded.length := by
  rw [padded, List.length_append, List.length_replicate]
  omega

theorem whole_ne_nil (d : Decimal) : d.whole ≠ [] := by
  have length := d.scale_lt_length
  rw [whole, Ne, List.take_eq_nil_iff, not_or]
  exact ⟨by omega, List.ne_nil_of_length_pos (Nat.zero_lt_of_lt length)⟩

theorem length_fraction (d : Decimal) : d.fraction.length = d.scale := by
  have length := d.scale_lt_length
  rw [fraction, List.length_drop]
  omega

theorem value_padded (sign : 0 ≤ d.mantissa) : Nat.ofDigitChars 10 d.padded 0 = d.mantissa := by
  rw [padded, Text.ofDigitChars_padded, Nat.ofDigitChars_ten_toDigits]
  exact Int.natAbs_of_nonneg sign

def pointed (fraction : List Char) : List Char :=
  if fraction = [] then [] else '.' :: fraction

theorem toList_text (sign : 0 ≤ d.mantissa) : d.text.toList = d.whole ++ pointed d.fraction := by
  have positive : ¬d.mantissa < 0 := Int.not_lt.mpr sign
  have length := d.length_fraction
  by_cases scale : d.scale = 0
  case pos =>
    have none : d.fraction = [] := List.length_eq_zero_iff.mp (length.trans scale)
    have digits : d.whole = Nat.toDigits 10 d.mantissa.natAbs := by
      have enough : 1 ≤ (Nat.toDigits 10 d.mantissa.natAbs).length :=
        List.length_pos_iff.mpr Nat.toDigits_ne_nil
      have padding : d.scale + 1 - (Nat.toDigits 10 d.mantissa.natAbs).length = 0 := by omega
      rw [← d.whole.append_nil, ← none, whole_append_fraction, padded, padding]
      rfl
    simp [text, positive, scale, pointed, none, digits]
  case neg =>
    have some : d.fraction ≠ [] :=
      List.ne_nil_of_length_pos (Nat.lt_of_lt_of_eq (Nat.pos_of_ne_zero scale) length.symm)
    have printed : d.text = String.ofList d.whole ++ "." ++ String.ofList d.fraction := by
      simp only [text, if_neg positive, if_neg scale, String.empty_append]
      rfl
    simp [printed, pointed, some]

theorem ofNumeral?_printed (sign : 0 ≤ d.mantissa) (fits : d.mantissa < 2 ^ 96)
    (small : d.scale ≤ 28) : ofNumeral? d.whole d.fraction 0 = some d := by
  have digits : ∀ a ∈ d.whole ++ d.fraction, a.isDigit := d.whole_append_fraction ▸ padded_digit
  have scale : (d.fraction.length : ℤ) - 0 = d.scale := by rw [length_fraction, Int.sub_zero]
  rw [ofNumeral?_placed digits scale small, whole_append_fraction, fit?_eq, value_padded sign,
    if_pos fits]

end Decimal

namespace Grammar

open ExprTree.Parser

variable {I : Scope → Prop} {gap rest : List Char} {d : Decimal}

def decimalParts (d : Decimal) : RealParts where
  integral := some d.whole
  fraction := if d.fraction = [] then none else some d.fraction
  exponent := none
  suffix   := some .decimal

theorem toList_decimal (sign : 0 ≤ d.mantissa) : (Literal.decimal d).text.toList =
    d.whole ++ (Decimal.pointed d.fraction ++ ([] ++ ['m'])) := by
  simp [Literal.text, Decimal.toList_text sign]

theorem decimalParts_munch (d : Decimal) (rest : List Char) : (decimalParts d).Munch
    (d.whole ++ (Decimal.pointed d.fraction ++ ([] ++ ['m']))) rest := by
  have digits : ∀ a ∈ d.whole ++ d.fraction, a.isDigit :=
    d.whole_append_fraction ▸ Decimal.padded_digit
  have ⟨front, back⟩ := List.forall_mem_append.mp digits
  have suffix : SuffixPart rest (some .decimal) ['m'] := .present (by decide)
  have exponent : ExponentPart (['m'] ++ rest) none [] := .of_head (by simp)
  unfold decimalParts Decimal.pointed
  split
  case isTrue =>
    exact .mk (.present ⟨d.whole_ne_nil, front, by simp⟩) (.absent (by simp)) exponent suffix
  case isFalse some =>
    exact .mk (.present ⟨d.whole_ne_nil, front, by simp⟩) (.present ⟨some, back, by simp⟩) exponent
      suffix

theorem decimalParts_denotes (sign : 0 ≤ d.mantissa) (fits : d.mantissa < 2 ^ 96)
    (small : d.scale ≤ 28) : (decimalParts d).Denotes (.decimal d) := by
  have fraction : (decimalParts d).fraction.getD [] = d.fraction := by
    unfold decimalParts
    split <;> simp [*]
  refine .decimal rfl ?_
  rw [fraction]
  exact Decimal.ofNumeral?_printed sign fits small

theorem decimal_takes (sign : 0 ≤ d.mantissa) (fits : d.mantissa < 2 ^ 96) (small : d.scale ≤ 28)
    (hg : Gap gap) (ends : Ends rest) :
    literal.Takes I ((Literal.decimal d).text.toList ++ gap) (.decimal d) rest := by
  have words : ∀ w ∈ literalWords, (keyword w).Refuses I
      ((Literal.decimal d).text.toList ++ gap ++ rest) := by
    have ⟨a, more, eq⟩ := List.exists_cons_of_ne_nil d.whole_ne_nil
    have digit : a.isDigit := by
      refine Decimal.padded_digit (d := d) a ?_
      rw [← d.whole_append_fraction, eq]
      exact List.mem_cons_self
    rw [toList_decimal sign, eq]
    exact literalWords_refuse_digit digit
  have denotes : (decimalParts d).Denotes (.decimal d) := decimalParts_denotes sign fits small
  have accepted : (decimalParts d).Accepted (.decimal d) (gap ++ rest) :=
    ⟨.inl rfl, .inr (.inr rfl), denotes, hg.apart ends.apart⟩
  have real : real.Takes I ((Literal.decimal d).text.toList ++ gap) (.decimal d) rest := by
    rw [toList_decimal sign]
    exact (decimalParts_munch d _).real_takes accepted hg.skips ends.significant.bare
  exact (boolean_refuses words).oneOf_tail ((null_refuses words).oneOf_tail (real.oneOf_head _))

theorem exact_takes {l : Literal} (exact : l.Exact) (hg : Gap gap) (ends : Ends rest) :
    literal.Takes I (l.text.toList ++ gap) l rest := by
  cases l with
  | decimal d =>
    have ⟨sign, fits, small⟩ := exact
    exact decimal_takes sign fits small hg ends
  | int | uint | long | ulong => exact literal_takes exact hg ends
  | _ => exact exact.elim

theorem ends_nil : Ends [] where
  significant := ⟨nofun, by simp, by simp⟩
  apart := nofun
  whole := by simp

-- An integer that is not negative is read off the text that it is printed as, and so is a decimal
-- of at most 96 bits and 28 places: in one way, with its type and its scale, and up to the end of
-- the text.
theorem literal_printed (s : Scope) {l : Literal} (exact : l.Exact) :
    literal.parses (.start l.text s) = [⟨l, ⟨l.text, l.text.utf8ByteSize, [], s⟩⟩] := by
  have read := exact_takes (I := fun _ => True) exact .none ends_nil
  rw [List.append_nil] at read
  exact read.parses_start trivial

theorem literal_printed_decimals :
    let s := Scope.new Registry.system.resolve .standard
    let padded := Literal.decimal ⟨50, 4⟩
    let largest := Literal.decimal ⟨2 ^ 96 - 1, 28⟩
    padded.Exact ∧ padded.text = "0.0050m" ∧
      literal.parses (.start padded.text s) = [⟨padded, ⟨padded.text, 7, [], s⟩⟩] ∧
      largest.Exact ∧ largest.text = "7.9228162514264337593543950335m" ∧
      literal.parses (.start largest.text s) = [⟨largest, ⟨largest.text, 31, [], s⟩⟩] := by
  intro s padded largest
  have small : padded.Exact := ⟨by decide, by decide, by decide⟩
  have large : largest.Exact := ⟨by decide, by decide, by decide⟩
  have text : padded.text = "0.0050m" := by decide
  have text' : largest.text = "7.9228162514264337593543950335m" := by decide
  have size : padded.text.utf8ByteSize = 7 := text ▸ rfl
  have size' : largest.text.utf8ByteSize = 31 := text' ▸ rfl
  exact ⟨small, text, size ▸ literal_printed s small, large, text', size' ▸ literal_printed s large⟩

end Grammar

end ExprTree
