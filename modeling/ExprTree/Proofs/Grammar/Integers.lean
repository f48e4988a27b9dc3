import ExprTree.Builder.Standard
import ExprTree.Grammar.Number
import ExprTree.Proofs.Grammar.Tokens
import ExprTree.Proofs.Text.Digits

namespace ExprTree

def Literal.whole? : Literal → Option Int
  | int n => some n.toInt
  | uint n => some n.toNat
  | long n => some n.toInt
  | ulong n => some n.toNat
  | _ => none

namespace Grammar

open ExprTree.Parser

variable {I : Scope → Prop} {d ds u w rest : List Char} {V : Nat}
  {suffix : Option IntegerSuffix}

section Characters

-- What holds of the ten digits can be looked up.
theorem of_isDigit {P : Char → Prop} (table : ∀ n ∈ List.range' 48 10, P (Char.ofNat n)) {a : Char}
    (h : a.isDigit) : P a := by
  simp only [Char.isDigit, Bool.and_eq_true, decide_eq_true_eq] at h
  have bounds : 48 ≤ a.toNat ∧ a.toNat ≤ 57 := h
  have found := table a.toNat (List.mem_range'_1.mpr (by omega))
  rwa [Char.ofNat_toNat] at found

theorem not_digit_of_start {a : Char} (h : isIdentifierStart a) : a.isDigit = false := by
  rw [Bool.eq_false_iff]
  intro digit
  have other := of_isDigit (P := (isIdentifierStart · = false)) (by decide) digit
  rw [h] at other
  simp at other

theorem of_ascii {P : Char → Prop} (table : ∀ n ∈ List.range 128, P (Char.ofNat n)) {a : Char}
    (h : a.toNat < 128) : P a := by
  have found := table a.toNat (List.mem_range.mpr h)
  rwa [Char.ofNat_toNat] at found

theorem part_of_hexDigit {a : Char} (h : Text.isHexDigit a) : isIdentifierPart a := by
  have small : a.toNat < 128 := by
    simp only [Text.isHexDigit, Char.isDigit, Bool.or_eq_true, Bool.and_eq_true,
      decide_eq_true_eq] at h
    rcases h with (⟨_, high⟩ | ⟨_, high⟩) | ⟨_, high⟩
    all_goals exact Nat.lt_of_le_of_lt (UInt32.le_iff_toNat_le.mp high) (by decide)
  exact of_ascii (P := fun a => Text.isHexDigit a → isIdentifierPart a) (by decide +kernel) small h

theorem of_toLower {P : Char → Prop} {z : Char} (ascii : z.toNat < 128)
    (table : ∀ n ∈ List.range 128, (Char.ofNat n).toLower = z → P (Char.ofNat n)) {a : Char}
    (h : a.toLower = z) : P a := by
  have small : a.toNat < 128 := by
    rw [← h] at ascii
    unfold Char.toLower at ascii
    split at ascii
    case isTrue upper =>
      have bound : a.toNat ≤ 90 := upper.2
      omega
    case isFalse => exact ascii
  exact of_ascii (P := fun a => a.toLower = z → P a) table small h

def markers : List Char :=
  ['d', 'e', 'f', 'l', 'm', 'u', 'x']

theorem part_of_marker {a : Char} (h : a.toLower ∈ markers) :
    isIdentifierPart a := by
  have table : ∀ z ∈ markers, z.toNat < 128 ∧
      ∀ n ∈ List.range 128, (Char.ofNat n).toLower = z → isIdentifierPart (Char.ofNat n) := by
    decide +kernel
  have ⟨ascii, found⟩ := table a.toLower h
  exact of_toLower (P := (isIdentifierPart ·)) ascii found rfl

theorem Apart.fails {P : Char → Bool} (h : Apart rest) (parts : ∀ a, P a → isIdentifierPart a) :
    ∀ a ∈ rest.head?, P a = false := by
  intro a mem
  rw [Bool.eq_false_iff]
  intro passes
  have ends := h a mem
  rw [parts a passes] at ends
  simp at ends

theorem Apart.toLower_ne (h : Apart rest) {z : Char} (hz : z ∈ markers) :
    ∀ a ∈ rest.head?, a.toLower ≠ z := by
  have other := h.fails (P := (·.toLower == z)) fun a eq => part_of_marker (beq_iff_eq.mp eq ▸ hz)
  exact fun a mem => beq_eq_false_iff_ne.mp (other a mem)

end Characters

section Suffix

theorem textIgnoringCase_takes {s : String} {t : List Char} (length : t.length = s.length)
    (same : t.map Char.toLower = s.toList.map Char.toLower) (rest : List Char) :
    (textIgnoringCase s : Rule String).Takes I t s rest := by
  intro c hc
  rw [parses_textIgnoringCase, hc.rest, ← length, List.take_left', same]
  · simp
  · rfl

theorem textIgnoringCase_refuses {s : String}
    (other : (rest.take s.length).map Char.toLower ≠ s.toList.map Char.toLower) :
    (textIgnoringCase s : Rule String).Refuses I rest := by
  intro c hc
  rw [parses_textIgnoringCase, hc.rest, if_neg (by simpa using other)]

theorem toLower_marker {z : Char} (h : z ∈ markers) : z.toLower = z := by
  have table : ∀ z ∈ markers, z.toLower = z := by decide
  exact table z h

theorem textIgnoringCase_refuses_first {s : String} {y : Char} {zs : List Char}
    (hs : s.toList = y :: zs) (other : ∀ a ∈ rest.head?, a.toLower ≠ y.toLower) :
    (textIgnoringCase s : Rule String).Refuses I rest := by
  have length : s.length = zs.length + 1 := by rw [← String.length_toList, hs, List.length_cons]
  refine textIgnoringCase_refuses fun eq => ?_
  cases rest with
  | nil => simp [hs] at eq
  | cons a rest =>
    rw [hs, length, List.take_succ_cons, List.map_cons, List.map_cons, List.cons.injEq] at eq
    exact other a rfl eq.1

theorem textIgnoringCase_refuses_second {s : String} {y z a : Char} (hs : s.toList = [y, z])
    (hz : z ∈ markers) (other : ∀ b ∈ rest.head?, b.toLower ≠ z) :
    (textIgnoringCase s : Rule String).Refuses I (a :: rest) := by
  refine textIgnoringCase_refuses fun eq => ?_
  have length : s.length = 2 := by rw [← String.length_toList, hs]; rfl
  cases rest with
  | nil => simp [hs, length] at eq
  | cons b rest =>
    simp only [hs, length, List.take_succ_cons, List.map_cons, List.cons.injEq,
      toLower_marker hz] at eq
    exact other b rfl eq.2.1

-- A suffix in any case of its letters.
inductive Spells : Option IntegerSuffix → List Char → Prop
  | none : Spells none []
  | unsigned {a : Char} (u : a ∈ ['u', 'U']) : Spells (some .unsigned) [a]
  | long {a : Char} (l : a ∈ ['l', 'L']) : Spells (some .long) [a]
  | unsignedLong {a b : Char} (u : a ∈ ['u', 'U']) (l : b ∈ ['l', 'L']) :
      Spells (some .unsignedLong) [a, b]
  | longUnsigned {a b : Char} (l : a ∈ ['l', 'L']) (u : b ∈ ['u', 'U']) :
      Spells (some .unsignedLong) [a, b]

theorem Spells.head (h : Spells suffix u) {P : Char → Prop}
    (letters : ∀ a ∈ ['u', 'U', 'l', 'L'], P a) (behind : ∀ a ∈ rest.head?, P a) :
    ∀ a ∈ (u ++ rest).head?, P a := by
  have first {a : Char} {more : List Char} (mem : a ∈ ['u', 'U', 'l', 'L']) :
      ∀ b ∈ (a :: more).head?, P b := by
    rintro _ ⟨⟩
    exact letters a mem
  cases h with
  | none => exact behind
  | unsigned u => exact first (List.mem_append_left ['l', 'L'] u)
  | long l => exact first (List.mem_append_right ['u', 'U'] l)
  | unsignedLong u l => exact first (List.mem_append_left ['l', 'L'] u)
  | longUnsigned l u => exact first (List.mem_append_right ['u', 'U'] l)

theorem toLower_u {a : Char} (h : a ∈ ['u', 'U']) : a.toLower = 'u' := by
  have table : ∀ a ∈ ['u', 'U'], a.toLower = 'u' := by decide
  exact table a h

theorem toLower_l {a : Char} (h : a ∈ ['l', 'L']) : a.toLower = 'l' := by
  have table : ∀ a ∈ ['l', 'L'], a.toLower = 'l' := by decide
  exact table a h

theorem integerSuffix_refuses (other : ∀ a ∈ rest.head?, a.toLower ≠ 'u' ∧ a.toLower ≠ 'l') :
    integerSuffix.Refuses I rest := by
  have u {s : String} {zs : List Char} (hs : s.toList = 'u' :: zs) :
      (textIgnoringCase s : Rule String).Refuses I rest :=
    textIgnoringCase_refuses_first hs fun a mem => (other a mem).1
  have l {s : String} {zs : List Char} (hs : s.toList = 'l' :: zs) :
      (textIgnoringCase s : Rule String).Refuses I rest :=
    textIgnoringCase_refuses_first hs fun a mem => (other a mem).2
  refine oneOf_refuses fun p mem => ?_
  simp only [List.mem_cons, List.not_mem_nil, or_false] at mem
  rcases mem with rfl | rfl | rfl | rfl
  · exact (u rfl).map _
  · exact (l rfl).map _
  · exact (u rfl).map _
  · exact (l rfl).map _

theorem integerSuffix_takes (h : Spells suffix u) (apart : Apart rest) :
    integerSuffix.optional.Takes I u suffix rest := by
  cases h with
  | none =>
    exact (integerSuffix_refuses fun a mem =>
      ⟨apart.toLower_ne (by decide) a mem, apart.toLower_ne (by decide) a mem⟩).optional
  | @unsigned a h =>
    have ul : (textIgnoringCase "ul" : Rule String).Refuses I (a :: rest) :=
      textIgnoringCase_refuses_second rfl (by decide) (apart.toLower_ne (by decide))
    have lu : (textIgnoringCase "lu" : Rule String).Refuses I (a :: rest) :=
      textIgnoringCase_refuses_first (y := 'l') rfl (by simp [toLower_u h])
    have u : (textIgnoringCase "u" : Rule String).Takes I [a] "u" rest :=
      textIgnoringCase_takes (t := [a]) rfl (by simp [toLower_u h]) rest
    exact ((ul.map _).oneOf_tail ((lu.map _).oneOf_tail ((u.map _).oneOf_head _))).optional
  | @long a h =>
    have ul : (textIgnoringCase "ul" : Rule String).Refuses I (a :: rest) :=
      textIgnoringCase_refuses_first (y := 'u') rfl (by simp [toLower_l h])
    have lu : (textIgnoringCase "lu" : Rule String).Refuses I (a :: rest) :=
      textIgnoringCase_refuses_second rfl (by decide) (apart.toLower_ne (by decide))
    have u : (textIgnoringCase "u" : Rule String).Refuses I (a :: rest) :=
      textIgnoringCase_refuses_first (y := 'u') rfl (by simp [toLower_l h])
    have l : (textIgnoringCase "l" : Rule String).Takes I [a] "l" rest :=
      textIgnoringCase_takes (t := [a]) rfl (by simp [toLower_l h]) rest
    exact ((ul.map _).oneOf_tail ((lu.map _).oneOf_tail
      ((u.map _).oneOf_tail ((l.map _).oneOf_head _)))).optional
  | @unsignedLong a b first second =>
    have ul : (textIgnoringCase "ul" : Rule String).Takes I [a, b] "ul" rest :=
      textIgnoringCase_takes (t := [a, b]) rfl (by simp [toLower_u first, toLower_l second]) rest
    exact ((ul.map _).oneOf_head _).optional
  | @longUnsigned a b first second =>
    have ul : (textIgnoringCase "ul" : Rule String).Refuses I (a :: b :: rest) :=
      textIgnoringCase_refuses_first (y := 'u') rfl (by simp [toLower_l first])
    have lu : (textIgnoringCase "lu" : Rule String).Takes I [a, b] "lu" rest :=
      textIgnoringCase_takes (t := [a, b]) rfl (by simp [toLower_l first, toLower_u second]) rest
    exact ((ul.map _).oneOf_tail ((lu.map _).oneOf_head _)).optional

end Suffix

section Numeral

inductive Numeral : List Char → Nat → Prop
  | decimal {ds : List Char} (some : ds ≠ []) (digits : ∀ d ∈ ds, d ∈ Text.decimalDigits) :
      Numeral ds (Text.positional 10 ds)
  | hexadecimal {x : Char} {ds : List Char} (marker : x ∈ ['x', 'X']) (some : ds ≠ [])
      (digits : ∀ d ∈ ds, d ∈ Text.hexadecimalDigits) :
      Numeral ('0' :: x :: ds) (Text.positional 16 ds)

abbrev magnitude : Rule Nat :=
  (textIgnoringCase "0x" *> word64 16 hexDigits) <|> word64 10 digits

structure AfterDigits (rest : List Char) : Prop where
  digit  : ∀ a ∈ rest.head?, Text.isHexDigit a = false
  marker : ∀ a ∈ rest.head?, a.toLower ≠ 'x'

theorem AfterDigits.not_digit (h : AfterDigits rest) : ∀ a ∈ rest.head?, a.isDigit = false := by
  intro a mem
  have other := h.digit a mem
  simp only [Text.isHexDigit, Bool.or_eq_false_iff] at other
  exact other.1.1

theorem Spells.afterDigits (h : Spells suffix u) (apart : Apart rest) : AfterDigits (u ++ rest) where
  digit := h.head (P := (Text.isHexDigit · = false)) (by decide)
    (apart.fails fun _ => part_of_hexDigit)
  marker := h.head (P := (·.toLower ≠ 'x')) (by decide) (apart.toLower_ne (by decide))

theorem many1_takes {test : Char → Bool} (some : ds ≠ []) (passes : ∀ d ∈ ds, test d)
    (stop : ∀ a ∈ rest.head?, test a = false) :
    (satisfy test : Rule Char).many1.Takes I ds ds rest :=
  (satisfy_takesAll passes stop).atLeast (List.length_pos_iff.mpr some)

section Word

variable {base : Nat} {p : Rule (List Char)} {t : List Char} (read : p.Takes I t ds rest)
  (value : Text.numeral base ds = V)

include read value

theorem word64_takes (small : V < 2 ^ 64) : (word64 base p).Takes I t V rest :=
  read.filterMap (value ▸ if_pos (value ▸ small))

theorem word64_refuses (large : 2 ^ 64 ≤ V) : (word64 base p).Refuses I (t ++ rest) :=
  read.filterMap_refuses (if_neg (Nat.not_lt.mpr (value ▸ large)))

end Word

section Decimal

variable (some : ds ≠ []) (listed : ∀ d ∈ ds, d ∈ Text.decimalDigits)

theorem isDigit_of_mem {d : Char} (h : d ∈ Text.decimalDigits) : d.isDigit := by
  have table : ∀ d ∈ Text.decimalDigits, d.isDigit := by decide
  exact table d h

include listed

theorem numeral_of_decimalDigits : Text.numeral 10 ds = Text.positional 10 ds := by
  have all : ∀ d ∈ Text.decimalDigits, d ∈ Text.hexadecimalDigits := by decide
  exact Text.numeral_eq_positional 10 fun d mem => all d (listed d mem)

include some

theorem digits_takes (stop : ∀ a ∈ rest.head?, a.isDigit = false) : digits.Takes I ds ds rest :=
  many1_takes some (fun d mem => isDigit_of_mem (listed d mem)) stop

theorem prefix_refuses (after : AfterDigits rest) :
    (textIgnoringCase "0x" : Rule String).Refuses I (ds ++ rest) := by
  have other : ∀ d ∈ Text.decimalDigits, d.toLower ≠ 'x' := by decide
  match ds with
  | [] => exact (some rfl).elim
  | [d] => exact textIgnoringCase_refuses_second rfl (by decide) after.marker
  | d :: d' :: ds =>
    refine textIgnoringCase_refuses_second rfl (by decide) ?_
    rintro _ ⟨⟩
    exact other d' (listed d' (by simp))

theorem magnitude_takes_decimal (after : AfterDigits rest) (small : Text.positional 10 ds < 2 ^ 64) :
    magnitude.Takes I ds (Text.positional 10 ds) rest := by
  have read := digits_takes (I := I) some listed after.not_digit
  have hexadecimal := (prefix_refuses (I := I) some listed after).seqRight (word64 16 hexDigits)
  exact hexadecimal.orElse_takes (word64_takes read (numeral_of_decimalDigits listed) small)

theorem magnitude_refuses_decimal (after : AfterDigits rest)
    (large : 2 ^ 64 ≤ Text.positional 10 ds) : magnitude.Refuses I (ds ++ rest) := by
  have read := digits_takes (I := I) some listed after.not_digit
  have hexadecimal := (prefix_refuses (I := I) some listed after).seqRight (word64 16 hexDigits)
  exact hexadecimal.orElse (word64_refuses read (numeral_of_decimalDigits listed) large)

end Decimal

section Hexadecimal

variable {x : Char} (marker : x ∈ ['x', 'X']) (some : ds ≠ [])
  (listed : ∀ d ∈ ds, d ∈ Text.hexadecimalDigits)

section Prefix

include marker

theorem toLower_x : x.toLower = 'x' := by
  have table : ∀ x ∈ ['x', 'X'], x.toLower = 'x' := by decide
  exact table x marker

theorem prefix_takes : (textIgnoringCase "0x" : Rule String).Takes I ['0', x] "0x" rest :=
  textIgnoringCase_takes (t := ['0', x]) rfl (by simp [toLower_x marker]) rest

end Prefix

section Digits

include some listed

theorem hexDigits_takes (stop : ∀ a ∈ rest.head?, Text.isHexDigit a = false) :
    hexDigits.Takes I ds ds rest := by
  have table : ∀ d ∈ Text.hexadecimalDigits, Text.isHexDigit d := by decide
  exact many1_takes some (fun d mem => table d (listed d mem)) stop

end Digits

include marker some listed

theorem magnitude_takes_hexadecimal (after : AfterDigits rest)
    (small : Text.positional 16 ds < 2 ^ 64) :
    magnitude.Takes I ('0' :: x :: ds) (Text.positional 16 ds) rest := by
  have read := hexDigits_takes (I := I) some listed after.digit
  have value := word64_takes read (Text.numeral_eq_positional 16 listed) small
  exact ((prefix_takes marker).seqRight value).orElse_left (word64 10 digits)

-- Too large a numeral is a zero, and what stands behind it is no end of a number.
theorem magnitude_takes_zero (after : AfterDigits rest)
    (large : 2 ^ 64 ≤ Text.positional 16 ds) :
    magnitude.Takes I ['0'] 0 (x :: (ds ++ rest)) := by
  have read := hexDigits_takes (I := I) some listed after.digit
  have overflow := word64_refuses read (Text.numeral_eq_positional 16 listed) large
  have hexadecimal := (prefix_takes (I := I) marker).seqRight_refuses overflow
  have zero : digits.Takes I ['0'] ['0'] (x :: (ds ++ rest)) := by
    refine digits_takes (List.cons_ne_nil _ _) (by decide) ?_
    have table : ∀ x ∈ ['x', 'X'], x.isDigit = false := by decide
    rintro _ ⟨⟩
    exact table x marker
  have value : (word64 10 digits).Takes I ['0'] 0 (x :: (ds ++ rest)) :=
    word64_takes zero rfl (by decide)
  exact Refuses.orElse_takes hexadecimal value

end Hexadecimal

theorem Numeral.magnitude_takes (h : Numeral d V) (small : V < 2 ^ 64) (after : AfterDigits rest) :
    magnitude.Takes I d V rest := by
  cases h with
  | decimal some listed => exact magnitude_takes_decimal some listed after small
  | hexadecimal marker some listed =>
    exact magnitude_takes_hexadecimal marker some listed after small

end Numeral

section Integer

theorem integer_takes_skips (h : Numeral d V) (small : V < 2 ^ 64) (spells : Spells suffix u)
    (skips : Skips rest w) (bare : Bare rest) (apart : Apart (w ++ rest)) :
    integer.Takes I (d ++ u ++ w) (integerLiteral V suffix) rest := by
  have value := h.magnitude_takes (I := I) small (spells.afterDigits apart)
  have literal := (value.pair (integerSuffix_takes spells apart)).map fun p =>
    integerLiteral p.1 p.2
  exact token_takes_skips (literal.notFollowedBy (satisfy_refuses apart)) skips bare

theorem integer_refuses_large (h : Numeral d V) (large : 2 ^ 64 ≤ V) (after : AfterDigits rest) :
    integer.Refuses I (d ++ rest) := by
  cases h with
  | decimal some listed =>
    have value := magnitude_refuses_decimal (I := I) some listed after large
    exact (((value.pair _).map _).notFollowedBy _).seqLeft _
  | @hexadecimal x ds marker some listed =>
    have table : ∀ x ∈ ['x', 'X'], isIdentifierPart x ∧ x.toLower ≠ 'u' ∧ x.toLower ≠ 'l' := by
      decide
    have ⟨part, other⟩ := table x marker
    have value := magnitude_takes_zero (I := I) marker some listed after large
    have suffix : integerSuffix.optional.Takes I [] none (x :: (ds ++ rest)) := by
      refine (integerSuffix_refuses ?_).optional
      rintro _ ⟨⟩
      exact other
    have literal := (value.pair suffix).map fun p => integerLiteral p.1 p.2
    have behind : (satisfy isIdentifierPart : Rule Char).Takes I [x] x (ds ++ rest) :=
      satisfy_takes part _
    exact (literal.notFollowedBy_refuses behind).seqLeft whitespace

theorem integer_refuses (h : ∀ a ∈ rest.head?, a.isDigit = false) : integer.Refuses I rest := by
  have digits : digits.Refuses I rest := (satisfy_refuses h).atLeast Nat.one_pos
  have hexadecimal : (textIgnoringCase "0x" : Rule String).Refuses I rest := by
    refine textIgnoringCase_refuses_first rfl fun a mem eq => ?_
    have digit : a.isDigit = true :=
      of_toLower (P := (·.isDigit)) (by decide) (by decide +kernel) eq
    simp [h a mem] at digit
  have value : (word64 10 Grammar.digits).Refuses I rest := digits.filterMap _
  exact (((((hexadecimal.seqRight _).orElse value).pair _).map _).notFollowedBy _).seqLeft _

end Integer

section Smallest

def integerTypes : Option IntegerSuffix → List (Ty × Nat)
  | none => [(.int, 2 ^ 31), (.uint, 2 ^ 32), (.long, 2 ^ 63), (.ulong, 2 ^ 64)]
  | some .unsigned => [(.uint, 2 ^ 32), (.ulong, 2 ^ 64)]
  | some .long => [(.long, 2 ^ 63), (.ulong, 2 ^ 64)]
  | some .unsignedLong => [(.ulong, 2 ^ 64)]

-- The literal stands for the number, in the first of these types that can hold it.
structure Smallest (suffix : Option IntegerSuffix) (V : Nat) (v : Literal) : Prop where
  whole : v.whole? = some (V : Int)
  type  : ((integerTypes suffix).find? (V < ·.2)).map Prod.fst = some v.ty

theorem whole_int (h : V < 2 ^ 31) : (Literal.int (.ofNat V)).whole? = some (V : Int) :=
  congrArg some (Int32.toInt_ofNat_of_lt h)

theorem whole_uint (h : V < 2 ^ 32) : (Literal.uint (.ofNat V)).whole? = some (V : Int) :=
  congrArg (some ∘ Int.ofNat) (UInt32.toNat_ofNat_of_lt' h)

theorem whole_long (h : V < 2 ^ 63) : (Literal.long (.ofNat V)).whole? = some (V : Int) :=
  congrArg some (Int64.toInt_ofNat_of_lt h)

theorem whole_ulong (h : V < 2 ^ 64) : (Literal.ulong (.ofNat V)).whole? = some (V : Int) :=
  congrArg (some ∘ Int.ofNat) (UInt64.toNat_ofNat_of_lt' h)

section First

variable {ty : Ty} {bound : Nat} {types : List (Ty × Nat)}

theorem first_of_lt (h : V < bound) :
    (((ty, bound) :: types).find? (V < ·.2)).map Prod.fst = some ty := by
  rw [List.find?_cons_of_pos (by simpa using h), Option.map_some]

theorem first_of_not_lt (h : ¬V < bound) :
    (((ty, bound) :: types).find? (V < ·.2)).map Prod.fst =
      (types.find? (V < ·.2)).map Prod.fst := by
  rw [List.find?_cons_of_neg (by simpa using h)]

end First

theorem integerLiteral_smallest (suffix : Option IntegerSuffix) (small : V < 2 ^ 64) :
    Smallest suffix V (integerLiteral V suffix) := by
  match suffix with
  | none =>
    simp only [integerLiteral]
    split_ifs with int uint long
    · exact ⟨whole_int int, first_of_lt int⟩
    · exact ⟨whole_uint uint, (first_of_not_lt int).trans (first_of_lt uint)⟩
    · exact ⟨whole_long long, (first_of_not_lt int).trans
        ((first_of_not_lt uint).trans (first_of_lt long))⟩
    · exact ⟨whole_ulong small, (first_of_not_lt int).trans
        ((first_of_not_lt uint).trans ((first_of_not_lt long).trans (first_of_lt small)))⟩
  | some .unsigned =>
    simp only [integerLiteral]
    split_ifs with uint
    · exact ⟨whole_uint uint, first_of_lt uint⟩
    · exact ⟨whole_ulong small, (first_of_not_lt uint).trans (first_of_lt small)⟩
  | some .long =>
    simp only [integerLiteral]
    split_ifs with long
    · exact ⟨whole_long long, first_of_lt long⟩
    · exact ⟨whole_ulong small, (first_of_not_lt long).trans (first_of_lt small)⟩
  | some .unsignedLong => exact ⟨whole_ulong small, first_of_lt small⟩

-- A numeral and a suffix, up to the next token, are a literal of the number in the first of the types
-- of the suffix that can hold it. From `2 ^ 64` on there is none.
theorem integer_smallestType {r : List Char} (numeral : Numeral d V) (spells : Spells suffix u)
    (apart : Apart r) {c : Cursor Scope} (valid : c.Valid) (text : c.rest = d ++ u ++ r) :
    (2 ^ 64 ≤ V → integer.parses c = []) ∧
    (V < 2 ^ 64 → ∃ w rest v, r = w ++ rest ∧ Skips rest w ∧ Bare rest ∧ Smallest suffix V v ∧
      integer.parses c = [⟨v, c.drop (d ++ u ++ w).length⟩]) := by
  constructor
  case left =>
    intro large
    have after := spells.afterDigits apart
    rw [List.append_assoc] at text
    exact integer_refuses_large (I := fun _ => True) numeral large after c ⟨valid, trivial, text⟩
  case right =>
    intro small
    obtain ⟨w, rest, rfl, skips, bare⟩ := exists_skips r
    have takes := integer_takes_skips (I := fun _ => True) numeral small spells skips bare apart
    refine ⟨w, rest, _, rfl, skips, bare, integerLiteral_smallest suffix small, ?_⟩
    exact takes c ⟨valid, trivial, by simpa using text⟩

theorem integer_smallestType_leadingZeros :
    let s := Scope.new Registry.system.resolve .standard
    let c := Cursor.start "0X008000000000000000l/**/ + 1" s
    integer.parses (.start "18446744073709551616uL" s) = [] ∧
      ∃ w rest v, "/**/ + 1".toList = w ++ rest ∧ Skips rest w ∧ Bare rest ∧
        Smallest (some .long) (2 ^ 63) v ∧ v.ty = .ulong ∧
        integer.parses c = [⟨v, c.drop ("0X008000000000000000l".length + w.length)⟩] := by
  intro s c
  constructor
  case left =>
    have numeral : Numeral "18446744073709551616".toList (2 ^ 64) :=
      @Numeral.decimal "18446744073709551616".toList (by decide) (by decide)
    exact (integer_smallestType numeral (.unsignedLong (a := 'u') (b := 'L') (by decide) (by decide))
      (r := []) nofun (Cursor.start_valid _ s) rfl).1 (Nat.le_refl _)
  case right =>
    have numeral : Numeral "0X008000000000000000".toList (2 ^ 63) :=
      @Numeral.hexadecimal 'X' "008000000000000000".toList (by decide) (by decide) (by decide)
    have apart : Apart "/**/ + 1".toList := by
      rintro _ ⟨⟩
      decide
    have ⟨w, rest, v, eq, skips, bare, smallest, parses⟩ := (integer_smallestType numeral
      (.long (a := 'l') (by decide)) apart (Cursor.start_valid _ s) (c := c) rfl).2 (by decide)
    have type : some v.ty = some .ulong := smallest.type.symm.trans (by decide)
    refine ⟨w, rest, v, eq, skips, bare, smallest, Option.some.inj type, ?_⟩
    rw [parses, List.length_append]
    rfl

end Smallest

end Grammar

end ExprTree
