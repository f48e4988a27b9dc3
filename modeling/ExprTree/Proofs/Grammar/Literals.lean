import ExprTree.Grammar.Literal
import ExprTree.Proofs.Grammar.Reals

namespace ExprTree

-- A literal whose printed text is read as a literal again: not a negative number, which would be
-- read as an operator and a literal, nor anything else than truth values, `null` and integers.
def Literal.Plain : Literal → Prop
  | bool _ | null | uint _ | ulong _ => True
  | int n => 0 ≤ n.toInt
  | long n => 0 ≤ n.toInt
  | _ => False

namespace Grammar

open ExprTree.Parser

variable {I : Scope → Prop} {α : Type} {gap rest : List Char}

section Number

def suffixText : Option IntegerSuffix → List Char
  | none => []
  | some .unsigned => ['u']
  | some .long => ['L']
  | some .unsignedLong => ['U', 'L']

theorem suffixText_spells : (suffix : Option IntegerSuffix) → Spells suffix (suffixText suffix)
  | none => .none
  | some .unsigned => .unsigned (by decide)
  | some .long => .long (by decide)
  | some .unsignedLong => .unsignedLong (by decide) (by decide)

abbrev decimal (n : Nat) : List Char :=
  Nat.toDigits 10 n

theorem decimal_digit {n : Nat} : ∀ a ∈ decimal n, a.isDigit :=
  fun _ mem => Nat.isDigit_of_mem_toDigits (by decide) (by decide) mem

theorem decimal_start (n : Nat) : ∃ d ds, decimal n = d :: ds ∧ d.isDigit := by
  have ⟨d, ds, eq⟩ := List.exists_cons_of_ne_nil (Nat.toDigits_ne_nil (b := 10) (n := n))
  have mem : d ∈ decimal n := List.mem_of_mem_head? (by simp [decimal, eq])
  exact ⟨d, ds, eq, decimal_digit d mem⟩

theorem decimal_listed {n : Nat} : ∀ a ∈ decimal n, a ∈ Text.decimalDigits := fun a mem =>
  of_isDigit (P := (· ∈ Text.decimalDigits)) (by decide) (decimal_digit a mem)

theorem numeral_decimal (n : Nat) : Numeral (decimal n) n := by
  have value : Text.positional 10 (decimal n) = n := by
    rw [← numeral_of_decimalDigits decimal_listed, Text.numeral_eq decimal_digit]
    exact Nat.ofDigitChars_ten_toDigits
  have numeral := Numeral.decimal Nat.toDigits_ne_nil (decimal_listed (n := n))
  rwa [value] at numeral

theorem integer_takes {n : Nat} (small : n < 0x10000000000000000) (suffix : Option IntegerSuffix)
    (hg : Gap gap) (significant : Significant rest) (apart : Apart rest) :
    integer.Takes I (decimal n ++ suffixText suffix ++ gap) (integerLiteral n suffix) rest :=
  integer_takes_skips (numeral_decimal n) small (suffixText_spells suffix) hg.skips significant.bare
    (hg.apart apart)

theorem real_refuses_integer (n : Nat) (suffix : Option IntegerSuffix) (apart : Apart rest)
    (whole : ∀ a, ['.', a] <+: rest → a.isDigit = false) :
    real.Refuses I (decimal n ++ (suffixText suffix ++ rest)) := by
  have spells := suffixText_spells suffix
  have behind {z : Char} (hz : z ∈ markers) (other : ∀ a ∈ ['u', 'U', 'l', 'L'], a.toLower ≠ z) :
      ∀ a ∈ (suffixText suffix ++ rest).head?, a.toLower ≠ z :=
    spells.head other (apart.toLower_ne hz)
  have integral : IntegralPart (suffixText suffix ++ rest) (some (decimal n)) (decimal n) :=
    .present ⟨Nat.toDigits_ne_nil, decimal_digit, (spells.afterDigits apart).not_digit⟩
  have fraction : FractionPart (suffixText suffix ++ rest) none [] := by
    refine .absent fun a point => ?_
    match suffix with
    | none => exact whole a point
  have exponent : ExponentPart (suffixText suffix ++ rest) none [] := by
    refine .of_head fun a mem listed => behind (z := 'e') (by decide) (by decide) a mem ?_
    have table : ∀ a ∈ ['e', 'E'], a.toLower = 'e' := by decide
    exact table a listed
  have realSuffix : SuffixPart (suffixText suffix ++ rest) none [] := by
    refine .absent fun a mem s => ?_
    cases s with
    | float => exact behind (by decide) (by decide) a mem
    | double => exact behind (by decide) (by decide) a mem
    | decimal => exact behind (by decide) (by decide) a mem
  have munch := RealParts.Munch.mk (r := ⟨_, none, none, none⟩) (f := []) (e := []) (s := [])
    integral fraction exponent realSuffix
  have refuses : real.Refuses I (decimal n ++ [] ++ (suffixText suffix ++ rest)) :=
    munch.real_refuses_digits (congrArg some (List.append_nil _).symm)
  rwa [List.append_nil] at refuses

theorem real_refuses (digit : ∀ a ∈ rest.head?, a.isDigit = false)
    (point : '.' ∉ rest.head?) : real.Refuses I rest := by
  have digits : digits.Refuses I rest := (satisfy_refuses digit).atLeast Nat.one_pos
  have character : (character '.' : Rule Char).Refuses I rest := character_refuses point
  have fraction := (character.seqRight Grammar.digits).optional
  refine (((filter_refuses fun c hc r mem => ?_).filterMap _).notFollowedBy _).seqLeft _
  have trivially {α : Type} (p : Rule α) : p.Keeps (fun _ => True) fun _ => True :=
    fun _ _ _ _ => ⟨trivial, trivial⟩
  rw [realParts, parses_bind, digits.optional c hc, List.flatMap_singleton, parses_bind,
    fraction _ hc.drop, List.flatMap_singleton] at mem
  -- Whatever stands there, it has no digits on either side of the point.
  have incomplete := ((trivially exponent.optional).bind fun e _ =>
    (trivially realSuffix.optional).bind fun s _ =>
      pure_keeps (P := fun r : RealParts => r.isComplete = false)
        (a := ⟨none, none, e, s⟩) rfl) _ trivial r mem
  exact incomplete.1

end Number

section Literal

structure Ends (text : List Char) : Prop where
  significant : Significant text
  apart       : Apart text
  whole       : ∀ a, ['.', a] <+: text → a.isDigit = false

theorem Gap.whole (hg : Gap gap) (h : ∀ a, ['.', a] <+: rest → a.isDigit = false) :
    ∀ a, ['.', a] <+: gap ++ rest → a.isDigit = false := by
  cases hg with
  | none => exact h
  | space => simp

def literalWords : List String :=
  ["true", "false", "null"]

theorem literalWords_parts : ∀ w ∈ literalWords, ∀ a ∈ w.toList, isIdentifierPart a := by
  decide

theorem boolean_refuses (h : ∀ w ∈ literalWords, (keyword w).Refuses I rest) :
    boolean.Refuses I rest :=
  ((h "true" (by decide)).map _).orElse ((h "false" (by decide)).map _)

theorem null_refuses (h : ∀ w ∈ literalWords, (keyword w).Refuses I rest) : null.Refuses I rest :=
  (h "null" (by decide)).map _

theorem literalWords_refuse (h : ∀ a ∈ rest.head?, a ∉ ['t', 'f', 'n']) :
    ∀ w ∈ literalWords, (keyword w).Refuses I rest := by
  intro w mem
  simp only [literalWords, List.mem_cons, List.not_mem_nil, or_false] at mem
  rcases mem with rfl | rfl | rfl
  · exact keyword_refuses_first (y := 't') rfl fun found => h 't' found (by decide)
  · exact keyword_refuses_first (y := 'f') rfl fun found => h 'f' found (by decide)
  · exact keyword_refuses_first (y := 'n') rfl fun found => h 'n' found (by decide)

theorem literalWords_refuse_digit {d : Char} (digit : d.isDigit) :
    ∀ w ∈ literalWords, (keyword w).Refuses I (d :: rest) := by
  refine literalWords_refuse fun a found mem => ?_
  have letters : ∀ z ∈ ['t', 'f', 'n'], z.isDigit = false := by decide
  rw [Option.some.inj found, letters a mem] at digit
  simp at digit

theorem number_takes {n : Nat} (small : n < 0x10000000000000000) (suffix : Option IntegerSuffix)
    (hg : Gap gap) (ends : Ends rest) :
    literal.Takes I (decimal n ++ suffixText suffix ++ gap) (integerLiteral n suffix) rest := by
  have ⟨d, ds, eq, digit⟩ := decimal_start n
  have words : ∀ w ∈ literalWords, (keyword w).Refuses I
      (decimal n ++ suffixText suffix ++ gap ++ rest) := by
    rw [eq]
    exact literalWords_refuse_digit digit
  have real : real.Refuses I (decimal n ++ suffixText suffix ++ gap ++ rest) := by
    rw [List.append_assoc, List.append_assoc]
    exact real_refuses_integer n suffix (hg.apart ends.apart) (hg.whole ends.whole)
  have integer := integer_takes (I := I) small suffix hg ends.significant ends.apart
  exact (boolean_refuses words).oneOf_tail ((null_refuses words).oneOf_tail
    (real.oneOf_tail (integer.oneOf_head _)))

theorem toList_toString_nat (n : Nat) : (toString n).toList = decimal n := by
  rw [Nat.toString_eq_repr, Nat.repr, String.toList_ofList]

theorem toList_toString_int {n : Int} (h : 0 ≤ n) : (toString n).toList = decimal n.toNat := by
  obtain ⟨m, rfl⟩ := Int.eq_ofNat_of_zero_le h
  exact toList_toString_nat m

-- A literal is printed as a word, or as digits and a suffix by which its type is found again.
theorem plain_cases {v : Literal} (h : v.Plain) :
    (∃ b, v = .bool b) ∨ v = .null ∨ ∃ n suffix, n < 0x10000000000000000 ∧
      v.text.toList = decimal n ++ suffixText suffix ∧ integerLiteral n suffix = v := by
  cases v with
  | bool b => exact .inl ⟨b, rfl⟩
  | null => exact .inr (.inl rfl)
  | int n =>
    have sign : 0 ≤ n.toInt := h
    have bound : n.toInt.toNat < 0x80000000 := by
      have := n.toInt_lt
      omega
    refine .inr (.inr ⟨n.toInt.toNat, none, by omega, ?_, ?_⟩)
    · rw [Literal.text, toList_toString_int sign, suffixText, List.append_nil]
    · simp only [integerLiteral, if_pos bound, Literal.int.injEq]
      rw [← Int32.ofInt_eq_ofNat, Int.toNat_of_nonneg sign, Int32.ofInt_toInt]
  | uint n =>
    have bound : n.toNat < 0x100000000 := n.toNat_lt
    refine .inr (.inr ⟨n.toNat, some .unsigned, by omega, ?_, ?_⟩)
    · rw [Literal.text, String.toList_append, toList_toString_nat]
      rfl
    · simp only [integerLiteral, if_pos bound, UInt32.ofNat_toNat]
  | long n =>
    have sign : 0 ≤ n.toInt := h
    have bound : n.toInt.toNat < 0x8000000000000000 := by
      have := n.toInt_lt
      omega
    refine .inr (.inr ⟨n.toInt.toNat, some .long, by omega, ?_, ?_⟩)
    · rw [Literal.text, String.toList_append, toList_toString_int sign]
      rfl
    · simp only [integerLiteral, if_pos bound, Literal.long.injEq]
      rw [← Int64.ofInt_eq_ofNat, Int.toNat_of_nonneg sign, Int64.ofInt_toInt]
  | ulong n =>
    refine .inr (.inr ⟨n.toNat, some .unsignedLong, n.toNat_lt, ?_, ?_⟩)
    · rw [Literal.text, String.toList_append, toList_toString_nat]
      rfl
    · simp only [integerLiteral, UInt64.ofNat_toNat]
  | _ => exact h.elim

theorem literal_takes {v : Literal} (h : v.Plain) (hg : Gap gap) (ends : Ends rest) :
    literal.Takes I (v.text.toList ++ gap) v rest := by
  have word (w : String) : (keyword w).Takes I (w.toList ++ gap) w rest :=
    keyword_takes hg ends.significant (hg.apart ends.apart)
  have other {w w' : String} (mem : w ∈ literalWords) (mem' : w' ∈ literalWords)
      (different : w'.toList ≠ w.toList) : (keyword w).Refuses I (w'.toList ++ gap ++ rest) := by
    rw [List.append_assoc]
    exact keyword_refuses_word (literalWords_parts w mem) (literalWords_parts w' mem') different
      (hg.apart ends.apart)
  rcases plain_cases h with ⟨b, rfl⟩ | rfl | ⟨n, suffix, small, text, eq⟩
  · refine Takes.oneOf_head ?_ _
    cases b with
    | true => exact ((word "true").map _).orElse_left _
    | false =>
      have truth : (keyword "true").Refuses I ("false".toList ++ gap ++ rest) :=
        other (by decide) (by decide) (by decide)
      exact (truth.map fun _ => Literal.bool true).orElse_takes
        ((word "false").map fun _ => Literal.bool false)
  · have words {w : String} (mem : w ∈ ["true", "false"]) :
        (keyword w).Refuses I ("null".toList ++ gap ++ rest) := by
      simp only [List.mem_cons, List.not_mem_nil, or_false] at mem
      rcases mem with rfl | rfl
      all_goals exact other (by decide) (by decide) (by decide)
    have boolean : boolean.Refuses I ("null".toList ++ gap ++ rest) :=
      ((words (by decide)).map _).orElse ((words (by decide)).map _)
    exact boolean.oneOf_tail (((word "null").map fun _ => Literal.null).oneOf_head _)
  · rw [text, ← eq]
    exact number_takes small suffix hg ends

theorem plain_start {v : Literal} (h : v.Plain) :
    ∃ a text, v.text.toList = a :: text ∧ (a.isDigit ∨ isIdentifierStart a) := by
  rcases plain_cases h with ⟨b, rfl⟩ | rfl | ⟨n, suffix, _, text, _⟩
  · cases b with
    | true => exact ⟨'t', _, rfl, .inr (by decide)⟩
    | false => exact ⟨'f', _, rfl, .inr (by decide)⟩
  · exact ⟨'n', _, rfl, .inr (by decide)⟩
  · have ⟨d, ds, eq, digit⟩ := decimal_start n
    exact ⟨d, ds ++ suffixText suffix, by rw [text, eq, List.cons_append], .inl digit⟩

theorem literal_refuses (words : ∀ w ∈ literalWords, (keyword w).Refuses I rest)
    (digit : ∀ a ∈ rest.head?, a.isDigit = false)
    (other : ∀ a ∈ rest.head?, a ∉ ['.', '\x27', '\x22', '@']) : literal.Refuses I rest := by
  have character {a : Char} (mem : a ∈ ['.', '\x27', '\x22', '@']) :
      (character a : Rule Char).Refuses I rest := character_refuses fun found => other a found mem
  have verbatim : (text "@\"" : Rule String).Refuses I rest := by
    refine text_refuses fun ⟨more, eq⟩ => other '@' ?_ (by decide)
    rw [← eq]
    rfl
  have quoted : characterLiteral.Refuses I rest :=
    (((character (by decide)).between _ _).seqLeft _).map _
  have regular : regularString.Refuses I rest := ((character (by decide)).between _ _).map _
  have string : stringLiteral.Refuses I rest :=
    ((regular.orElse ((verbatim.between _ _).map _)).seqLeft _).map _
  refine oneOf_refuses fun p mem => ?_
  simp only [List.mem_cons, List.not_mem_nil, or_false] at mem
  rcases mem with rfl | rfl | rfl | rfl | rfl | rfl
  · exact boolean_refuses words
  · exact null_refuses words
  · exact real_refuses digit fun mem => other '.' mem (by decide)
  · exact integer_refuses digit
  · exact quoted
  · exact string

theorem literal_refuses_word {name : String} (h : IsWord name) (other : name ∉ literalWords)
    (apart : Apart rest) : literal.Refuses I (name.toList ++ rest) := by
  have ⟨a, cs, eq, start⟩ := h.start
  have head : ∀ b ∈ (name.toList ++ rest).head?, isIdentifierStart b := by
    rw [eq]
    rintro _ ⟨⟩
    exact start
  refine literal_refuses (fun w mem => ?_) (fun b mem => ?_) fun b mem listed => ?_
  · refine keyword_refuses_word (literalWords_parts w mem) h.parts (fun same => ?_) apart
    exact other (String.toList_inj.mp same ▸ mem)
  · exact not_digit_of_start (head b mem)
  · have others : ∀ a ∈ ['.', '\x27', '\x22', '@'], isIdentifierStart a = false := by
      decide
    have start := head b mem
    rw [others b listed] at start
    simp at start

theorem literal_refuses_identifier {name : String} (h : Identifier name) (apart : Apart rest) :
    literal.Refuses I (name.toList ++ rest) := by
  have listed : ∀ w ∈ literalWords, w ∈ keywords := by decide
  exact literal_refuses_word h.isWord (fun mem => h.keyword (listed name mem)) apart

end Literal

end Grammar

end ExprTree
