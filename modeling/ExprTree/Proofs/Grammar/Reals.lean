import ExprTree.Proofs.Grammar.Integers

namespace ExprTree.Grammar

open ExprTree.Parser

variable {I : Scope → Prop} {t w ds behind rest : List Char} {a : Char} {r : RealParts}
  {v : Literal}

section Parts

structure DigitRun (ds behind : List Char) : Prop where
  some  : ds ≠ []
  digit : ∀ d ∈ ds, d.isDigit
  ends  : ∀ a ∈ behind.head?, a.isDigit = false

inductive IntegralPart (behind : List Char) : Option (List Char) → List Char → Prop
  | absent (ends : ∀ a ∈ behind.head?, a.isDigit = false) : IntegralPart behind none []
  | present {ds : List Char} (run : DigitRun ds behind) : IntegralPart behind (some ds) ds

-- A point in front of something other than a digit is not part of a number.
inductive FractionPart (behind : List Char) : Option (List Char) → List Char → Prop
  | absent (whole : ∀ a, ['.', a] <+: behind → a.isDigit = false) : FractionPart behind none []
  | present {ds : List Char} (run : DigitRun ds behind) : FractionPart behind (some ds) ('.' :: ds)

inductive Marked (behind : List Char) : Option Char → List Char → List Char → Prop
  | mk {e : Char} {sign : Option Char} {ds : List Char} (marker : e ∈ ['e', 'E'])
      (signs : ∀ a ∈ sign, a ∈ ['+', '-']) (run : DigitRun ds behind) :
      Marked behind sign ds (e :: (sign.toList ++ ds))

def signed (sign : Option Char) (n : Nat) : Int :=
  if sign = some '-' then -n else n

-- An exponent that is too large is not read as a shorter one.
inductive ExponentPart (behind : List Char) : Option Int → List Char → Prop
  | absent (large : ∀ sign ds t rest, behind = t ++ rest → Marked rest sign ds t →
      2 ^ 31 ≤ Nat.ofDigitChars 10 ds 0) : ExponentPart behind none []
  | present {sign : Option Char} {ds t : List Char} (marked : Marked behind sign ds t)
      (small : Nat.ofDigitChars 10 ds 0 < 2 ^ 31) :
      ExponentPart behind (some (signed sign (Nat.ofDigitChars 10 ds 0))) t

def RealSuffix.letter : RealSuffix → Char
  | float => 'f'
  | double => 'd'
  | decimal => 'm'

inductive SuffixPart (behind : List Char) : Option RealSuffix → List Char → Prop
  | absent (other : ∀ a ∈ behind.head?, ∀ s : RealSuffix, a.toLower ≠ s.letter) :
      SuffixPart behind none []
  | present {a : Char} {s : RealSuffix} (letter : a.toLower = s.letter) :
      SuffixPart behind (some s) [a]

-- The parts that a text starts with, the one behind the other.
inductive RealParts.Munch : RealParts → List Char → List Char → Prop
  | mk {r : RealParts} {i f e s rest : List Char}
      (integral : IntegralPart (f ++ (e ++ (s ++ rest))) r.integral i)
      (fraction : FractionPart (e ++ (s ++ rest)) r.fraction f)
      (exponent : ExponentPart (s ++ rest) r.exponent e) (suffix : SuffixPart rest r.suffix s) :
      Munch r (i ++ (f ++ (e ++ s))) rest

theorem ExponentPart.of_head (h : ∀ a ∈ behind.head?, a ∉ ['e', 'E']) :
    ExponentPart behind none [] := by
  refine .absent fun sign ds t rest eq marked => ?_
  cases marked with
  | mk marker signs run => exact absurd marker (h _ (eq ▸ rfl))

theorem IntegralPart.eq_of_some (h : IntegralPart behind (some ds) t) : ds = t := by
  cases h with
  | present run => rfl

theorem FractionPart.eq_none {o : Option (List Char)} (h : FractionPart behind o []) :
    o = none := by
  cases h with
  | absent whole => rfl

theorem ExponentPart.eq_none {o : Option Int} (h : ExponentPart behind o []) : o = none := by
  cases h with
  | absent large => rfl
  | present marked => cases marked

theorem SuffixPart.eq_none {o : Option RealSuffix} (h : SuffixPart behind o []) : o = none := by
  cases h with
  | absent other => rfl

theorem RealParts.Munch.alone (h : r.Munch t rest) (whole : r.integral = some t) :
    r.fraction = none ∧ r.exponent = none ∧ r.suffix = none := by
  cases h with
  | @mk i f e s _ integral fraction exponent suffix =>
    rw [whole] at integral
    have alone : i ++ (f ++ (e ++ s)) = i := integral.eq_of_some
    have ⟨hf, he, hs⟩ : f = [] ∧ e = [] ∧ s = [] := by simpa using alone
    exact ⟨(hf ▸ fraction).eq_none, (he ▸ exponent).eq_none, (hs ▸ suffix).eq_none⟩

end Parts

section Read

theorem DigitRun.takes (h : DigitRun ds behind) : digits.Takes I ds ds behind :=
  many1_takes h.some h.digit h.ends

theorem digits_refuses (h : ∀ a ∈ behind.head?, a.isDigit = false) : digits.Refuses I behind :=
  (satisfy_refuses h).atLeast Nat.one_pos

theorem IntegralPart.takes {o : Option (List Char)} (h : IntegralPart behind o t) :
    digits.optional.Takes I t o behind := by
  cases h with
  | absent ends => exact (digits_refuses ends).optional
  | present run => exact run.takes.optional

theorem fraction_refuses (whole : ∀ a, ['.', a] <+: behind → a.isDigit = false) :
    (character '.' *> digits : Rule (List Char)).Refuses I behind := by
  by_cases point : ∃ more, behind = '.' :: more
  case pos =>
    obtain ⟨more, rfl⟩ := point
    have ends : ∀ a ∈ more.head?, a.isDigit = false := by
      intro a mem
      have ⟨others, eq⟩ := List.head?_eq_some_iff.mp mem
      exact whole a ⟨others, by rw [eq]; rfl⟩
    exact (character_takes '.' more).seqRight_refuses (digits_refuses ends)
  case neg =>
    exact (character_refuses fun mem => point (List.head?_eq_some_iff.mp mem)).seqRight _

theorem FractionPart.takes {o : Option (List Char)} (h : FractionPart behind o t) :
    (character '.' *> digits : Rule (List Char)).optional.Takes I t o behind := by
  cases h with
  | absent whole => exact (fraction_refuses whole).optional
  | present run => exact ((character_takes '.' _).seqRight run.takes).optional

theorem either_takes {x y : Char} (h : a ∈ [x, y]) (rest : List Char) :
    (character x <|> character y : Rule Char).Takes I [a] a rest := by
  by_cases first : a = x
  case pos => exact (satisfy_takes (by simpa using first) rest).orElse_left _
  case neg =>
    have second : a = y := by simpa [first] using h
    have other : (character x : Rule Char).Refuses I ([a] ++ rest) :=
      character_refuses (by simpa using first)
    exact other.orElse_takes (satisfy_takes (by simpa using second) rest)

theorem either_refuses {x y : Char} (h : ∀ a ∈ rest.head?, a ∉ [x, y]) :
    (character x <|> character y : Rule Char).Refuses I rest :=
  (character_refuses fun mem => h x mem (by simp)).orElse
    (character_refuses fun mem => h y mem (by simp))

abbrev exponentMarker : Rule Char :=
  character 'e' <|> character 'E'

abbrev exponentSign : Rule (Option Char) :=
  (character '+' <|> character '-' : Rule Char).optional

def exponent? : Option Char × List Char → Option Int := fun (sign, ds) =>
  let n := Text.numeral 10 ds
  if n < 0x80000000 then some (signed sign n) else none

theorem exponent_eq :
    exponent = (exponentMarker *> exponentSign.pair digits).filterMap exponent? := rfl

-- A sign is read wherever it stands, be there digits behind it or not.
theorem exponentSign_takes {sign : Option Char} (signs : ∀ a ∈ sign, a ∈ ['+', '-'])
    (unsigned : sign = none → ∀ a ∈ behind.head?, a ∉ ['+', '-']) :
    exponentSign.Takes I sign.toList sign behind := by
  cases sign with
  | none => exact (either_refuses (unsigned rfl)).optional
  | some a => exact (either_takes (signs a rfl) behind).optional

theorem exists_sign (text : List Char) : ∃ (sign : Option Char) (more : List Char),
    text = sign.toList ++ more ∧ (∀ a ∈ sign, a ∈ ['+', '-']) ∧
      (sign = none → ∀ a ∈ more.head?, a ∉ ['+', '-']) := by
  by_cases found : ∃ a more, text = a :: more ∧ a ∈ ['+', '-']
  case pos =>
    obtain ⟨a, more, rfl, listed⟩ := found
    exact ⟨some a, more, rfl, by simpa using listed, by simp⟩
  case neg =>
    refine ⟨none, text, rfl, nofun, fun _ a mem listed => found ?_⟩
    have ⟨more, eq⟩ := List.head?_eq_some_iff.mp mem
    exact ⟨a, more, eq, listed⟩

theorem exists_digits (text : List Char) : (∀ a ∈ text.head?, a.isDigit = false) ∨
    ∃ ds rest, text = ds ++ rest ∧ DigitRun ds rest := by
  by_cases some : text.takeWhile Char.isDigit = []
  case pos =>
    refine .inl fun a mem => ?_
    have ⟨more, eq⟩ := List.head?_eq_some_iff.mp mem
    simpa [eq, List.takeWhile_cons] using some
  case neg =>
    refine .inr ⟨_, _, List.takeWhile_append_dropWhile.symm, some,
      fun d => List.mem_takeWhile_imp, fails_of_head?_dropWhile⟩

theorem exponent_parses {sign : Option Char} (marked : Marked behind sign ds t) :
    (exponentMarker *> exponentSign.pair digits).Takes I t (sign, ds) behind := by
  cases marked with
  | @mk e _ _ marker signs run =>
    have ⟨d, others, eq⟩ := List.exists_cons_of_ne_nil run.some
    have digit : d.isDigit := run.digit d (eq ▸ List.mem_cons_self)
    have unsigned : ∀ a ∈ (ds ++ behind).head?, a ∉ ['+', '-'] := by
      rw [eq]
      rintro _ ⟨⟩ listed
      have other : ∀ a ∈ ['+', '-'], a.isDigit = false := by decide
      simp [other d listed] at digit
    have sign := exponentSign_takes (I := I) signs fun _ => unsigned
    exact (either_takes marker _).seqRight (sign.pair run.takes)

theorem exponent_refuses (large : ∀ sign ds t rest, behind = t ++ rest → Marked rest sign ds t →
    2 ^ 31 ≤ Nat.ofDigitChars 10 ds 0) : exponent.Refuses I behind := by
  rw [exponent_eq]
  by_cases marker : ∃ e more, behind = e :: more ∧ e ∈ ['e', 'E']
  case pos =>
    obtain ⟨e, more, rfl, marker⟩ := marker
    obtain ⟨sign, more, rfl, signs, unsigned⟩ := exists_sign more
    have sign_takes := exponentSign_takes (I := I) signs unsigned
    rcases exists_digits more with none | ⟨ds, rest, rfl, run⟩
    · have refuses := sign_takes.halts.pair_refuses (digits_refuses none)
      exact ((either_takes marker _).seqRight_refuses refuses).filterMap _
    · have marked : Marked rest sign ds (e :: (sign.toList ++ ds)) := .mk marker signs run
      have large := large sign ds _ rest (by simp) marked
      rw [← Text.numeral_eq run.digit] at large
      have refuses := (exponent_parses (I := I) marked).filterMap_refuses (f := exponent?)
        (if_neg (Nat.not_lt.mpr large))
      simpa using refuses
  case neg =>
    have refuses : exponentMarker.Refuses I behind := by
      refine either_refuses fun e mem listed => marker ?_
      have ⟨more, eq⟩ := List.head?_eq_some_iff.mp mem
      exact ⟨e, more, eq, listed⟩
    exact (refuses.seqRight _).filterMap _

theorem ExponentPart.takes {o : Option Int} (h : ExponentPart behind o t) :
    exponent.optional.Takes I t o behind := by
  cases h with
  | absent large => exact (exponent_refuses large).optional
  | @present sign ds t marked small =>
    have digits : ∀ d ∈ ds, d.isDigit := by
      cases marked with
      | mk _ _ run => exact run.digit
    rw [← Text.numeral_eq digits] at small ⊢
    rw [exponent_eq]
    exact ((exponent_parses marked).filterMap (if_pos small)).optional

theorem realSuffix_refuses (other : ∀ a ∈ behind.head?, ∀ s : RealSuffix, a.toLower ≠ s.letter) :
    realSuffix.Refuses I behind := by
  refine oneOf_refuses fun p mem => ?_
  simp only [List.mem_cons, List.not_mem_nil, or_false] at mem
  rcases mem with rfl | rfl | rfl
  · exact (textIgnoringCase_refuses_first (y := 'f') rfl fun a mem => other a mem .float).map _
  · exact (textIgnoringCase_refuses_first (y := 'd') rfl fun a mem => other a mem .double).map _
  · exact (textIgnoringCase_refuses_first (y := 'm') rfl fun a mem => other a mem .decimal).map _

theorem SuffixPart.takes {o : Option RealSuffix} (h : SuffixPart behind o t) :
    realSuffix.optional.Takes I t o behind := by
  cases h with
  | absent other => exact (realSuffix_refuses other).optional
  | @present a s letter =>
    have refuses {z : String} {y : Char} (hz : z.toList = [y]) (other : s.letter ≠ y.toLower) :
        (textIgnoringCase z : Rule String).Refuses I ([a] ++ behind) := by
      refine textIgnoringCase_refuses_first hz ?_
      rintro _ ⟨⟩
      exact letter ▸ other
    have takes {z : String} (hz : z.toList = [s.letter]) (lower : s.letter.toLower = s.letter) :
        (textIgnoringCase z : Rule String).Takes I [a] z behind :=
      textIgnoringCase_takes (by rw [← String.length_toList, hz]; rfl)
        (by simp [hz, letter, lower]) _
    refine Takes.optional ?_
    cases s with
    | float => exact ((takes rfl rfl).map _).oneOf_head _
    | double =>
      exact ((refuses rfl (by decide)).map _).oneOf_tail (((takes rfl rfl).map _).oneOf_head _)
    | decimal =>
      exact ((refuses rfl (by decide)).map _).oneOf_tail
        (((refuses rfl (by decide)).map _).oneOf_tail (((takes rfl rfl).map _).oneOf_head _))

theorem RealParts.Munch.takes (h : r.Munch t rest) : realParts.Takes I t r rest := by
  cases h with
  | mk integral fraction exponent suffix =>
    refine Takes.bind (by simpa using integral.takes) ?_
    refine Takes.bind (by simpa using fraction.takes) ?_
    exact exponent.takes.bind (suffix.takes.bind_nil (pure_takes _ _))

end Read

section Split

theorem exists_fraction (text : List Char) :
    ∃ o t rest, text = t ++ rest ∧ FractionPart rest o t := by
  by_cases found : ∃ ds rest, text = '.' :: (ds ++ rest) ∧ DigitRun ds rest
  case pos =>
    obtain ⟨ds, rest, rfl, run⟩ := found
    exact ⟨_, _, rest, rfl, .present run⟩
  case neg =>
    refine ⟨none, [], text, rfl, .absent fun a ⟨more, eq⟩ => ?_⟩
    rcases exists_digits (a :: more) with none | ⟨ds, rest, split, run⟩
    · exact none a rfl
    · exact (found ⟨ds, rest, by rw [← eq, ← split]; rfl, run⟩).elim

theorem exists_exponent (text : List Char) :
    ∃ o t rest, text = t ++ rest ∧ ExponentPart rest o t := by
  by_cases found : ∃ sign ds t rest, text = t ++ rest ∧ Marked rest sign ds t ∧
      Nat.ofDigitChars 10 ds 0 < 2 ^ 31
  case pos =>
    have ⟨sign, ds, t, rest, eq, marked, small⟩ := found
    exact ⟨_, t, rest, eq, .present marked small⟩
  case neg =>
    refine ⟨none, [], text, rfl, .absent fun sign ds t rest eq marked => ?_⟩
    refine Nat.not_lt.mp fun small => ?_
    exact found ⟨sign, ds, t, rest, eq, marked, small⟩

theorem exists_suffix (text : List Char) : ∃ o t rest, text = t ++ rest ∧ SuffixPart rest o t := by
  by_cases found : ∃ a rest, text = a :: rest ∧ ∃ s : RealSuffix, a.toLower = s.letter
  case pos =>
    obtain ⟨a, rest, rfl, s, letter⟩ := found
    exact ⟨some s, [a], rest, rfl, .present letter⟩
  case neg =>
    refine ⟨none, [], text, rfl, .absent fun a mem s letter => found ?_⟩
    have ⟨rest, eq⟩ := List.head?_eq_some_iff.mp mem
    exact ⟨a, rest, eq, s, letter⟩

theorem exists_munch (text : List Char) :
    ∃ (r : RealParts) (t rest : List Char), text = t ++ rest ∧ r.Munch t rest := by
  have from_integral {text i more : List Char} {o : Option (List Char)} (eq : text = i ++ more)
      (integral : IntegralPart more o i) :
      ∃ (r : RealParts) (t rest : List Char), text = t ++ rest ∧ r.Munch t rest := by
    obtain ⟨fraction, f, more, rfl, hf⟩ := exists_fraction more
    obtain ⟨exponent, e, more, rfl, he⟩ := exists_exponent more
    obtain ⟨suffix, s, rest, rfl, hs⟩ := exists_suffix more
    exact ⟨⟨o, fraction, exponent, suffix⟩, _, rest, by simp [eq], .mk integral hf he hs⟩
  rcases exists_digits text with none | ⟨ds, rest, eq, run⟩
  · exact from_integral (i := []) rfl (.absent none)
  · exact from_integral eq (.present run)

end Split

section Real

inductive RealParts.Denotes (r : RealParts) : Literal → Prop
  | float {bits : Nat} (suffix : r.suffix = some .float)
      (finite : Binary.Format.single.ofNumeral? (r.integral.getD [] ++ r.fraction.getD [])
        (r.exponent.getD 0 - (r.fraction.getD []).length) = some bits) :
      Denotes r (.float (.ofNat bits))
  | double {bits : Nat} (suffix : r.suffix = none ∨ r.suffix = some .double)
      (finite : Binary.Format.double.ofNumeral? (r.integral.getD [] ++ r.fraction.getD [])
        (r.exponent.getD 0 - (r.fraction.getD []).length) = some bits) :
      Denotes r (.double (.ofNat bits))
  | decimal {d : Decimal} (suffix : r.suffix = some .decimal)
      (fits : Decimal.ofNumeral? (r.integral.getD []) (r.fraction.getD []) (r.exponent.getD 0) =
        some d) : Denotes r (.decimal d)

theorem RealParts.denotes_iff : r.Denotes v ↔ r.literal? = some v := by
  constructor
  case mp =>
    intro h
    cases h with
    | float suffix finite => simp [literal?, suffix, finite]
    | double suffix finite => rcases suffix with suffix | suffix <;> simp [literal?, suffix, finite]
    | decimal suffix fits => simp [literal?, suffix, fits]
  case mpr =>
    intro h
    rw [literal?] at h
    split at h
    case h_1 float =>
      obtain ⟨bits, finite, rfl⟩ := Option.map_eq_some_iff.mp h
      exact .float (by simpa [Option.getD_eq_iff] using float) finite
    case h_2 double =>
      obtain ⟨bits, finite, rfl⟩ := Option.map_eq_some_iff.mp h
      exact .double (by simpa [Option.getD_eq_iff, or_comm] using double) finite
    case h_3 decimal =>
      obtain ⟨d, fits, rfl⟩ := Option.map_eq_some_iff.mp h
      exact .decimal (by simpa [Option.getD_eq_iff] using decimal) fits

theorem RealParts.isComplete_iff : r.isComplete ↔ (r.integral.isSome ∨ r.fraction.isSome) ∧
    (r.fraction.isSome ∨ r.exponent.isSome ∨ r.suffix.isSome) := by
  simp [isComplete, or_assoc]

structure RealParts.Accepted (r : RealParts) (v : Literal) (rest : List Char) : Prop where
  digits  : r.integral.isSome ∨ r.fraction.isSome
  marked  : r.fraction.isSome ∨ r.exponent.isSome ∨ r.suffix.isSome
  denotes : r.Denotes v
  apart   : Apart rest

theorem RealParts.Munch.real_takes (h : r.Munch t (w ++ rest)) (accepted : r.Accepted v (w ++ rest))
    (skips : Skips rest w) (bare : Bare rest) : real.Takes I (t ++ w) v rest := by
  have complete := isComplete_iff.mpr ⟨accepted.digits, accepted.marked⟩
  have value := (h.takes (I := I)).filter complete |>.filterMap (denotes_iff.mp accepted.denotes)
  exact token_takes_skips (value.notFollowedBy (satisfy_refuses accepted.apart)) skips bare

theorem RealParts.Munch.real_refuses (h : r.Munch t rest) (refused : ∀ v, ¬r.Accepted v rest) :
    real.Refuses I (t ++ rest) := by
  refine Refuses.seqLeft ?_ whitespace
  by_cases complete : r.isComplete
  case neg =>
    have incomplete := Bool.eq_false_iff.mpr complete
    exact ((h.takes.filter_refuses incomplete).filterMap _).notFollowedBy _
  case pos =>
    have ⟨digits, marked⟩ := isComplete_iff.mp complete
    have parts := (h.takes (I := I)).filter complete
    cases value : r.literal? with
    | none => exact (parts.filterMap_refuses value).notFollowedBy _
    | some v =>
      have denotes := denotes_iff.mpr value
      -- Something behind the number is still part of a word.
      have ⟨a, mem, part⟩ : ∃ a ∈ rest.head?, isIdentifierPart a := by
        by_contra none
        refine refused v ⟨digits, marked, denotes, fun a mem => ?_⟩
        exact Bool.eq_false_iff.mpr fun part => none ⟨a, mem, part⟩
      obtain ⟨more, rfl⟩ := List.head?_eq_some_iff.mp mem
      have next : (satisfy isIdentifierPart : Rule Char).Takes I [a] a more :=
        satisfy_takes part more
      exact (parts.filterMap value).notFollowedBy_refuses next

theorem RealParts.Munch.unique {r r' : RealParts} {t t' rest rest' : List Char}
    (h : r.Munch t rest) (h' : r'.Munch t' rest') {c : Cursor Scope} (valid : c.Valid)
    (text : c.rest = t ++ rest) (text' : c.rest = t' ++ rest') : r = r' ∧ t = t' := by
  have start : c.At (fun _ => True) (t ++ rest) := ⟨valid, trivial, text⟩
  have start' : c.At (fun _ => True) (t' ++ rest') := ⟨valid, trivial, text'⟩
  have same := (h.takes c start).symm.trans (h'.takes c start')
  have ⟨parts, tail⟩ : r = r' ∧ c.drop t.length = c.drop t'.length := by simpa using same
  have behind : rest = rest' := start.drop.rest.symm.trans (tail ▸ start'.drop.rest)
  rw [text, behind] at text'
  exact ⟨parts, List.append_cancel_right text'⟩

theorem RealParts.Munch.real_refuses_digits (h : r.Munch t rest) (whole : r.integral = some t) :
    real.Refuses I (t ++ rest) := by
  have ⟨fraction, exponent, suffix⟩ := h.alone whole
  refine h.real_refuses fun v accepted => ?_
  simpa [fraction, exponent, suffix] using accepted.marked

-- A text starts with the parts of a number in one way. They are read as a real number exactly if
-- they have digits on either side of the point and something besides digits before the point, if
-- their value is representable, and if no word goes on behind them.
theorem real_maximalMunch {c : Cursor Scope} (valid : c.Valid) :
    ∃ (r : RealParts) (t rest : List Char), c.rest = t ++ rest ∧ r.Munch t rest ∧
      (∀ r' t' rest', c.rest = t' ++ rest' → RealParts.Munch r' t' rest' → r' = r ∧ t' = t) ∧
      (real.parses c ≠ [] ↔ ∃ v, r.Accepted v rest) ∧
      (∀ v, r.Accepted v rest → ∃ w behind, rest = w ++ behind ∧ Skips behind w ∧ Bare behind ∧
        real.parses c = [⟨v, c.drop (t ++ w).length⟩]) ∧
      (r.integral = some t → real.parses c = []) := by
  obtain ⟨r, t, rest, text, munch⟩ := exists_munch c.rest
  have start : c.At (fun _ => True) (t ++ rest) := ⟨valid, trivial, text⟩
  have takes : ∀ v, r.Accepted v rest → ∃ w behind, rest = w ++ behind ∧ Skips behind w ∧
      Bare behind ∧ real.parses c = [⟨v, c.drop (t ++ w).length⟩] := by
    intro v accepted
    obtain ⟨w, behind, rfl, skips, bare⟩ := exists_skips rest
    have read := munch.real_takes (I := fun _ => True) accepted skips bare
    exact ⟨w, behind, rfl, skips, bare, read c ⟨valid, trivial, by simpa using text⟩⟩
  have refuses (none : ∀ v, ¬r.Accepted v rest) : real.parses c = [] :=
    munch.real_refuses none c start
  refine ⟨r, t, rest, text, munch, fun r' t' rest' text' munch' => ?_, ⟨fun found => ?_, ?_⟩, takes,
    fun whole => ?_⟩
  · exact munch'.unique munch valid text' text
  · by_contra none
    exact found (refuses fun v accepted => none ⟨v, accepted⟩)
  · rintro ⟨v, accepted⟩
    have ⟨w, behind, _, _, _, parses⟩ := takes v accepted
    exact parses ▸ List.cons_ne_nil _ _
  · exact munch.real_refuses_digits whole c start

theorem real_maximalMunch_allParts :
    let s := Scope.new Registry.system.resolve .standard
    let c := Cursor.start "12.50e-1M/**/)" s
    real.parses (.start "42" s) = [] ∧
      ∃ w behind, "/**/)".toList = w ++ behind ∧ Skips behind w ∧ Bare behind ∧
        real.parses c = [⟨.decimal ⟨1250, 3⟩, c.drop ("12.50e-1M".toList ++ w).length⟩] := by
  intro s c
  constructor
  case left =>
    have ⟨r, t, rest, text, munch, unique, _, _, whole⟩ :=
      real_maximalMunch (Cursor.start_valid "42" s)
    have integral : IntegralPart [] (some "42".toList) "42".toList :=
      .present ⟨by decide, by decide, nofun⟩
    have fraction : FractionPart [] none [] := .absent (by simp)
    have exponent : ExponentPart [] none [] := .of_head (by simp)
    have suffix : SuffixPart [] none [] := .absent (by simp)
    have digits : RealParts.Munch ⟨some "42".toList, none, none, none⟩ "42".toList [] :=
      @RealParts.Munch.mk _ "42".toList [] [] [] [] integral fraction exponent suffix
    have ⟨parts, all⟩ := unique _ _ [] rfl digits
    exact whole (parts ▸ all ▸ rfl)
  case right =>
    have ⟨r, t, rest, text, munch, unique, _, takes, _⟩ :=
      real_maximalMunch (Cursor.start_valid "12.50e-1M/**/)" s)
    have integral : IntegralPart ".50e-1M/**/)".toList (some "12".toList) "12".toList :=
      .present ⟨by decide, by decide, by simp⟩
    have fraction : FractionPart "e-1M/**/)".toList (some "50".toList) ".50".toList :=
      .present ⟨by decide, by decide, by simp⟩
    have marked : Marked "M/**/)".toList (some '-') ['1'] "e-1".toList :=
      .mk (by decide) (by simp) ⟨by decide, by decide, by simp⟩
    have exponent : ExponentPart "M/**/)".toList (some (-1)) "e-1".toList :=
      .present marked (by decide)
    have suffix : SuffixPart "/**/)".toList (some .decimal) ['M'] := .present (by decide)
    have parts : RealParts.Munch ⟨some "12".toList, some "50".toList, some (-1), some .decimal⟩
        "12.50e-1M".toList "/**/)".toList :=
      @RealParts.Munch.mk _ "12".toList ".50".toList "e-1".toList ['M'] _ integral fraction exponent
        suffix
    obtain ⟨rfl, rfl⟩ := unique _ _ _ rfl parts
    have behind : rest = "/**/)".toList := List.append_cancel_left text.symm
    rw [← behind]
    refine takes _ ⟨.inl rfl, .inl rfl, .decimal rfl (by decide), ?_⟩
    rw [behind]
    rintro _ ⟨⟩
    decide

end Real

end ExprTree.Grammar
