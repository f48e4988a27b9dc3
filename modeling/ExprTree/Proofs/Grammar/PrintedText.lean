import ExprTree.Proofs.Grammar.Strings

namespace ExprTree

namespace Text

def shortEscapes : List Char :=
  ['\x00', '\t', '\r', '\n', '\\', '\x22', '\x27']

def Escaping.hides (e : Escaping) (c : Char) : Bool :=
  !shortEscapes.contains c && (e.combining && isCombining c || isUnprintable c)

def escaped (e : Escaping) : List Char → List Char
  | [] => []
  | c :: cs => (escape e c).toList ++ escaped .following cs

-- Whether no character of a text in quotes is written by its code point.
def legible (e : Escaping) : List Char → Bool
  | [] => true
  | c :: cs => !e.hides c && legible .following cs

theorem toList_escapeAll (cs : List Char) :
    (escapeAll .following cs).toList = escaped .following cs := by
  induction cs with
  | nil => rfl
  | cons c cs ih => simp [escapeAll, escaped, ← ih]

theorem toList_quotedString (s : String) :
    (quotedString s).toList = '\x22' :: (escaped .leading s.toList ++ ['\x22']) := by
  rw [quotedString]
  split
  case h_1 empty => rw [empty]; rfl
  case h_2 c cs eq => simp [eq, escaped, toList_escapeAll]

theorem toList_quotedChar (c : Char) :
    (quotedChar c).toList = ['\x27'] ++ (escape .leading c).toList ++ ['\x27'] := by
  simp [quotedChar]

theorem Escaping.hides_iff {e : Escaping} {c : Char} : e.hides c ↔
    c ∉ shortEscapes ∧ (e.combining ∧ isCombining c ∨ isUnprintable c) := by
  simp [hides]

theorem escape_of_not_mem {e : Escaping} {c : Char} (h : c ∉ shortEscapes) :
    escape e c = if e.hides c then codePoint c else c.toString := by
  have ⟨null, tab, return', newline, backslash, quote, single⟩ : c ≠ '\x00' ∧ c ≠ '\t' ∧ c ≠ '\r' ∧
      c ≠ '\n' ∧ c ≠ '\\' ∧ c ≠ '\x22' ∧ c ≠ '\x27' := by
    simpa [shortEscapes] using h
  rw [escape, if_neg null, if_neg tab, if_neg return', if_neg newline, if_neg backslash,
    if_neg quote, if_neg (by simp [single])]
  have hidden : e.hides c = (e.combining && isCombining c || isUnprintable c) := by
    simp [Escaping.hides, h]
  rw [hidden]
  cases e.combining && isCombining c <;> simp

theorem escape_of_hides {e : Escaping} {c : Char} (h : e.hides c) : escape e c = codePoint c := by
  have ⟨long, _⟩ := Escaping.hides_iff.mp h
  rw [escape_of_not_mem long, if_pos h]

end Text

namespace Grammar

open ExprTree.Parser

variable {I : Scope → Prop} {a : Char} {e : Text.Escaping}

theorem isLineTerminator_of_not_hides (shown : e.hides a = false) (long : a ∉ Text.shortEscapes) :
    isLineTerminator a = false := by
  have table : ∀ a ∈ ['\n', '\r', '\u0085', '\u2028', '\u2029'],
      a ∈ Text.shortEscapes ∨ Text.isUnprintable a := by decide +kernel
  rw [Bool.eq_false_iff]
  intro ends
  have listed : a ∈ ['\n', '\r', '\u0085', '\u2028', '\u2029'] := by
    simpa [isLineTerminator, or_assoc] using ends
  rcases table a listed with short | unprintable
  · exact long short
  · rw [Text.Escaping.hides_iff.mpr ⟨long, .inr unprintable⟩] at shown
    simp at shown

theorem escape_short (single : e.singleQuote) (short : a ∈ Text.shortEscapes) :
    ∃ x, (Text.escape e a).toList = ['\\', x] ∧ simpleEscape? x = some a := by
  simp only [Text.shortEscapes, List.mem_cons, List.not_mem_nil, or_false] at short
  rcases short with rfl | rfl | rfl | rfl | rfl | rfl | rfl
  · exact ⟨'0', by simp [Text.escape], rfl⟩
  · exact ⟨'t', by simp [Text.escape], rfl⟩
  · exact ⟨'r', by simp [Text.escape], rfl⟩
  · exact ⟨'n', by simp [Text.escape], rfl⟩
  · exact ⟨'\\', by simp [Text.escape], rfl⟩
  · exact ⟨'\x22', by simp [Text.escape], rfl⟩
  · exact ⟨'\x27', by simp [Text.escape, single], rfl⟩

theorem escape_spelling (quote : Char) (single : e.singleQuote) (listed : quote ∈ ['\x22', '\x27'])
    (shown : e.hides a = false) : Spelling quote a (Text.escape e a).toList := by
  by_cases short : a ∈ Text.shortEscapes
  case pos =>
    have ⟨x, printed, letter⟩ := escape_short single short
    exact printed ▸ .simple letter
  case neg =>
    have printed : (Text.escape e a).toList = [a] := by
      simp [Text.escape_of_not_mem short, shown]
    have quotes : ∀ z ∈ '\\' :: ['\x22', '\x27'], z ∈ Text.shortEscapes := by decide
    have other {z : Char} (mem : z ∈ '\\' :: ['\x22', '\x27']) : a ≠ z :=
      fun eq => short (eq ▸ quotes z mem)
    rw [printed]
    exact .plain (other (List.mem_cons_of_mem _ listed)) (other List.mem_cons_self)
      (isLineTerminator_of_not_hides shown short)

-- The brace is not a digit of a code point.
theorem character_refuses_codePoint (quote c : Char) (rest : List Char) :
    (escapeSequence <|> plainCharacter quote).Refuses I ((Text.codePoint c).toList ++ rest) := by
  let digits := Nat.toDigits 16 c.toNat
  have printed : (Text.codePoint c).toList ++ rest =
      ['\\'] ++ (['u'] ++ ('\x7b' :: (digits ++ '\x7d' :: rest))) := by
    simp [Text.codePoint, digits]
  rw [printed]
  have escape : escapeSequence.Refuses I
      (['\\'] ++ (['u'] ++ ('\x7b' :: (digits ++ '\x7d' :: rest)))) := by
    refine (character_takes '\\' _).seqRight_refuses (oneOf_refuses fun p mem => ?_)
    simp only [List.mem_cons, List.not_mem_nil, or_false] at mem
    rcases mem with rfl | rfl | rfl | rfl
    · exact simpleEscape_refuses rfl
    · exact marked_refuses (by decide) _
    · refine (character_takes 'u' _).seqRight_refuses ?_
      exact codePoint_refuses (by simp [Text.isHexDigit]) (by decide) (by decide)
    · exact marked_refuses (by decide) _
  have plain : (plainCharacter quote).Refuses I
      (['\\'] ++ (['u'] ++ ('\x7b' :: (digits ++ '\x7d' :: rest)))) := by
    refine satisfy_refuses ?_
    rintro _ ⟨⟩
    simp
  exact escape.orElse plain

theorem escaped_of_legible {s : List Char} (single : e.singleQuote) (h : Text.legible e s) :
    ∃ ts, List.Forall₂ (Spelling '\x22') s ts ∧ Text.escaped e s = ts.flatten := by
  induction s generalizing e with
  | nil => exact ⟨[], .nil, rfl⟩
  | cons a s ih =>
    have ⟨shown, others⟩ : e.hides a = false ∧ Text.legible .following s := by
      simpa [Text.legible] using h
    have ⟨ts, spelled, printed⟩ := ih rfl others
    have first := escape_spelling '\x22' single (by decide) shown
    exact ⟨_ :: ts, .cons first spelled, by rw [Text.escaped, printed, List.flatten_cons]⟩

theorem escaped_of_not_legible {s : List Char} (single : e.singleQuote)
    (h : Text.legible e s = false) :
    ∃ (front : List Char) (ts : List (List Char)) (a : Char) (rest : List Char),
      List.Forall₂ (Spelling '\x22') front ts ∧
        Text.escaped e s = ts.flatten ++ ((Text.codePoint a).toList ++ rest) := by
  induction s generalizing e with
  | nil => simp [Text.legible] at h
  | cons a s ih =>
    by_cases shown : e.hides a = false
    case pos =>
      have others : Text.legible .following s = false := by simpa [Text.legible, shown] using h
      have ⟨front, ts, b, rest, spelled, printed⟩ := ih rfl others
      have first := escape_spelling '\x22' single (by decide) shown
      exact ⟨a :: front, _ :: ts, b, rest, .cons first spelled, by simp [Text.escaped, printed]⟩
    case neg =>
      have hidden : e.hides a := by simpa using shown
      exact ⟨[], [], a, _, .nil, by rw [Text.escaped, Text.escape_of_hides hidden]; rfl⟩

theorem stringLiteral_takes {t : String} (h : Text.legible .leading t.toList) :
    stringLiteral.Takes I (Literal.string t).text.toList (.string t) [] := by
  have ⟨ts, spelled, printed⟩ := escaped_of_legible rfl h
  have text : (Literal.string t).text.toList = quoted ts := by
    rw [Literal.text, Text.toList_quotedString, printed]
  have read := (regularString_takes (I := I) spelled []).orElse_left verbatimString
  rw [String.ofList_toList] at read
  rw [text]
  exact (token_takes_end read).map Literal.string

theorem stringLiteral_refuses {t : String} (h : Text.legible .leading t.toList = false) :
    stringLiteral.Refuses I (Literal.string t).text.toList := by
  have ⟨front, ts, a, rest, spelled, printed⟩ := escaped_of_not_legible rfl h
  have text : (Literal.string t).text.toList =
      '\x22' :: (ts.flatten ++ ((Text.codePoint a).toList ++ (rest ++ ['\x22']))) := by
    simp [Literal.text, Text.toList_quotedString, printed]
  have regular : regularString.Refuses I (Literal.string t).text.toList := by
    rw [text]
    refine regularString_refuses spelled (character_refuses_codePoint '\x22' a _) ?_
    simp [Text.codePoint]
  have verbatim : verbatimString.Refuses I (Literal.string t).text.toList := by
    have other : ¬"@\"".toList <+: (Literal.string t).text.toList := by
      rw [text]
      exact not_prefix_of_head (y := '@') rfl (by simp)
    exact ((text_refuses other).between _ _).map String.ofList
  exact ((regular.orElse verbatim).seqLeft whitespace).map Literal.string

theorem characterLiteral_takes (h : Text.Escaping.leading.hides a = false) :
    characterLiteral.Takes I (Literal.char a).text.toList (.char a) [] := by
  have spelled : Spelling '\x27' a (Text.escape .leading a).toList :=
    escape_spelling '\x27' rfl (by decide) h
  have text : (Literal.char a).text.toList =
      ['\x27'] ++ (Text.escape .leading a).toList ++ ['\x27'] := Text.toList_quotedChar a
  have read := (character_takes (I := I) '\x27' _).between (spelled.takes ['\x27'])
    (character_takes '\x27' [])
  rw [text]
  exact (token_takes_end read).map Literal.char

theorem characterLiteral_refuses (h : Text.Escaping.leading.hides a) :
    characterLiteral.Refuses I (Literal.char a).text.toList := by
  have text : (Literal.char a).text.toList =
      ['\x27'] ++ ((Text.codePoint a).toList ++ ['\x27']) := by
    rw [Literal.text, Text.toList_quotedChar, Text.escape_of_hides h, List.append_assoc]
  have opened := (character_takes (I := I) '\x27' _).seqRight_refuses
    (character_refuses_codePoint '\x27' a ['\x27'])
  rw [text]
  exact ((opened.seqLeft (character '\x27')).seqLeft whitespace).map Literal.char

-- A printed string is read back in one way if none of its characters is written by its code point,
-- and a printed character if it is not; otherwise the text is not read.
theorem text_printed (s : Scope) :
    (∀ t : String, stringLiteral.parses (.start (Literal.string t).text s) =
      if Text.legible .leading t.toList then
        [⟨.string t, ⟨(Literal.string t).text, (Literal.string t).text.utf8ByteSize, [], s⟩⟩]
      else []) ∧
    ∀ a : Char, characterLiteral.parses (.start (Literal.char a).text s) =
      if Text.Escaping.leading.hides a then []
      else [⟨.char a, ⟨(Literal.char a).text, (Literal.char a).text.utf8ByteSize, [], s⟩⟩] := by
  constructor
  case left =>
    intro t
    split
    case isTrue shown => exact (stringLiteral_takes (I := fun _ => True) shown).parses_start trivial
    case isFalse hidden =>
      have refuses := stringLiteral_refuses (I := fun _ => True) (Bool.eq_false_iff.mpr hidden)
      exact refuses _ (.start trivial)
  case right =>
    intro a
    split
    case isTrue hidden =>
      have refuses := characterLiteral_refuses (I := fun _ => True) hidden
      exact refuses _ (.start trivial)
    case isFalse shown =>
      have takes := characterLiteral_takes (I := fun _ => True) (Bool.eq_false_iff.mpr shown)
      exact takes.parses_start trivial

theorem text_printed_alarm :
    let s := Scope.new Registry.system.resolve .standard
    (characterLiteral.parses (.start "'\\a'" s)).map Parsed.value = [.char '\x07'] ∧
      (Literal.char '\x07').text = "'\\u\x7b7\x7d'" ∧
      characterLiteral.parses (.start (Literal.char '\x07').text s) = [] ∧
      (Literal.string "\x07").text = "\"\\u\x7b7\x7d\"" ∧
      stringLiteral.parses (.start (Literal.string "\x07").text s) = [] := by
  intro s
  refine ⟨?_, ?_, ?_, ?_, ?_⟩
  all_goals decide +kernel

end Grammar

end ExprTree
