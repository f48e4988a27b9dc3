import ExprTree.Builder.Standard
import ExprTree.Grammar.Literal
import ExprTree.Proofs.Grammar.Integers

namespace ExprTree.Grammar

open ExprTree.Parser

variable {I : Scope → Prop} {quote a x : Char} {s t ds rest : List Char}

section Characters

-- A character between quotes, as it may be written.
inductive Spelling (quote a : Char) : List Char → Prop
  | plain (other : a ≠ quote) (backslash : a ≠ '\\') (inside : isLineTerminator a = false) :
      Spelling quote a [a]
  | simple {x : Char} (letter : simpleEscape? x = some a) : Spelling quote a ['\\', x]
  | short {ds : List Char} (length : ds.length = 4) (digits : ∀ d ∈ ds, d ∈ Text.hexadecimalDigits)
      (value : Text.positional 16 ds = a.toNat) : Spelling quote a ('\\' :: 'u' :: ds)
  | long {ds : List Char} (length : ds.length = 8) (digits : ∀ d ∈ ds, d ∈ Text.hexadecimalDigits)
      (value : Text.positional 16 ds = a.toNat) : Spelling quote a ('\\' :: 'U' :: ds)

theorem Spelling.ne_nil (h : Spelling quote a t) : t ≠ [] := by
  cases h <;> exact List.cons_ne_nil _ _

-- Four digits are enough for the characters of the basic plane, and eight for all of them.
theorem exists_spelling (quote a : Char) :
    (a.toNat < 0x10000 → ∃ ds, Spelling quote a ('\\' :: 'u' :: ds)) ∧
      ∃ ds, Spelling quote a ('\\' :: 'U' :: ds) := by
  constructor
  case left =>
    intro small
    have ⟨ds, length, digits, value⟩ := Text.exists_positional 4 small
    exact ⟨ds, .short length digits value⟩
  case right =>
    have small : a.toNat < 16 ^ 8 := by
      have valid : a.toNat.isValidChar := a.valid
      have bound : a.toNat < 0x110000 := by
        rcases valid with low | high
        · omega
        · exact high.2
      omega
    have ⟨ds, length, digits, value⟩ := Text.exists_positional 8 small
    exact ⟨ds, .long length digits value⟩

theorem scalar?_toNat (a : Char) : scalar? a.toNat = some a := by
  have valid : a.toNat.isValidChar := a.valid
  rw [scalar?, if_pos valid, Char.ofNat_toNat]

theorem codePoint_takes (digits : ∀ d ∈ ds, d ∈ Text.hexadecimalDigits)
    (value : Text.positional 16 ds = a.toNat) (rest : List Char) :
    (codePoint ds.length ds.length).Takes I ds a rest := by
  have table : ∀ d ∈ Text.hexadecimalDigits, Text.isHexDigit d := by decide
  have read := satisfy_repeated (I := I) (fun d mem => table d (digits d mem)) rest
  unfold codePoint
  refine read.filterMap ?_
  rw [List.reverse_reverse, Text.numeral_eq_positional 16 digits, value, scalar?_toNat]

theorem codePoint_refuses (h : ∀ d ∈ rest.head?, Text.isHexDigit d = false) {min max : Nat}
    (positive : 0 < min) (enough : min ≤ max) : (codePoint min max).Refuses I rest := by
  have further : some max ≠ some 0 := by
    rw [Ne, Option.some.injEq]
    omega
  unfold codePoint
  exact ((satisfy_refuses h).repeated positive further _ _).filterMap _

theorem simpleEscape_refuses (h : simpleEscape? x = none) :
    (anyChar.filterMap simpleEscape? : Rule Char).Refuses I (x :: rest) :=
  (anyChar_takes x rest).filterMap_refuses h

theorem marked_refuses {y : Char} (other : y ≠ x) (p : Rule Char) :
    (character y *> p).Refuses I (x :: rest) :=
  (character_refuses fun mem => other (Option.some.inj mem).symm).seqRight p

theorem escapeSequence_refuses (h : a ≠ '\\') : escapeSequence.Refuses I (a :: rest) :=
  (character_refuses fun mem => h (Option.some.inj mem)).seqRight _

theorem Spelling.takes (h : Spelling quote a t) (rest : List Char) :
    (escapeSequence <|> plainCharacter quote).Takes I t a rest := by
  cases h with
  | plain other backslash inside =>
    have read : (plainCharacter quote).Takes I [a] a rest :=
      satisfy_takes (by simp [other, backslash, inside]) rest
    exact (escapeSequence_refuses backslash).orElse_takes read
  | @simple x letter =>
    have read := (anyChar_takes (I := I) x rest).filterMap letter
    exact ((character_takes '\\' _).seqRight (read.oneOf_head _)).orElse_left _
  | @short ds length digits value =>
    have read := (character_takes (I := I) 'u' _).seqRight
      (length ▸ codePoint_takes digits value rest)
    refine ((character_takes '\\' _).seqRight ?_).orElse_left _
    exact (simpleEscape_refuses rfl).oneOf_tail ((marked_refuses (by decide) _).oneOf_tail
      (read.oneOf_head _))
  | @long ds length digits value =>
    have read := (character_takes (I := I) 'U' _).seqRight
      (length ▸ codePoint_takes digits value rest)
    refine ((character_takes '\\' _).seqRight ?_).orElse_left _
    exact (simpleEscape_refuses rfl).oneOf_tail ((marked_refuses (by decide) _).oneOf_tail
      ((marked_refuses (by decide) _).oneOf_tail (read.oneOf_head _)))

theorem character_refuses_quote (h : quote ≠ '\\') :
    (escapeSequence <|> plainCharacter quote).Refuses I (quote :: rest) := by
  have plain : (plainCharacter quote).Refuses I (quote :: rest) := by
    refine satisfy_refuses ?_
    rintro _ ⟨⟩
    simp
  exact (escapeSequence_refuses h).orElse plain

end Characters

section Regular

variable {ts : List (List Char)}

abbrev stringCharacter : Rule Char :=
  escapeSequence <|> plainCharacter '\x22'

theorem spellings_takesAll (h : List.Forall₂ (Spelling '\x22') s ts)
    (stop : stringCharacter.Refuses I rest) : TakesAll I stringCharacter rest ts.flatten s := by
  induction h with
  | nil => exact .nil stop
  | cons first _ ih => exact .cons first.ne_nil (first.takes _) ih

abbrev quoted (ts : List (List Char)) : List Char :=
  '\x22' :: (ts.flatten ++ ['\x22'])

theorem regularString_takes (h : List.Forall₂ (Spelling '\x22') s ts) (rest : List Char) :
    regularString.Takes I (quoted ts) (String.ofList s) rest := by
  have characters : stringCharacter.many.Takes I ts.flatten s (['\x22'] ++ rest) :=
    (spellings_takesAll h (character_refuses_quote (by decide))).atLeast (Nat.zero_le _)
  have read := (character_takes '\x22' _).between characters (character_takes '\x22' rest)
  exact read.map String.ofList

theorem regularString_refuses (h : List.Forall₂ (Spelling '\x22') s ts)
    (stop : stringCharacter.Refuses I rest) (ends : '\x22' ∉ rest.head?) :
    regularString.Refuses I ('\x22' :: (ts.flatten ++ rest)) := by
  have characters : stringCharacter.many.Takes I ts.flatten s rest :=
    (spellings_takesAll h stop).atLeast (Nat.zero_le _)
  have opened := ((character_takes '\x22' _).seqRight characters).halts
  exact (opened.seqLeft_refuses (character_refuses ends)).map String.ofList

end Regular

section Verbatim

def doubled (s : List Char) : List Char :=
  s.flatMap fun a => if a = '\x22' then ['\x22', '\x22'] else [a]

@[simp]
theorem doubled_nil : doubled [] = [] := rfl

theorem doubled_quote (s : List Char) : doubled ('\x22' :: s) = ['\x22', '\x22'] ++ doubled s := rfl

theorem doubled_plain (h : a ≠ '\x22') (s : List Char) : doubled (a :: s) = [a] ++ doubled s := by
  rw [doubled, List.flatMap_cons, if_neg h]
  rfl

abbrev verbatimCharacter : Rule Char :=
  ((fun _ => '\x22') <$> text "\"\"") <|> satisfy (· != '\x22')

theorem verbatimCharacter_refuses (h : ¬"\"\"".toList <+: rest)
    (quote : ∀ a ∈ rest.head?, a = '\x22') : verbatimCharacter.Refuses I rest := by
  have plain : (satisfy (· != '\x22') : Rule Char).Refuses I rest :=
    satisfy_refuses fun a mem => by simp [quote a mem]
  exact ((text_refuses h).map _).orElse plain

theorem doubled_takesAll (stop : verbatimCharacter.Refuses I rest) (s : List Char) :
    TakesAll I verbatimCharacter rest (doubled s) s := by
  induction s with
  | nil => exact .nil stop
  | cons a s ih =>
    by_cases quote : a = '\x22'
    case pos =>
      have read : (text "\"\"" : Rule String).Takes I ['\x22', '\x22'] "\"\"" (doubled s ++ rest) :=
        text_takes "\"\"" _
      rw [quote, doubled_quote]
      exact .cons (by simp) ((read.map _).orElse_left _) ih
    case neg =>
      have other : (text "\"\"" : Rule String).Refuses I ([a] ++ (doubled s ++ rest)) :=
        text_refuses (not_prefix_of_head (y := '\x22') rfl fun mem => quote (Option.some.inj mem))
      have read : (satisfy (· != '\x22') : Rule Char).Takes I [a] a (doubled s ++ rest) :=
        satisfy_takes (by simpa using quote) _
      rw [doubled_plain quote]
      exact .cons (by simp) ((other.map _).orElse_takes read) ih

abbrev verbatim (s : List Char) : List Char :=
  "@\"".toList ++ doubled s ++ ['\x22']

theorem verbatimString_takes (s : List Char) (ends : '\x22' ∉ rest.head?) :
    verbatimString.Takes I (verbatim s) (String.ofList s) rest := by
  have stop : verbatimCharacter.Refuses I (['\x22'] ++ rest) := by
    refine verbatimCharacter_refuses (fun ⟨more, eq⟩ => ends ?_) ?_
    · have behind : '\x22' :: more = rest := (List.cons.inj eq).2
      simp [← behind]
    · rintro _ ⟨⟩
      rfl
  have characters : verbatimCharacter.many.Takes I (doubled s) s (['\x22'] ++ rest) :=
    (doubled_takesAll stop s).atLeast (Nat.zero_le _)
  have read := (text_takes "@\"" _).between characters (character_takes '\x22' rest)
  exact read.map String.ofList

theorem verbatimString_refuses_open (s : List Char) :
    verbatimString.Refuses I ("@\"".toList ++ doubled s) := by
  have stop : verbatimCharacter.Refuses I [] := verbatimCharacter_refuses (by simp) nofun
  have characters : verbatimCharacter.many.Takes I (doubled s) s [] :=
    (doubled_takesAll stop s).atLeast (Nat.zero_le _)
  have closing : (character '\x22' : Rule Char).Refuses I [] := character_refuses nofun
  have opened := ((text_takes "@\"" _).seqRight characters).halts
  have refuses := (opened.seqLeft_refuses closing).map String.ofList
  rwa [List.append_nil] at refuses

theorem exists_doubled (t : List Char) :
    (∃ s, t = doubled s) ∨ ∃ s rest, t = doubled s ++ ['\x22'] ++ rest ∧ '\x22' ∉ rest.head? := by
  induction size : t.length using Nat.strongRecOn generalizing t with
  | ind n ih =>
    -- What stands behind a character of the string, as it is written.
    have prepend {a : Char} (front : List Char) {more : List Char} (less : more.length < n)
        (write : ∀ s, doubled (a :: s) = front ++ doubled s) :
        (∃ s, front ++ more = doubled s) ∨
          ∃ s rest, front ++ more = doubled s ++ ['\x22'] ++ rest ∧ '\x22' ∉ rest.head? := by
      rcases ih more.length less more rfl with ⟨s, eq⟩ | ⟨s, rest, eq, ends⟩
      · exact .inl ⟨a :: s, by rw [write, eq]⟩
      · exact .inr ⟨a :: s, rest, by simp [write, eq], ends⟩
    cases t with
    | nil => exact .inl ⟨[], rfl⟩
    | cons a more =>
      rw [List.length_cons] at size
      by_cases quote : a = '\x22'
      case neg => exact prepend [a] (by omega) (doubled_plain quote)
      case pos =>
        subst quote
        by_cases twice : '\x22' ∈ more.head?
        case pos =>
          obtain ⟨more, rfl⟩ := List.head?_eq_some_iff.mp twice
          rw [List.length_cons] at size
          exact prepend ['\x22', '\x22'] (by omega) doubled_quote
        case neg => exact .inr ⟨[], more, rfl, twice⟩

theorem verbatimString_spec {c : Cursor Scope} (valid : c.Valid) {p : Parsed Scope String}
    (mem : p ∈ verbatimString.parses c) : ∃ r, '\x22' ∉ r.head? ∧
      c.rest = verbatim p.value.toList ++ r ∧ p.tail = c.drop (verbatim p.value.toList).length := by
  by_cases opened : "@\"".toList <+: c.rest
  case neg =>
    have refuses : verbatimString.Refuses (fun _ => True) c.rest :=
      ((text_refuses opened).between _ _).map String.ofList
    rw [refuses c ⟨valid, trivial, rfl⟩] at mem
    exact absurd mem List.not_mem_nil
  case pos =>
    obtain ⟨t, text⟩ := opened
    rcases exists_doubled t with ⟨s, rfl⟩ | ⟨s, rest, rfl, ends⟩
    · rw [verbatimString_refuses_open (I := fun _ => True) s c ⟨valid, trivial, text.symm⟩] at mem
      exact absurd mem List.not_mem_nil
    · have text : c.rest = verbatim s ++ rest := by simpa using text.symm
      rw [verbatimString_takes (I := fun _ => True) s ends c ⟨valid, trivial, text⟩,
        List.mem_singleton] at mem
      rw [mem, String.toList_ofList]
      exact ⟨rest, ends, text, rfl⟩

end Verbatim

section Both

-- Every string can be written in both forms. In quotes, each of its characters has its code point
-- to be spelled by, and some stand for themselves; whichever are chosen, the string is read, and so
-- it is in the verbatim form unless a quote stands behind it. Nothing but this is read as a
-- verbatim string.
theorem stringLiteral_written {c : Cursor Scope} (valid : c.Valid) :
    (∀ (s : String) (r : List Char), '\x22' ∉ r.head? → c.rest = verbatim s.toList ++ r →
      ReadsToken stringLiteral c (verbatim s.toList) (.string s) r) ∧
    (∀ p ∈ verbatimString.parses c, ∃ r, '\x22' ∉ r.head? ∧
      c.rest = verbatim p.value.toList ++ r ∧ p.tail = c.drop (verbatim p.value.toList).length) ∧
    (∀ (s : String) (ts : List (List Char)) (r : List Char),
      List.Forall₂ (Spelling '\x22') s.toList ts → c.rest = quoted ts ++ r →
      ReadsToken stringLiteral c (quoted ts) (.string s) r) ∧
    ∀ a : Char, (a.toNat < 0x10000 → ∃ ds, Spelling '\x22' a ('\\' :: 'u' :: ds)) ∧
      ∃ ds, Spelling '\x22' a ('\\' :: 'U' :: ds) := by
  refine ⟨fun s r ends text => ?_, fun p => verbatimString_spec valid,
    fun s ts r spelled text => ?_, exists_spelling '\x22'⟩
  case refine_1 =>
    have regular : regularString.Refuses (fun _ => True) (verbatim s.toList ++ r) :=
      ((character_refuses (by simp)).between _ _).map String.ofList
    have read := regular.orElse_takes (verbatimString_takes s.toList ends)
    rw [String.ofList_toList] at read
    exact (token_readsToken read ⟨valid, trivial, text⟩).map Literal.string
  case refine_2 =>
    have read := (regularString_takes (I := fun _ => True) spelled r).orElse_left verbatimString
    rw [String.ofList_toList] at read
    exact (token_readsToken read ⟨valid, trivial, text⟩).map Literal.string

theorem stringLiteral_written_quotes :
    let s := Scope.new Registry.system.resolve .standard
    let spelled := ["\\u0022".toList, "\\U0001f60A".toList, ['d']]
    ReadsToken stringLiteral (.start "@\"say \"\"hi\"\"\"/**/ + 1" s) (verbatim "say \"hi\"".toList)
        (.string "say \"hi\"") "/**/ + 1".toList ∧
      ReadsToken stringLiteral (.start "\"\\u0022\\U0001f60Ad\"\"" s) (quoted spelled)
        (.string "\"😊d") ['\x22'] := by
  intro s spelled
  constructor
  case left =>
    have ⟨read, _⟩ := stringLiteral_written (Cursor.start_valid "@\"say \"\"hi\"\"\"/**/ + 1" s)
    exact read "say \"hi\"" "/**/ + 1".toList (by simp) (by decide)
  case right =>
    have ⟨_, _, read, _⟩ :=
      stringLiteral_written (Cursor.start_valid "\"\\u0022\\U0001f60Ad\"\"" s)
    have first : Spelling '\x22' '\x22' "\\u0022".toList :=
      @Spelling.short _ _ "0022".toList rfl (by decide) (by decide)
    have second : Spelling '\x22' '😊' "\\U0001f60A".toList :=
      @Spelling.long _ _ "0001f60A".toList rfl (by decide) (by decide)
    have third : Spelling '\x22' 'd' ['d'] := .plain (by decide) (by decide) (by decide)
    have spellings : List.Forall₂ (Spelling '\x22') "\"😊d".toList spelled :=
      .cons first (.cons second (.cons third .nil))
    exact read "\"😊d" spelled ['\x22'] spellings (by decide)

end Both

end ExprTree.Grammar
