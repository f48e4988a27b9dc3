import ExprTree.Grammar.Operator
import ExprTree.Proofs.Grammar.Trivia
import ExprTree.Proofs.Parser.Keeps

namespace ExprTree.Grammar

open ExprTree.Parser

variable {I : Scope → Prop} {α : Type} {gap rest : List Char}

inductive Gap : List Char → Prop
  | none : Gap []
  | space : Gap [' ']

structure Significant (text : List Char) : Prop where
  blank   : ∀ a ∈ text.head?, Text.isBlank a = false
  line    : ¬"//".toList <+: text
  comment : ¬"/*".toList <+: text

def Apart (text : List Char) : Prop :=
  ∀ a ∈ text.head?, isIdentifierPart a = false

theorem Gap.apart (h : Gap gap) (apart : Apart rest) : Apart (gap ++ rest) := by
  cases h with
  | none => exact apart
  | space =>
    rintro a ⟨⟩
    decide

theorem not_prefix_of_first {s : String} (h : ∃ y ∈ s.toList.head?, y ∉ rest.head?) :
    ¬s.toList <+: rest := by
  obtain ⟨y, head, other⟩ := h
  rintro ⟨more, eq⟩
  exact other (eq ▸ List.mem_head?_append_of_mem_head? head)

theorem not_prefix_of_head {s : String} {y : Char} {zs : List Char} (hs : s.toList = y :: zs)
    (other : y ∉ rest.head?) : ¬s.toList <+: rest :=
  not_prefix_of_first ⟨y, by simp [hs], other⟩

section Listed

variable {P : Char → Prop} [DecidablePred P]

-- A property of listed characters is decided along the list, never over every character there is.
instance (priority := high) decidableForallListed (l : List Char) : Decidable (∀ a ∈ l, P a) :=
  List.decidableBAll P l

instance (priority := high) decidableExistsListed (l : List Char) : Decidable (∃ a ∈ l, P a) :=
  List.decidableBEx P l

instance (priority := high) decidableExistsHead (o : Option Char) : Decidable (∃ a ∈ o, P a) :=
  Option.decidableExistsMem o

end Listed

section Characters

theorem not_blank_of_alphabetic {a : Char} (h : Text.isAlphabetic a) : Text.isBlank a = false := by
  -- There are so few blanks that each of them can be looked up.
  have blanks : ∀ n ∈ [0x9, 0xA, 0xB, 0xC, 0xD, 0x20, 0x85, 0xA0, 0x1680, 0x2000, 0x2001, 0x2002,
      0x2003, 0x2004, 0x2005, 0x2006, 0x2007, 0x2008, 0x2009, 0x200A, 0x2028, 0x2029, 0x202F,
      0x205F, 0x3000], Text.Ranges.search n Text.alphabetic.ranges = false := by
    decide +kernel
  rw [Bool.eq_false_iff]
  intro blank
  simp only [Text.isBlank, Text.Ranges.contains, Text.blank, Text.Ranges.search, Bool.and_eq_true,
    Bool.or_eq_true, decide_eq_true_eq, Bool.false_eq_true, or_false] at blank
  have listed := blanks a.toNat (by simp only [List.mem_cons, List.not_mem_nil, or_false]; omega)
  rw [Text.isAlphabetic, Text.Ranges.contains, listed] at h
  simp at h

theorem not_blank_of_start {a : Char} (h : isIdentifierStart a) : Text.isBlank a = false := by
  rw [isIdentifierStart, Bool.or_eq_true, beq_iff_eq] at h
  cases h with
  | inl alphabetic => exact not_blank_of_alphabetic alphabetic
  | inr underscore =>
    rw [underscore]
    decide

theorem part_of_start {a : Char} (h : isIdentifierStart a) : isIdentifierPart a := by
  rw [isIdentifierStart, Bool.or_eq_true] at h
  rw [isIdentifierPart, Bool.or_eq_true, Bool.or_eq_true]
  exact h.imp_left .inl

theorem significant_cons {a : Char} (blank : Text.isBlank a = false) (slash : a ≠ '/')
    (rest : List Char) : Significant (a :: rest) := by
  refine ⟨?_, fun ⟨_, eq⟩ => slash ?_, fun ⟨_, eq⟩ => slash ?_⟩
  · rintro _ ⟨⟩
    exact blank
  all_goals exact (List.cons.inj eq).1.symm

theorem significant_of_start {a : Char} (h : isIdentifierStart a) (rest : List Char) :
    Significant (a :: rest) := by
  refine significant_cons (not_blank_of_start h) ?_ rest
  rintro rfl
  revert h
  decide

end Characters

section Whitespace

theorem Significant.bare (h : Significant rest) : Bare rest :=
  ⟨h.blank, h.line, fun body eq _ => h.comment ⟨body, eq.symm⟩⟩

theorem Gap.skips (h : Gap gap) : Skips rest gap := by
  cases h with
  | none => exact .nil
  | space => exact .blank (by decide) .nil

theorem whitespace_takes (hg : Gap gap) (h : Significant rest) :
    whitespace.Takes I gap () rest :=
  whitespace_takes_skips hg.skips h.bare

theorem token_takes {p : Rule α} {t : List Char} {a : α} (h : p.Takes I t a (gap ++ rest))
    (hg : Gap gap) (significant : Significant rest) : (token p).Takes I (t ++ gap) a rest :=
  h.seqLeft (whitespace_takes hg significant)

end Whitespace

section Punctuation

theorem symbol_takes (s : String) (hg : Gap gap) (h : Significant rest) :
    (symbol s).Takes I (s.toList ++ gap) s rest :=
  token_takes (text_takes s _) hg h

theorem symbol_refuses {s : String} (h : ¬s.toList <+: rest) : (symbol s).Refuses I rest :=
  (text_refuses h).seqLeft _

theorem operator_takes (s : String) {notBefore : List Char} (hg : Gap gap) (h : Significant rest)
    (next : ∀ a ∈ (gap ++ rest).head?, a ∉ notBefore) :
    (operator s notBefore).Takes I (s.toList ++ gap) s rest := by
  refine token_takes ((text_takes s _).notFollowedBy (satisfy_refuses fun a mem => ?_)) hg h
  simpa using next a mem

theorem operator_refuses {s : String} (h : ¬s.toList <+: rest) (notBefore : List Char) :
    (operator s notBefore).Refuses I rest :=
  ((text_refuses h).notFollowedBy _).seqLeft _

theorem operator_refuses_longer (s : String) {notBefore : List Char} {a : Char}
    (h : a ∈ notBefore) (rest : List Char) :
    (operator s notBefore).Refuses I (s.toList ++ a :: rest) := by
  have next : (satisfy (notBefore.contains ·) : Rule Char).Takes I [a] a rest :=
    satisfy_takes (by simpa using h) rest
  exact ((text_takes s _).notFollowedBy_refuses next).seqLeft _

end Punctuation

section Word

structure IsWord (name : String) : Prop where
  start : ∃ a cs, name.toList = a :: cs ∧ isIdentifierStart a
  parts : ∀ a ∈ name.toList, isIdentifierPart a

theorem isWord_of_keyword {w : String} (listed : w ∈ keywords) : IsWord w := by
  have table : ∀ w ∈ keywords, (∃ a ∈ w.toList.head?, isIdentifierStart a) ∧
      ∀ a ∈ w.toList, isIdentifierPart a := by
    decide
  have ⟨⟨a, head, start⟩, parts⟩ := table w listed
  have ⟨cs, eq⟩ := List.head?_eq_some_iff.mp head
  exact ⟨⟨a, cs, eq, start⟩, parts⟩

structure Identifier (name : String) : Prop where
  start   : ∃ a cs, name.toList = a :: cs ∧ isIdentifierStart a
  parts   : ∀ a ∈ name.toList, isIdentifierPart a
  keyword : name ∉ keywords

theorem Identifier.isWord {name : String} (h : Identifier name) : IsWord name :=
  ⟨h.start, h.parts⟩

instance : DecidablePred Identifier := fun name =>
  decidable_of_iff ((∃ a ∈ name.toList.head?, isIdentifierStart a) ∧
      (∀ a ∈ name.toList, isIdentifierPart a) ∧ name ∉ keywords) <| by
    constructor
    case mp =>
      intro ⟨⟨a, mem, start⟩, parts, keyword⟩
      have ⟨cs, eq⟩ := List.head?_eq_some_iff.mp mem
      exact ⟨⟨a, cs, eq, start⟩, parts, keyword⟩
    case mpr =>
      intro ⟨⟨a, cs, eq, start⟩, parts, keyword⟩
      exact ⟨⟨a, by simp [eq], start⟩, parts, keyword⟩

theorem keyword_takes {w : String} (hg : Gap gap) (h : Significant rest)
    (apart : Apart (gap ++ rest)) : (keyword w).Takes I (w.toList ++ gap) w rest :=
  token_takes ((text_takes w _).notFollowedBy (satisfy_refuses apart)) hg h

theorem keyword_refuses {w : String} (h : ¬w.toList <+: rest) : (keyword w).Refuses I rest :=
  ((text_refuses h).notFollowedBy _).seqLeft _

theorem keyword_refuses_first {w : String} {y : Char} {zs : List Char} (hw : w.toList = y :: zs)
    (other : y ∉ rest.head?) : (keyword w).Refuses I rest :=
  keyword_refuses (not_prefix_of_head hw other)

theorem keyword_refuses_word {w : String} {name : List Char}
    (hw : ∀ a ∈ w.toList, isIdentifierPart a) (hname : ∀ a ∈ name, isIdentifierPart a)
    (other : name ≠ w.toList) (apart : Apart rest) :
    (keyword w).Refuses I (name ++ rest) := by
  by_cases found : w.toList <+: name ++ rest
  case neg => exact keyword_refuses found
  case pos =>
    rcases List.prefix_or_prefix_of_prefix found (List.prefix_append name rest) with h | h
    · obtain ⟨more, rfl⟩ := h
      cases more with
      | nil => simp at other
      | cons a more =>
        rw [List.append_assoc, List.cons_append]
        have next : (satisfy isIdentifierPart : Rule Char).Takes I [a] a (more ++ rest) :=
          satisfy_takes (hname a (by simp)) _
        exact ((text_takes w _).notFollowedBy_refuses next).seqLeft _
    · have ⟨more, eq⟩ := h
      rw [← eq] at found hw
      cases more with
      | nil => simp [← eq] at other
      | cons a more =>
        have ⟨_, eq⟩ := (List.prefix_append_right_inj name).mp found
        have ends := apart a (by simp [← eq])
        rw [hw a (by simp)] at ends
        simp at ends

theorem word_takes {name : String} (h : IsWord name) (apart : Apart rest) :
    word.Takes I name.toList name rest := by
  have ⟨a, cs, eq, start⟩ := h.start
  have parts : ∀ x ∈ cs, isIdentifierPart x := fun x mem => h.parts x (by simp [eq, mem])
  have others : (satisfy isIdentifierPart : Rule Char).many.Takes I cs cs rest :=
    (satisfy_takesAll parts apart).atLeast (Nat.zero_le _)
  have made : (pure (String.ofList (a :: cs)) : Rule String).Takes I [] name rest := by
    rw [← eq, String.ofList_toList]
    exact pure_takes name rest
  rw [eq]
  exact (satisfy_takes start _).bind (others.bind_nil made)

theorem mem_keywords_of_mem_allOf {c : Cursor Scope} {ws : List String} {r : Parsed Scope String}
    (mem : r ∈ (allOf (ws.map text)).parses c) : r.value ∈ ws := by
  induction ws with
  | nil => simp [allOf] at mem
  | cons w ws ih =>
    rw [List.map_cons, allOf, parses_append] at mem
    cases List.mem_append.mp mem with
    | inl mem =>
      rw [parses_text, List.mem_ite_nil_right, List.mem_singleton] at mem
      simp [mem.2]
    | inr mem => exact List.mem_cons_of_mem w (ih mem)

-- A word that is none of the keywords is left by their exclusion.
theorem Identifier.takes {name : String} (h : Identifier name) (apart : Apart rest) :
    (word.except (allOf (keywords.map text))).Takes I name.toList name rest := by
  intro c hc
  rw [parses_except, word_takes h.isWord apart c hc]
  refine List.filter_eq_self.mpr (List.forall_mem_singleton.mpr ?_)
  simp only [Bool.not_eq_true', List.contains_eq_mem, decide_eq_false_iff_not, List.mem_map]
  rintro ⟨r, mem, eq⟩
  exact h.keyword (eq ▸ mem_keywords_of_mem_allOf mem)

theorem identifier_takes {name : String} (h : Identifier name) (hg : Gap gap)
    (significant : Significant rest) (apart : Apart (gap ++ rest)) :
    identifier.Takes I (name.toList ++ gap) name rest :=
  token_takes (h.takes apart) hg significant

theorem identifier_refuses (h : ∀ a ∈ rest.head?, isIdentifierStart a = false) :
    identifier.Refuses I rest := by
  refine Refuses.seqLeft (fun c hc => ?_) _
  have refuses : word.Refuses I rest := (satisfy_refuses h).bind
  rw [parses_except, refuses c hc, List.filter_nil]

theorem memberName_takes {name : String} (h : Identifier name) (hg : Gap gap)
    (significant : Significant rest) (apart : Apart (gap ++ rest)) :
    (symbol "." *> identifier).Takes I ('.' :: (name.toList ++ gap)) name rest := by
  have ⟨a, cs, eq, start⟩ := h.start
  have inside : Significant (name.toList ++ (gap ++ rest)) := by
    rw [eq]
    exact significant_of_start start _
  have point : (symbol ".").Takes I ['.'] "." (name.toList ++ gap ++ rest) := by
    rw [List.append_assoc]
    exact symbol_takes "." .none inside
  exact point.seqRight (identifier_takes h hg significant apart)

end Word

section Items

variable {β : Type} {p : Rule β} {print : α → List Char} {as : List α}

def furtherItems (print : α → List Char) (as : List α) : List Char :=
  as.flatMap fun a => [',', ' '] ++ print a

-- Behind an item stands a comma or what closes the list.
theorem furtherItems_behind {Behind : List Char → Prop} (comma : ∀ text, Behind (',' :: text))
    (closed : Behind rest) (as : List α) : Behind (furtherItems print as ++ rest) := by
  cases as with
  | nil => exact closed
  | cons a as => exact comma _

variable (value : α → β)

theorem furtherItems_takesAll (Behind : List Char → Prop) (comma : ∀ text, Behind (',' :: text))
    (closed : Behind rest) (other : ',' ∉ rest.head?)
    (significant : ∀ a ∈ as, ∀ text, Significant (print a ++ text))
    (h : ∀ a ∈ as, ∀ text, Behind text → p.Takes I (print a) (value a) text) :
    TakesAll I (symbol "," *> p) rest (furtherItems print as) (as.map value) := by
  induction as with
  | nil => exact .nil ((symbol_refuses (not_prefix_of_head (y := ',') rfl other)).seqRight _)
  | cons a as ih =>
    have ⟨first, others⟩ := List.forall_mem_cons.mp h
    have ⟨inside, significant⟩ := List.forall_mem_cons.mp significant
    have separator : (symbol ",").Takes I [',', ' '] ","
        (print a ++ (furtherItems print as ++ rest)) :=
      symbol_takes "," .space (inside _)
    have read := separator.seqRight (first _ (furtherItems_behind comma closed as))
    exact .cons (List.cons_ne_nil _ _) read (ih significant others)

theorem items_take (Behind : List Char → Prop) {a : α} (comma : ∀ text, Behind (',' :: text))
    (closed : Behind rest) (other : ',' ∉ rest.head?)
    (significant : ∀ x ∈ a :: as, ∀ text, Significant (print x ++ text))
    (h : ∀ x ∈ a :: as, ∀ text, Behind text → p.Takes I (print x) (value x) text) :
    (p.separatedBy (symbol ",")).Takes I (print a ++ furtherItems print as) ((a :: as).map value)
      rest := by
  have ⟨first, others⟩ := List.forall_mem_cons.mp h
  have ⟨_, significant⟩ := List.forall_mem_cons.mp significant
  exact TakesAll.separatedBy (first _ (furtherItems_behind comma closed as))
    (furtherItems_takesAll value Behind comma closed other significant others)

end Items

section Read

theorem mem_satisfy {test : Char → Bool} {c : Cursor Scope} {r : Parsed Scope Char} :
    r ∈ (satisfy test).parses c ↔ test r.value ∧ ∃ rest, c.rest = r.value :: rest ∧
      r.tail = c.drop 1 := by
  rw [parses_satisfy]
  cases c.rest with
  | nil => simp
  | cons a rest =>
    cases r
    simp only [List.mem_ite_nil_right, List.mem_singleton, Parsed.mk.injEq, List.cons.injEq]
    grind

theorem prefix_of_reads {test : Char → Bool} {c t : Cursor Scope} {steps : List (Parsed Scope Char)}
    (h : Reads (satisfy test) c steps t) :
    steps.map (·.value) <+: c.rest ∧ ∀ a ∈ steps.map (·.value), test a := by
  induction h with
  | nil => simp
  | @cons c t s steps mem _ ih =>
    have ⟨passes, rest, eq, tail⟩ := mem_satisfy.mp mem
    rw [tail] at ih
    simpa [eq, Cursor.drop, passes] using ih

theorem word_spec {c : Cursor Scope} {r : Parsed Scope String} (mem : r ∈ word.parses c) :
    r.value.toList <+: c.rest ∧ (∃ a cs, r.value.toList = a :: cs ∧ isIdentifierStart a) ∧
      ∀ a ∈ r.value.toList, isIdentifierPart a := by
  rw [word, parses_bind] at mem
  have ⟨s, first, mem⟩ := List.mem_flatMap.mp mem
  rw [parses_bind] at mem
  have ⟨u, others, mem⟩ := List.mem_flatMap.mp mem
  rw [parses_pure, List.mem_singleton] at mem
  have ⟨steps, reads, values⟩ := reads_of_mem_atLeast others
  have ⟨start, behind⟩ := mem_satisfy.mp first
  have part := mem_satisfy.mpr ⟨part_of_start start, behind⟩
  have ⟨found, parts⟩ := prefix_of_reads (.cons part reads)
  have value : r.value.toList = s.value :: u.value := by rw [mem, String.toList_ofList]
  rw [List.map_cons, ← values, ← value] at found parts
  exact ⟨found, ⟨s.value, u.value, value, start⟩, parts⟩

theorem mem_allOf_text {c : Cursor Scope} {ws : List String} {w : String} (listed : w ∈ ws)
    (found : w.toList <+: c.rest) : ∃ r ∈ (allOf (ws.map text)).parses c, r.value = w := by
  induction ws with
  | nil => simp at listed
  | cons w' ws ih =>
    rw [List.map_cons, allOf, parses_append]
    cases listed with
    | head =>
      refine ⟨⟨w, c.drop w.length⟩, List.mem_append_left _ ?_, rfl⟩
      simp [List.isPrefixOf_iff_prefix, found]
    | tail _ listed =>
      obtain ⟨r, mem, eq⟩ := ih listed
      exact ⟨r, List.mem_append_right _ mem, eq⟩

theorem identifier_spec {c : Cursor Scope} {r : Parsed Scope String}
    (mem : r ∈ identifier.parses c) : Identifier r.value ∧ r.value.toList <+: c.rest := by
  rw [identifier, token, parses_seqLeft] at mem
  have ⟨s, mem, behind⟩ := List.mem_flatMap.mp mem
  have ⟨_, _, eq⟩ := List.mem_map.mp behind
  rw [parses_except, List.mem_filter] at mem
  have ⟨found, start, parts⟩ := word_spec mem.1
  rw [← eq]
  refine ⟨⟨start, parts, fun keyword => ?_⟩, found⟩
  have ⟨r', mem', eq⟩ := mem_allOf_text keyword found
  have other := mem.2
  simp only [Bool.not_eq_true', List.contains_eq_mem, decide_eq_false_iff_not,
    List.mem_map] at other
  exact other ⟨r', mem', eq⟩

theorem identifier_refuses_keyword {w : String} (listed : w ∈ keywords) (apart : Apart rest) :
    identifier.Refuses I (w.toList ++ rest) := by
  refine Refuses.seqLeft (fun c hc => ?_) _
  have ⟨r, mem, eq⟩ := mem_allOf_text listed (hc.rest ▸ List.prefix_append w.toList rest)
  rw [parses_except, word_takes (isWord_of_keyword listed) apart c hc, List.filter_eq_nil_iff]
  refine List.forall_mem_singleton.mpr ?_
  simp only [Bool.not_eq_true', List.contains_eq_mem, decide_eq_false_iff_not, not_not, List.mem_map]
  exact ⟨r, mem, eq⟩

end Read

end ExprTree.Grammar
