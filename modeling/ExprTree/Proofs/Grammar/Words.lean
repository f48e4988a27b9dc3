import ExprTree.Proofs.Grammar.Tokens

namespace ExprTree.Grammar

open ExprTree.Parser

variable {I : Scope → Prop} {text : List Char}

theorem isWord_takeWhile (start : ∃ a ∈ text.head?, isIdentifierStart a) :
    IsWord (String.ofList (text.takeWhile isIdentifierPart)) := by
  obtain ⟨a, head, start⟩ := start
  obtain ⟨cs, rfl⟩ := List.head?_eq_some_iff.mp head
  have first := List.takeWhile_cons_of_pos (l := cs) (part_of_start start)
  constructor
  case start => exact ⟨a, cs.takeWhile isIdentifierPart, by rw [String.toList_ofList, first], start⟩
  case parts =>
    rw [String.toList_ofList]
    exact fun b => List.mem_takeWhile_imp

theorem keyword_readsToken {w : String} {rest : List Char} (apart : Apart rest) {c : Cursor Scope}
    (hc : c.At I (w.toList ++ rest)) : ReadsToken (keyword w) c w.toList w rest :=
  token_readsToken ((text_takes w rest).notFollowedBy (satisfy_refuses apart)) hc

theorem keyword_refuses_start {w : String} {rest : List Char} (listed : w ∈ keywords)
    (h : ∀ a ∈ rest.head?, isIdentifierStart a = false) : (keyword w).Refuses I rest := by
  have ⟨y, zs, eq, start⟩ := (isWord_of_keyword listed).start
  refine keyword_refuses_first eq fun head => ?_
  simp [h y head] at start

-- Where a word can start, the longest run of identifier characters is read with what is skipped
-- behind it: as an identifier and as no keyword, or, if it is one of the keywords, as that one only
-- and as no identifier. Where no word can start there is neither.
theorem words_partition {c : Cursor Scope} (valid : c.Valid) :
    let letters := c.rest.takeWhile isIdentifierPart
    let name := String.ofList letters
    let behind := c.rest.dropWhile isIdentifierPart
    ((∃ a ∈ c.rest.head?, isIdentifierStart a) →
      (name ∉ keywords →
        ReadsToken identifier c letters name behind ∧ ∀ w ∈ keywords, (keyword w).parses c = []) ∧
      (name ∈ keywords →
        identifier.parses c = [] ∧ ReadsToken (keyword name) c letters name behind ∧
          ∀ w ∈ keywords, w ≠ name → (keyword w).parses c = [])) ∧
    ((∀ a ∈ c.rest.head?, isIdentifierStart a = false) →
      identifier.parses c = [] ∧ ∀ w ∈ keywords, (keyword w).parses c = []) := by
  intro letters name behind
  have toList : name.toList = letters := String.toList_ofList
  have apart : Apart behind := fails_of_head?_dropWhile
  have here : c.At (fun _ => True) (name.toList ++ behind) :=
    ⟨valid, trivial, by rw [toList, List.takeWhile_append_dropWhile]⟩
  rw [← toList]
  refine ⟨fun start => ?_, fun none => ?_⟩
  · have isWord : IsWord name := isWord_takeWhile start
    have others : ∀ w ∈ keywords, w ≠ name → (keyword w).parses c = [] := by
      intro w listed other
      have differ : name.toList ≠ w.toList := fun eq => other (String.toList_injective eq.symm)
      exact keyword_refuses_word (isWord_of_keyword listed).parts isWord.parts differ apart c here
    refine ⟨fun free => ⟨?_, fun w listed => ?_⟩, fun reserved => ⟨?_, ?_, others⟩⟩
    · have identifier : Identifier name := ⟨isWord.start, isWord.parts, free⟩
      exact token_readsToken (identifier.takes apart) here
    · exact others w listed fun eq => free (eq ▸ listed)
    · exact identifier_refuses_keyword reserved apart c here
    · exact keyword_readsToken apart here
  · have text : c.At (fun _ => True) c.rest := ⟨valid, trivial, rfl⟩
    exact ⟨identifier_refuses none c text, fun w listed => keyword_refuses_start listed none c text⟩

theorem words_partition_int :
    let s := Scope.new Registry.system.resolve .standard
    (identifier.parses (.start "int x" s) = [] ∧
        ReadsToken (keyword "int") (.start "int x" s) "int".toList "int" " x".toList ∧
        (keyword "uint").parses (.start "int x" s) = []) ∧
      (ReadsToken identifier (.start "integer/**/" s) "integer".toList "integer" "/**/".toList ∧
        (keyword "int").parses (.start "integer/**/" s) = []) ∧
      identifier.parses (.start "1int" s) = [] := by
  intro s
  have here := (words_partition (Cursor.start_valid "int x" s)).1
    (by decide : ∃ a ∈ "int x".toList.head?, isIdentifierStart a)
  have longer := (words_partition (Cursor.start_valid "integer/**/" s)).1
    (by decide : ∃ a ∈ "integer/**/".toList.head?, isIdentifierStart a)
  have outside := (words_partition (Cursor.start_valid "1int" s)).2
  have cut : "int x".toList.takeWhile isIdentifierPart = "int".toList ∧
      "int x".toList.dropWhile isIdentifierPart = " x".toList := by
    decide
  have cut' : "integer/**/".toList.takeWhile isIdentifierPart = "integer".toList ∧
      "integer/**/".toList.dropWhile isIdentifierPart = "/**/".toList := by
    decide
  have digit : isIdentifierStart '1' = false := by decide
  simp only [Cursor.start, cut, cut', String.ofList_toList] at here longer
  obtain ⟨refused, read, others⟩ := here.2 (by decide)
  obtain ⟨read', others'⟩ := longer.1 (by decide)
  exact ⟨⟨refused, read, others "uint" (by decide) (by decide)⟩,
    ⟨read', others' "int" (by decide)⟩, (outside (by simp [Cursor.start, digit])).1⟩

end ExprTree.Grammar
