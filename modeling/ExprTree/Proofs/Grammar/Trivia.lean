import Mathlib.Data.List.TakeWhile
import ExprTree.Builder.Standard
import ExprTree.Grammar.Token
import ExprTree.Proofs.Parser.Halts

namespace ExprTree.Grammar

open ExprTree.Parser

variable {I : Scope → Prop} {α : Type} {a : Char} {body t w rest : List Char}

-- Blanks and complete comments in front of a text. A comment runs up to the end of its line, which
-- it leaves, or of the input, or else up to where it can first be closed.
inductive Skips (rest : List Char) : List Char → Prop
  | nil : Skips rest []
  | blank {a : Char} {w : List Char} (blank : Text.isBlank a) (others : Skips rest w) :
      Skips rest (a :: w)
  | line {body w : List Char} (inside : ∀ a ∈ body, isLineTerminator a = false)
      (ends : ∀ a ∈ (w ++ rest).head?, isLineTerminator a) (others : Skips rest w) :
      Skips rest ("//".toList ++ body ++ w)
  | block {body w : List Char} (inside : ¬"*/".toList <:+: body) (others : Skips rest w) :
      Skips rest ("/*".toList ++ body ++ "*/".toList ++ w)

structure Bare (text : List Char) : Prop where
  blank : ∀ a ∈ text.head?, Text.isBlank a = false
  line  : ¬"//".toList <+: text
  block : ∀ body, text = "/*".toList ++ body → ¬"*/".toList <:+: body

theorem bare_nil : Bare [] where
  blank := nofun
  line  := by simp
  block := by simp

section Pieces

theorem blank_refuses_slash : blank.Refuses I ('/' :: rest) := by
  refine (satisfy_refuses ?_).map _
  rintro _ ⟨⟩
  decide

theorem blank_takes (h : Text.isBlank a) : blank.Takes I [a] () rest :=
  (satisfy_takes h rest).map _

theorem lineComment_takes (inside : ∀ a ∈ body, isLineTerminator a = false)
    (ends : ∀ a ∈ rest.head?, isLineTerminator a) :
    lineComment.Takes I ("//".toList ++ body) () rest := by
  have characters : TakesAll I (satisfy fun c => !isLineTerminator c) rest body body :=
    satisfy_takesAll (by simpa using inside) (by simpa using ends)
  exact (text_takes "//" _).seqRight (characters.manyFold ())

abbrev commentCharacter : Rule Char :=
  (pure () : Rule Unit).notFollowedBy (text "*/") *> anyChar

theorem commentCharacter_takes (h : ¬"*/".toList <+: a :: rest) :
    commentCharacter.Takes I [a] a rest := by
  have nothing : (pure () : Rule Unit).Takes I [] () ([a] ++ rest) := pure_takes () _
  exact (nothing.notFollowedBy (text_refuses h)).seqRight (satisfy_takes rfl rest)

theorem commentCharacter_refuses_closing :
    commentCharacter.Refuses I ("*/".toList ++ rest) := by
  have nothing : (pure () : Rule Unit).Takes I [] () ("*/".toList ++ rest) := pure_takes () _
  exact (nothing.notFollowedBy_refuses (text_takes "*/" rest)).seqRight _

theorem commentCharacter_refuses_nil : commentCharacter.Refuses I [] := by
  have nothing : (pure () : Rule Unit).Takes I [] () [] := pure_takes () _
  have closing : (text "*/" : Rule String).Refuses I [] := text_refuses (by simp)
  have character : (anyChar : Rule Char).Refuses I [] := satisfy_refuses nofun
  exact (nothing.notFollowedBy closing).seqRight_refuses character

-- The characters of a comment up to where it cannot go on, if it cannot be closed before.
theorem comment_takesAll (stop : commentCharacter.Refuses I rest)
    (inside : ∀ t, t ≠ [] → t <:+ body → ¬"*/".toList <+: t ++ rest) :
    TakesAll I commentCharacter rest body body := by
  induction body with
  | nil => exact .nil stop
  | cons a body ih =>
    have first := commentCharacter_takes (I := I)
      (inside (a :: body) (List.cons_ne_nil _ _) (List.suffix_refl _))
    exact .cons (List.cons_ne_nil a []) first
      (ih fun t some suffix => inside t some (suffix.trans (List.suffix_cons a body)))

theorem not_closing_of_suffix (inside : ¬"*/".toList <:+: body) (some : t ≠ [])
    (suffix : t <:+ body) : ¬"*/".toList <+: t ++ ("*/".toList ++ rest) := by
  intro ⟨more, eq⟩
  match t with
  | [] => exact some rfl
  | [a] => simp at eq
  | a :: b :: t =>
    have ⟨first, second, _⟩ : '*' = a ∧ '/' = b ∧ more = t ++ ("*/".toList ++ rest) := by
      simpa using eq
    have found : "*/".toList <+: a :: b :: t := ⟨t, by simp [← first, ← second]⟩
    exact inside (found.isInfix.trans suffix.isInfix)

theorem blockComment_takes (inside : ¬"*/".toList <:+: body) :
    blockComment.Takes I ("/*".toList ++ body ++ "*/".toList) () rest := by
  have characters : TakesAll I commentCharacter ("*/".toList ++ rest) body body :=
    comment_takesAll commentCharacter_refuses_closing fun _ => not_closing_of_suffix inside
  exact ((text_takes "/*" _).seqRight (characters.manyFold ())).seqLeft (text_takes "*/" rest)

theorem blockComment_refuses_open (inside : ¬"*/".toList <:+: body) :
    blockComment.Refuses I ("/*".toList ++ body) := by
  have characters : TakesAll I commentCharacter [] body body := by
    refine comment_takesAll commentCharacter_refuses_nil fun t _ suffix found => inside ?_
    rw [List.append_nil] at found
    exact found.isInfix.trans suffix.isInfix
  have closing : (text "*/" : Rule String).Refuses I [] := text_refuses (by simp)
  have opened : (text "/*" *> skipMany commentCharacter).Takes I ("/*".toList ++ body) () [] :=
    (text_takes "/*" _).seqRight (characters.manyFold ())
  have refuses := opened.halts.seqLeft_refuses closing
  rwa [List.append_nil] at refuses

end Pieces

section Whitespace

theorem bare_refuses (h : Bare rest) : (blank <|> lineComment <|> blockComment).Refuses I rest := by
  have blank : blank.Refuses I rest := (satisfy_refuses h.blank).map _
  have line : lineComment.Refuses I rest := (text_refuses h.line).seqRight _
  have block : blockComment.Refuses I rest := by
    by_cases opened : "/*".toList <+: rest
    case pos =>
      obtain ⟨body, rfl⟩ := opened
      exact blockComment_refuses_open (h.block body rfl)
    case neg => exact ((text_refuses opened).seqRight _).seqLeft _
  exact blank.orElse (line.orElse block)

theorem parses_whitespace_of_skips (h : Skips rest w) {c : Cursor Scope}
    (hc : c.At I (w ++ rest)) : whitespace.parses c = whitespace.parses (c.drop w.length) := by
  have piece {t behind : List Char} {c : Cursor Scope} (hc : c.At I (t ++ behind))
      (takes : (blank <|> lineComment <|> blockComment).Takes I t () behind) (some : t ≠ []) :
      whitespace.parses c = whitespace.parses (c.drop t.length) :=
    takes.parses_manyFold some () hc
  induction h generalizing c with
  | nil => simp
  | @blank a w blank _ ih =>
    have hc : c.At I ([a] ++ (w ++ rest)) := hc
    rw [piece hc ((blank_takes blank).orElse_left _) (List.cons_ne_nil _ _), ih hc.drop]
    simp [Nat.add_comm]
  | @line body w inside ends _ ih =>
    have hc : c.At I ("//".toList ++ body ++ (w ++ rest)) := by simpa using hc
    have takes := blank_refuses_slash.orElse_takes
      ((lineComment_takes (I := I) inside ends).orElse_left blockComment)
    rw [piece hc takes (by simp), ih hc.drop]
    simp [Nat.add_comm, Nat.add_left_comm, Nat.add_assoc]
  | @block body w inside _ ih =>
    have hc : c.At I ("/*".toList ++ body ++ "*/".toList ++ (w ++ rest)) := by simpa using hc
    have line : lineComment.Refuses I ("/*".toList ++ body ++ "*/".toList ++ (w ++ rest)) :=
      (text_refuses (by simp)).seqRight _
    have takes := blank_refuses_slash.orElse_takes
      (line.orElse_takes (blockComment_takes inside))
    rw [piece hc takes (by simp), ih hc.drop]
    simp [Nat.add_comm, Nat.add_left_comm]

theorem whitespace_takes_skips (h : Skips rest w) (bare : Bare rest) :
    whitespace.Takes I w () rest := by
  intro c hc
  rw [parses_whitespace_of_skips h hc]
  exact Repetition.yields_of_refuses rfl (bare_refuses bare) hc.drop (Nat.zero_le 0)

theorem token_takes_skips {p : Rule α} {x : α} (read : p.Takes I t x (w ++ rest))
    (h : Skips rest w) (bare : Bare rest) : (token p).Takes I (t ++ w) x rest :=
  read.seqLeft (whitespace_takes_skips h bare)

theorem token_takes_end {p : Rule α} {x : α} (read : p.Takes I t x []) :
    (token p).Takes I t x [] := by
  have takes : (token p).Takes I (t ++ []) x [] := token_takes_skips read .nil bare_nil
  rwa [List.append_nil] at takes

end Whitespace

section Split

theorem fails_of_head?_dropWhile {test : Char → Bool} :
    ∀ a ∈ (t.dropWhile test).head?, test a = false := by
  intro a head
  have stop := List.head?_dropWhile_not test t
  rwa [Option.mem_def.mp head] at stop

theorem exists_first_closing (h : "*/".toList <:+: t) :
    ∃ body rest, t = body ++ "*/".toList ++ rest ∧ ¬"*/".toList <:+: body := by
  induction t with
  | nil => simp at h
  | cons a t ih =>
    by_cases here : "*/".toList <+: a :: t
    case pos =>
      have ⟨rest, eq⟩ := here
      exact ⟨[], rest, eq.symm, by simp⟩
    case neg =>
      have ⟨body, rest, eq, inside⟩ := ih ((List.infix_cons_iff.mp h).resolve_left here)
      refine ⟨a :: body, rest, by simp [eq], fun found => ?_⟩
      refine (List.infix_cons_iff.mp found).elim (fun found => here ?_) inside
      rw [eq]
      exact found.trans ⟨"*/".toList ++ rest, by simp⟩

theorem bare_or_piece (text : List Char) :
    Bare text ∨ (∃ a t, text = a :: t ∧ Text.isBlank a) ∨ (∃ t, text = "//".toList ++ t) ∨
      ∃ t, text = "/*".toList ++ t ∧ "*/".toList <:+: t := by
  by_cases blank : ∃ a t, text = a :: t ∧ Text.isBlank a
  case pos => exact .inr (.inl blank)
  case neg =>
    by_cases line : "//".toList <+: text
    case pos => exact .inr (.inr (.inl (line.imp fun _ => Eq.symm)))
    case neg =>
      by_cases block : ∃ t, text = "/*".toList ++ t ∧ "*/".toList <:+: t
      case pos => exact .inr (.inr (.inr block))
      case neg =>
        refine .inl ⟨fun a head => ?_, line, fun t eq closed => block ⟨t, eq, closed⟩⟩
        have ⟨t, eq⟩ := List.head?_eq_some_iff.mp head
        exact Bool.eq_false_iff.mpr fun h => blank ⟨a, t, eq, h⟩

theorem exists_skips (text : List Char) :
    ∃ w rest, text = w ++ rest ∧ Skips rest w ∧ Bare rest := by
  -- A comment takes more than one character off, so the induction is on the length.
  induction size : text.length using Nat.strongRecOn generalizing text with
  | ind n ih =>
    rcases bare_or_piece text with bare | ⟨a, t, rfl, blank⟩ | ⟨t, rfl⟩ | ⟨t, rfl, closed⟩
    · exact ⟨[], text, rfl, .nil, bare⟩
    · have ⟨w, rest, eq, skips, bare⟩ := ih t.length (by simp [← size]) t rfl
      exact ⟨a :: w, rest, by rw [eq, List.cons_append], .blank blank skips, bare⟩
    · let inside := (!isLineTerminator ·)
      have shorter := (List.dropWhile_suffix (p := inside) (l := t)).length_le
      have ⟨w, rest, eq, skips, bare⟩ := ih (t.dropWhile inside).length
        (by simp [← size]; omega) _ rfl
      have ends : ∀ a ∈ (w ++ rest).head?, isLineTerminator a := by
        intro a head
        rw [← eq] at head
        simpa [inside] using fails_of_head?_dropWhile a head
      have line : Skips rest ("//".toList ++ t.takeWhile inside ++ w) :=
        .line (fun a mem => by simpa [inside] using List.mem_takeWhile_imp mem) ends skips
      refine ⟨_, rest, ?_, line, bare⟩
      rw [List.append_assoc, List.append_assoc, ← eq, List.takeWhile_append_dropWhile]
    · obtain ⟨body, behind, rfl, inside⟩ := exists_first_closing closed
      have ⟨w, rest, eq, skips, bare⟩ := ih behind.length (by simp [← size]; omega) behind rfl
      exact ⟨_, rest, by rw [eq]; simp, .block inside skips, bare⟩

def ReadsToken (p : Rule α) (c : Cursor Scope) (t : List Char) (x : α) (behind : List Char) :
    Prop :=
  ∃ w rest, behind = w ++ rest ∧ Skips rest w ∧ Bare rest ∧
    p.parses c = [⟨x, c.drop (t ++ w).length⟩]

theorem token_readsToken {p : Rule α} {x : α} (read : p.Takes I t x rest) {c : Cursor Scope}
    (hc : c.At I (t ++ rest)) : ReadsToken (token p) c t x rest := by
  obtain ⟨w, behind, rfl, skips, bare⟩ := exists_skips rest
  refine ⟨w, behind, rfl, skips, bare, token_takes_skips read skips bare c ?_⟩
  rwa [List.append_assoc]

theorem ReadsToken.map {β : Type} {p : Rule α} {c : Cursor Scope} {x : α}
    (h : ReadsToken p c t x rest) (f : α → β) : ReadsToken (f <$> p) c t (f x) rest := by
  have ⟨w, behind, eq, skips, bare, parses⟩ := h
  exact ⟨w, behind, eq, skips, bare, by rw [parses_map, parses, List.map_singleton]⟩

theorem Skips.isPrefix {w' rest' : List Char} (h : Skips rest w) (h' : Skips rest' w')
    (bare : Bare rest') (text : w ++ rest = w' ++ rest') {c : Cursor Scope}
    (hc : c.At I (w ++ rest)) : w <+: w' := by
  obtain ⟨more, behind, rfl, others, bare'⟩ := exists_skips rest
  have whole := whitespace_takes_skips h' bare c (text ▸ hc)
  rw [parses_whitespace_of_skips h hc, whitespace_takes_skips others bare' _ hc.drop,
    Cursor.drop_drop] at whole
  have tail : c.drop (w.length + more.length) = c.drop w'.length := by simpa using whole
  have ends : behind = rest' := by
    calc behind
      _ = c.rest.drop (w.length + more.length) := by
        rw [hc.rest, ← List.drop_drop, List.drop_left, List.drop_left]
      _ = c.rest.drop w'.length := congrArg Cursor.rest tail
      _ = rest' := by rw [hc.rest, text, List.drop_left]
  rw [ends, ← List.append_assoc] at text
  exact ⟨more, List.append_cancel_right text⟩

-- Of every text, blanks and complete comments are skipped in one way, up to where there is nothing
-- to skip. So they are skipped at once, and no more than is skipped can be read as white space.
theorem whitespace_maximal {c : Cursor Scope} (valid : c.Valid) :
    ∃ w rest, c.rest = w ++ rest ∧ Skips rest w ∧ Bare rest ∧
      whitespace.parses c = [⟨(), c.drop w.length⟩] ∧
      whitespace.parses (c.drop w.length) = [⟨(), c.drop w.length⟩] ∧
      ∀ w' rest', c.rest = w' ++ rest' → Skips rest' w' → w' <+: w := by
  have ⟨w, rest, text, skips, bare⟩ := exists_skips c.rest
  have here : c.At (fun _ => True) (w ++ rest) := ⟨valid, trivial, text⟩
  refine ⟨w, rest, text, skips, bare, whitespace_takes_skips skips bare c here, ?_, ?_⟩
  · have nothing := whitespace_takes_skips .nil bare (c.drop w.length) here.drop
    rwa [List.length_nil, Cursor.drop_zero] at nothing
  · intro w' rest' text' skips'
    have there : c.At (fun _ => True) (w' ++ rest') := ⟨valid, trivial, text'⟩
    exact skips'.isPrefix skips bare (text'.symm.trans text) there

theorem whitespace_maximal_unclosed :
    let c := Cursor.start " /*/ // */// /*\n/*/ x" (Scope.new Registry.system.resolve .standard)
    whitespace.parses c = [⟨(), c.drop 16⟩] ∧
      whitespace.parses (c.drop 16) = [⟨(), c.drop 16⟩] := by
  intro c
  have newline : Skips "/*/ x".toList ['\n'] := .blank (by decide) .nil
  have line : Skips "/*/ x".toList ("//".toList ++ " /*".toList ++ ['\n']) :=
    .line (by simp [isLineTerminator]) (by simp [isLineTerminator]) newline
  have block : Skips "/*/ x".toList ("/*".toList ++ "/ // ".toList ++ "*/".toList ++ _) :=
    .block (by decide) line
  have skipped : Skips "/*/ x".toList (' ' :: _) := .blank (by decide) block
  have bare : Bare "/*/ x".toList := by
    have slash : Text.isBlank '/' = false := by decide
    refine ⟨by simp [slash], by decide, fun body eq => ?_⟩
    have inside : "/ x".toList = body := List.append_cancel_left (show "/*".toList ++ _ = _ from eq)
    rw [← inside]
    decide
  have ⟨w, rest, text, skips, stop, once, again, most⟩ := whitespace_maximal
    (Cursor.start_valid " /*/ // */// /*\n/*/ x" (Scope.new Registry.system.resolve .standard))
  have least := most _ _ rfl skipped
  have here : c.At (fun _ => True) (w ++ rest) := ⟨Cursor.start_valid _ _, trivial, text⟩
  have greatest := skips.isPrefix skipped bare text.symm here
  have eq := greatest.eq_of_length_le least.length_le
  rw [eq] at once again
  exact ⟨once, again⟩

end Split

end ExprTree.Grammar
