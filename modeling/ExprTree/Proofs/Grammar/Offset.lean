import ExprTree.Builder.Standard
import ExprTree.Proofs.Grammar.Congruence

namespace ExprTree

open ExprTree.Parser

structure Cursor.Shifted (_ : Bool) (c c' : Cursor Scope) : Prop where
  valid : c.Valid ∧ c'.Valid
  rest  : c.rest = c'.rest
  state : c.state = c'.state

namespace Grammar

open Cursor (Shifted)

theorem shifted_lockstep : Lockstep Shifted where
  valid := Shifted.valid
  rest := Shifted.rest
  drop h n := ⟨⟨h.valid.1.drop n, h.valid.2.drop n⟩, congrArg (List.drop n) h.rest, h.state⟩
  resolver h := congrArg Scope.resolver h.state
  builder h := congrArg Scope.builder h.state
  lookup h name _ _ := congrArg (·.lookup name) h.state
  expected h _ := congrArg Scope.expected h.state
  expecting h expected := ⟨h.valid, h.rest, congrArg (·.withExpected expected) h.state⟩
  enterBlock h := ⟨h.valid, h.rest, congrArg Scope.enterBlock h.state⟩
  declare {c c'} h v := by
    rw [h.state]
    cases c'.state.declare v with
    | none => exact .none
    | some s => exact .some ⟨h.valid, h.rest, rfl⟩
  declared h := congrArg Scope.declared h.state
  restore h ht := ⟨ht.valid, ht.rest, h.state⟩

section Trivia

variable {I : Scope → Prop} {a : Char} {body w rest : List Char}

inductive Trivia : List Char → Prop
  | nil : Trivia []
  | blank {a : Char} {w : List Char} (blank : Text.isBlank a) (others : Trivia w) : Trivia (a :: w)
  | line {body w : List Char} {e : Char} (inside : ∀ a ∈ body, isLineTerminator a = false)
      (ends : isLineTerminator e) (others : Trivia w) : Trivia ("//".toList ++ body ++ e :: w)
  | block {body w : List Char} (inside : ¬"*/".toList <:+: body) (others : Trivia w) :
      Trivia ("/*".toList ++ body ++ "*/".toList ++ w)

theorem blank_of_lineTerminator (h : isLineTerminator a) : Text.isBlank a := by
  simp only [isLineTerminator, Bool.or_eq_true, beq_iff_eq] at h
  rcases h with (((rfl | rfl) | rfl) | rfl) | rfl <;> decide

theorem Trivia.skips (h : Trivia w) : Skips rest w := by
  induction h with
  | nil => exact .nil
  | blank blank _ ih => exact .blank blank ih
  | line inside ends _ ih =>
    exact .line inside (by rintro _ ⟨⟩; exact ends) (.blank (blank_of_lineTerminator ends) ih)
  | block inside _ ih => exact .block inside ih

structure Leading (c c' : Cursor Scope) : Prop where
  valid  : c.Valid ∧ c'.Valid
  trivia : ∃ w, Trivia w ∧ c.rest = w ++ c'.rest
  state  : c.state = c'.state

theorem whitespace_agrees_leading : whitespace.Agrees whitespace Leading (Shifted false) := by
  intro c c' ⟨⟨valid, valid'⟩, ⟨w, trivia, rest⟩, state⟩
  have start : c.At (fun _ => True) (w ++ c'.rest) := ⟨valid, trivial, rest⟩
  rw [parses_whitespace_of_skips trivia.skips start]
  exact whitespace_respects shifted_lockstep false _ _ ⟨⟨valid.drop _, valid'⟩, start.drop.rest, state⟩

end Trivia

end Grammar

-- A text behind blanks and comments comes to the outcome of the text.
theorem parse_eq_behind_trivia {w : String} (trivia : Grammar.Trivia w.toList) (text : String)
    (s : Scope) :
    parseExpression (w ++ text) s = parseExpression text s ∧
      parseStatement (w ++ text) s = parseStatement text s := by
  have start : Grammar.Leading (.start (w ++ text) s) (.start text s) :=
    ⟨⟨Cursor.start_valid _ s, Cursor.start_valid _ s⟩, ⟨w.toList, trivia, String.toList_append⟩, rfl⟩
  have leading := Grammar.whitespace_agrees_leading
  exact ⟨(Grammar.expressionUnit_agrees Grammar.shifted_lockstep leading).outcome start,
    (Grammar.statementUnit_agrees Grammar.shifted_lockstep leading).outcome start⟩

theorem parse_eq_behind_trivia_comments :
    let s := Scope.new Registry.system.resolve .standard
    let w := "\t/***/// a */\n"
    Grammar.Trivia w.toList ∧ (parseExpression "1 + 2" s).isOk ∧
      parseExpression (w ++ "1 + 2") s = parseExpression "1 + 2" s ∧
      parseStatement (w ++ "1 + 2;") s = parseStatement "1 + 2;" s := by
  intro s w
  have pieces : w.toList = '\t' :: ("/*".toList ++ ['*'] ++ "*/".toList ++
      ("//".toList ++ " a */".toList ++ ['\n'])) := by
    decide
  have trivia : Grammar.Trivia w.toList := by
    rw [pieces]
    exact .blank (by decide) (.block (by decide) (.line (by decide) (by decide) .nil))
  exact ⟨trivia, by decide +kernel, (parse_eq_behind_trivia trivia "1 + 2" s).1,
    (parse_eq_behind_trivia trivia "1 + 2;" s).2⟩

end ExprTree
