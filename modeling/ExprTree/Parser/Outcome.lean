import ExprTree.Parser.Basic

namespace ExprTree

universe u v

inductive ParseError where
  | noMatch
  | ambiguous
deriving DecidableEq, Repr

def ParseError.message : ParseError → String
  | noMatch => "the input does not match the grammar"
  | ambiguous => "the input matches the grammar in more than one way"

namespace Parser

variable {σ : Type u} {α : Type v}

-- The only parse of a text. The tail may stand anywhere in it; a caller that wants all of the
-- text to be read ends the parser with `endOfInput`.
def parse (p : Parser σ α) (text : String) (state : σ) : Except ParseError (Parsed σ α) :=
  match p.run (.start text state) with
  | .nil => .error .noMatch
  | .cons r others =>
    match others () with
    | .nil => .ok r
    | .cons _ _ => .error .ambiguous

theorem parse_eq (p : Parser σ α) (text : String) (state : σ) :
    p.parse text state =
      match p.parses (.start text state) with
      | [] => .error .noMatch
      | [r] => .ok r
      | _ :: _ :: _ => .error .ambiguous := by
  simp only [parse, parses]
  cases p.run (.start text state) with
  | nil => rfl
  | cons r others => cases h : others () <;> simp [h]

end Parser

end ExprTree
