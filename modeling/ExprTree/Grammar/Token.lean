import ExprTree.Parser.Repetition
import ExprTree.Scope
import ExprTree.Text.Alphabetic
import ExprTree.Text.Blank
import ExprTree.Text.Numeric

namespace ExprTree.Grammar

open ExprTree.Parser

abbrev Rule (α : Type) := Parser Scope α

def keywords : List String :=
  ["bool", "byte", "sbyte", "char", "short", "ushort", "int", "uint", "long", "ulong", "float",
   "double", "decimal", "string", "object", "void", "default", "false", "true", "new", "null",
   "typeof"]

def isIdentifierStart (c : Char) : Bool :=
  Text.isAlphabetic c || c == '_'

def isIdentifierPart (c : Char) : Bool :=
  Text.isAlphabetic c || Text.isNumeric c || c == '_'

def isLineTerminator (c : Char) : Bool :=
  c == '\n' || c == '\r' || c == '\u0085' || c == '\u2028' || c == '\u2029'

def skipMany {α : Type} (p : Rule α) : Rule Unit :=
  p.manyFold () fun _ _ => ()

def blank : Rule Unit :=
  (fun _ => ()) <$> satisfy Text.isBlank

def lineComment : Rule Unit :=
  text "//" *> skipMany (satisfy fun c => !isLineTerminator c)

def blockComment : Rule Unit :=
  let inner : Rule Char := (pure () : Rule Unit).notFollowedBy (text "*/") *> anyChar
  text "/*" *> skipMany inner <* text "*/"

def whitespace : Rule Unit :=
  skipMany (blank <|> lineComment <|> blockComment)

-- There is no separate lexer: a token takes the blanks and comments behind it along.
def token {α : Type} (p : Rule α) : Rule α :=
  p <* whitespace

def symbol (s : String) : Rule String :=
  token (text s)

-- An operator that is not the start of a longer one, which some next characters would make it.
def operator (s : String) (notBefore : List Char) : Rule String :=
  token ((text s).notFollowedBy (satisfy (notBefore.contains ·)))

def keyword (word : String) : Rule String :=
  token ((text word).notFollowedBy (satisfy isIdentifierPart))

def word : Rule String := do
  let c ← satisfy isIdentifierStart
  let cs ← (satisfy isIdentifierPart).many
  return String.ofList (c :: cs)

def identifier : Rule String :=
  token (word.except (allOf (keywords.map text)))

end ExprTree.Grammar
