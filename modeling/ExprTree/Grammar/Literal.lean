import ExprTree.Grammar.Number

namespace ExprTree.Grammar

open ExprTree.Parser

def boolean : Rule Literal :=
  ((fun _ => .bool true) <$> keyword "true") <|> ((fun _ => .bool false) <$> keyword "false")

def null : Rule Literal :=
  (fun _ => .null) <$> keyword "null"

def scalar? (n : Nat) : Option Char :=
  if n.isValidChar then some (Char.ofNat n) else none

def codePoint (min max : Nat) : Rule Char :=
  let digits : Rule (List Char) :=
    (satisfy Text.isHexDigit).repeated min (some max) [] fun ds d => some (d :: ds)
  digits.filterMap fun ds => scalar? (Text.numeral 16 ds.reverse)

def simpleEscape? : Char → Option Char
  | '\x27' => some '\x27'
  | '\x22' => some '\x22'
  | '\\' => some '\\'
  | '0' => some '\x00'
  | 'a' => some '\x07'
  | 'b' => some '\x08'
  | 'f' => some '\x0c'
  | 'n' => some '\n'
  | 'r' => some '\r'
  | 't' => some '\t'
  | 'v' => some '\x0b'
  | _ => none

def escapeSequence : Rule Char :=
  character '\\' *> oneOf [
    anyChar.filterMap simpleEscape?,
    character 'x' *> codePoint 1 4,
    character 'u' *> codePoint 4 4,
    character 'U' *> codePoint 8 8]

def plainCharacter (quote : Char) : Rule Char :=
  satisfy fun c => c != quote && c != '\\' && !isLineTerminator c

def characterLiteral : Rule Literal :=
  let quote : Rule Char := character '\x27'
  .char <$> token (between quote (escapeSequence <|> plainCharacter '\x27') quote)

def regularString : Rule String :=
  let quote : Rule Char := character '\x22'
  String.ofList <$> between quote (escapeSequence <|> plainCharacter '\x22').many quote

-- Inside a verbatim string only the quote is special, and it is written twice.
def verbatimString : Rule String :=
  let doubled : Rule Char := (fun _ => '\x22') <$> text "\"\""
  let plain : Rule Char := satisfy (· != '\x22')
  String.ofList <$> between (text "@\"") (doubled <|> plain).many (character '\x22')

def stringLiteral : Rule Literal :=
  .string <$> token (regularString <|> verbatimString)

def literal : Rule Literal :=
  oneOf [boolean, null, real, integer, characterLiteral, stringLiteral]

end ExprTree.Grammar
