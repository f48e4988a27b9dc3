import ExprTree.Text.Combining
import ExprTree.Text.Unprintable

namespace ExprTree.Text

-- Which of the characters that could be written as they are get escaped.
structure Escaping where
  singleQuote : Bool
  combining   : Bool

def Escaping.leading : Escaping := ⟨true, true⟩

def Escaping.following : Escaping := ⟨true, false⟩

def Escaping.plain : Escaping := ⟨false, true⟩

def codePoint (c : Char) : String :=
  "\\u\x7b" ++ String.ofList (Nat.toDigits 16 c.toNat) ++ "\x7d"

def escape (e : Escaping) (c : Char) : String :=
  if c = '\x00' then "\\0"
  else if c = '\t' then "\\t"
  else if c = '\r' then "\\r"
  else if c = '\n' then "\\n"
  else if c = '\\' then "\\\\"
  else if c = '\x22' then "\\\""
  else if c = '\x27' && e.singleQuote then "\\'"
  else if e.combining && isCombining c then codePoint c
  else if isUnprintable c then codePoint c
  else c.toString

def escapeAll (e : Escaping) (cs : List Char) : String :=
  String.join (cs.map (escape e))

def quotedChar (c : Char) : String :=
  "'" ++ escape .leading c ++ "'"

def quotedString (s : String) : String :=
  match s.toList with
  | [] => "\"\""
  | c :: cs => "\"" ++ escape .leading c ++ escapeAll .following cs ++ "\""

def plainString (s : String) : String :=
  "\"" ++ escapeAll .plain s.toList ++ "\""

end ExprTree.Text
