import Landscape.Source.Span

/-!
Tokens: the words and marks that a document is made of.
-/

namespace Landscape

/-- The direction of an arrow between two contexts. -/
inductive Arrow
  | right
  | left
  | both
deriving Repr, DecidableEq

namespace Arrow

def text : Arrow → String
  | right => "->"
  | left => "<-"
  | both => "<->"

end Arrow

/-- A word or mark. Declaration keywords are names like any other; the grammar tells them apart by
their text. A string holds its text with the escapes resolved. -/
inductive Token
  | openBrace
  | closeBrace
  | openBracket
  | closeBracket
  | comma
  | equals
  | colon
  | arrow (arrow : Arrow)
  | relation (keyword : String)
  | name (text : String)
  | string (text : String)
  | number (digits : String)
  | symbol (char : Char)
deriving Repr, DecidableEq

namespace Token

/-- A token as it is shown. A string is put between quotes, without escapes. -/
def render : Token → String
  | openBrace => "\x7b"
  | closeBrace => "\x7d"
  | openBracket => "["
  | closeBracket => "]"
  | comma => ","
  | equals => "="
  | colon => ":"
  | arrow a => a.text
  | relation keyword => keyword
  | name text => text
  | string text => "\"" ++ text ++ "\""
  | number digits => digits
  | symbol c => String.singleton c

/-- A token as a message names it. -/
def describe : Token → String
  | name text => "identifier '" ++ text ++ "'"
  | string text => "string \"" ++ text ++ "\""
  | number digits => "number " ++ digits
  | relation keyword => "relationship keyword '" ++ keyword ++ "'"
  | token => "'" ++ token.render ++ "'"

/-- The text that a token contributes to a heading: a string without its quotes, anything else as it
is shown. -/
def contents : Token → String
  | string text => text
  | token => token.render

def isBrace : Token → Bool
  | openBrace | closeBrace => true
  | _ => false

/-- Whether a token is the name `keyword`. -/
def isName (keyword : String) : Token → Bool
  | name text => text == keyword
  | _ => false

end Token

/-- A token with the place it was written. -/
structure Lexeme where
  token : Token
  span : Span
deriving Repr, DecidableEq

end Landscape
