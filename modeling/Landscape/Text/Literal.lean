import Landscape.Text.Hidden

/-!
Literals: texts written so that they can be told apart exactly.

A text stands between quotes. Quotes, backslashes and hidden characters are escaped.
-/

namespace Landscape.Text

/-- A code point in hexadecimal between braces. -/
def codePointEscape (c : Char) : List Char :=
  "\\u\x7b".toList ++ Nat.toDigits 16 c.toNat ++ ['\x7d']

/-- A character as it is written in a literal. -/
def literalChar (c : Char) : List Char :=
  match c with
  | '"' => ['\\', '"']
  | '\\' => ['\\', '\\']
  | '\n' => ['\\', 'n']
  | '\r' => ['\\', 'r']
  | '\t' => ['\\', 't']
  | '\x00' => ['\\', '0']
  | c => if isHidden c then codePointEscape c else [c]

def literal (text : String) : String :=
  String.ofList ('"' :: text.toList.flatMap literalChar ++ ['"'])

/-- A text that may be absent. -/
def optionLiteral : Option String → String
  | none => "None"
  | some text => "Some(" ++ literal text ++ ")"

def listLiteral (texts : List String) : String :=
  "[" ++ ", ".intercalate (texts.map literal) ++ "]"

end Landscape.Text
