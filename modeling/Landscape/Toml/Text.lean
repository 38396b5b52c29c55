import Landscape.Toml.Reader

/-!
Strings in TOML.

There are four kinds: between quotes or apostrophes, on one line or over several. Between quotes,
escapes are decoded. Over several lines, the mark is three times as long, a line end right behind
the opening mark is left out, every line end counts as a line feed, and up to two marks may stand in
front of the closing one.
-/

namespace Landscape.Toml

open Reader

/-- The number that hexadecimal digits denote. -/
def hexValue (digits : List Char) : Nat :=
  digits.foldl (fun n c => n * 16 + digit c) 0
where
  digit (c : Char) : Nat :=
    if c.isDigit then c.toNat - '0'.toNat
    else if c.isLower then c.toNat - 'a'.toNat + 10
    else c.toNat - 'A'.toNat + 10

def isHexDigit (c : Char) : Bool :=
  c.isDigit || ('a' ≤ c && c ≤ 'f') || ('A' ≤ c && c ≤ 'F')

/-- The character with a code, if the code is of a character. -/
def charOfCode (code : Nat) : Reader Char :=
  if code.isValidChar then return Char.ofNat code else failure

/-- An escape, which denotes one character. -/
def escape : Reader Char := do
  char '\\'
  match ← oneOf fun _ => true with
  | 'b' => return '\x08'
  | 't' => return '\t'
  | 'n' => return '\n'
  | 'f' => return '\x0c'
  | 'r' => return '\r'
  | '"' => return '"'
  | '\\' => return '\\'
  | 'u' => charOfCode (hexValue (← exactly isHexDigit 4))
  | 'U' => charOfCode (hexValue (← exactly isHexDigit 8))
  | _ => failure

/-- A backslash at the end of a line, which joins the line with the next text. -/
def joinedLines : Reader Unit := do
  char '\\'
  blanks
  lineEnd
  let _ ← many ((do let _ ← span1 isBlank) <|> lineEnd)

/-- Part of a string between quotes: characters that stand for themselves, or an escape. -/
def quotedPiece : Reader (List Char) :=
  span1 (fun c => isText c && c ≠ '"' && c ≠ '\\') <|> (do return [← escape])

/-- A string between quotes. -/
def quotedLine : Reader String := do
  char '"'
  let pieces ← many quotedPiece
  char '"'
  return String.ofList pieces.flatten

/-- A string between apostrophes. -/
def plainLine : Reader String := do
  char '\''
  let cs ← span fun c => isText c && c ≠ '\''
  char '\''
  return String.ofList cs

/-- One or two marks that do not close a string. -/
def looseMarks (mark : Char) : Reader (List Char) := do
  let marks ← span1 (· == mark)
  if marks.length < 3 then return marks else failure

/-- The closing marks, with the marks in front of them that are part of the string. -/
def closingMarks (mark : Char) : Reader (List Char) := do
  text (String.ofList [mark, mark, mark])
  (do char mark; char mark; return [mark, mark]) <|> (do char mark; return [mark]) <|> return []

/-- A string over several lines, made of pieces. -/
def lines (mark : Char) (piece : Reader (List Char)) : Reader String := do
  text (String.ofList [mark, mark, mark])
  let _ ← optional lineEnd
  let pieces ← many (piece <|> (do lineEnd; return ['\n']) <|> looseMarks mark)
  let final ← closingMarks mark
  return String.ofList (pieces.flatten ++ final)

/-- A string of several lines between quotes. -/
def quotedLines : Reader String :=
  lines '"' (quotedPiece <|> (do joinedLines; return []))

/-- A string of several lines between apostrophes. -/
def plainLines : Reader String :=
  lines '\'' (span1 fun c => isText c && c ≠ '\'')

def string : Reader String :=
  quotedLines <|> quotedLine <|> plainLines <|> plainLine

/-! ## Keys -/

def isBareKeyChar (c : Char) : Bool :=
  c.isAlphanum || c = '-' || c = '_'

def simpleKey : Reader String :=
  quotedLine <|> plainLine <|> (String.ofList <$> span1 isBareKeyChar)

/-- A path of keys has fewer parts than this. -/
def nestingLimit : Nat := 80

/-- Keys joined by dots. -/
def key : Reader (List String) := do
  let parts ← separated (do blanks; let part ← simpleKey; blanks; return part) (char '.')
  if parts.length < nestingLimit then return parts else failure

end Landscape.Toml
