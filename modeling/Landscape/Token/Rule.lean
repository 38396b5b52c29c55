import Landscape.Text.Blank
import Landscape.Text.Letter
import Landscape.Text.Numeral
import Landscape.Token.Basic
import Landscape.Token.Quoted

/-!
Lexical rules: what each kind of token, blank and comment looks like.

A rule is a set of non-empty texts. `Rule.reach` gives the length of the longest of them that a text
starts with, and zero if it starts with none.
-/

namespace Landscape

open Text

/-- The characters that separate tokens. -/
def isSeparator (c : Char) : Bool :=
  c == ' ' || c == '\t' || c == '\r' || c == '\n' || c == '\x0c'

def startsName (c : Char) : Bool :=
  isLetter c || c == '_'

def continuesName (c : Char) : Bool :=
  isLetter c || isNumeral c || c == '_'

/-- The characters that stand alone as symbols: those that are neither blank nor a letter, a digit
or an underscore, nor have a token of their own. -/
def isSymbol (c : Char) : Bool :=
  !(isBlank c || isLetter c || c.isDigit || "_\x7b\x7d[],=:\"".toList.contains c)

/-- The keywords that name a kind of relationship. -/
def relationKeywords : List String :=
  ["Shared-Kernel", "Customer-Supplier", "Upstream-Downstream", "Downstream-Upstream",
    "Partnership"]

/-- The marks, each of which is always written the same way. -/
def marks : List Token :=
  [.openBrace, .closeBrace, .openBracket, .closeBracket, .comma, .equals, .colon,
    .arrow .right, .arrow .left, .arrow .both]

/-- The kinds of text a source is made of. The first three are skipped. -/
inductive Rule
  | separators
  | lineComment
  | blockComment
  | mark (token : Token)
  | relation
  | name
  | string
  | number
  | symbol
deriving Repr, DecidableEq

namespace Rule

/-- All rules. Where two of them reach equally far, the earlier one counts. -/
def all : List Rule :=
  [separators, lineComment, blockComment] ++ marks.map mark ++
    [relation, name, string, number, symbol]

/-- The number of characters up to and including the first `*/`, on top of `count`. -/
def commentEnd (count : Nat) : List Char → Option Nat
  | [] => none
  | '*' :: '/' :: _ => some (count + 2)
  | _ :: rest => commentEnd (count + 1) rest

/-- The characters whose UTF-8 encoding starts with the same byte as that of some letter or numeral
outside ASCII. -/
def startsLikeLetter (c : Char) : Bool :=
  covers [(0x80, 0x2FF), (0x340, 0xDFFF), (0xF000, 0x3FFFF)] c.toNat

/-- The length of `word` if the text starts with it. -/
def wordReach (word : String) (cs : List Char) : Nat :=
  if word.toList.isPrefixOf cs then word.length else 0

/-- The length of a relationship keyword if the text starts with it. A keyword without a hyphen is
also a name, and it is taken as a name if the character after it starts like a letter. -/
def keywordReach (keyword : String) (cs : List Char) : Nat :=
  if keyword.toList.all continuesName && (cs[keyword.length]?).any startsLikeLetter then 0
  else wordReach keyword cs

/-- The length of the longest number: digits, then maybe a point with more digits. -/
def numberReach (cs : List Char) : Nat :=
  let whole := cs.takeWhile Char.isDigit
  match cs.drop whole.length with
  | '.' :: rest =>
    let fraction := rest.takeWhile Char.isDigit
    if whole.isEmpty || fraction.isEmpty then whole.length else whole.length + 1 + fraction.length
  | _ => whole.length

/-- The length of the longest text of the rule at the start of the given one. A slash that opens a
comment is no symbol, so that a comment which is never closed is not read as two symbols. -/
def reach : Rule → List Char → Nat
  | separators, cs => (cs.takeWhile isSeparator).length
  | lineComment, '/' :: '/' :: rest => 2 + (rest.takeWhile (· != '\n')).length
  | blockComment, '/' :: '*' :: rest => (commentEnd 2 rest).getD 0
  | mark token, cs => wordReach token.render cs
  | relation, cs => relationKeywords.foldl (fun best word => max best (keywordReach word cs)) 0
  | name, c :: rest => if startsName c then 1 + (rest.takeWhile continuesName).length else 0
  | string, '"' :: rest => (Quoted.closing 1 rest).getD 0
  | number, cs => numberReach cs
  | symbol, '/' :: '*' :: _ => 0
  | symbol, c :: _ => if isSymbol c then 1 else 0
  | _, _ => 0

/-- The token that a text of the rule stands for, or nothing if the text is skipped. -/
def token? : Rule → List Char → Option Token
  | mark token, _ => some token
  | relation, text => some (.relation (String.ofList text))
  | name, text => some (.name (String.ofList text))
  | string, text => some (.string (String.ofList (Quoted.decode (text.drop 1).dropLast)))
  | number, text => some (.number (String.ofList text))
  | symbol, c :: _ => some (.symbol c)
  | _, _ => none

/-- The better of two rules at the start of a text: the one that reaches further, or the first. -/
def further (cs : List Char) (a b : Rule) : Rule :=
  if a.reach cs < b.reach cs then b else a

/-- The rule that reaches furthest into a text. -/
def longest (cs : List Char) : Rule :=
  all.foldl (further cs) separators

end Rule

end Landscape
