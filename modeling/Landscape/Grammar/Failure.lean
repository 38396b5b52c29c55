import Landscape.Diagnostic
import Landscape.Token.Basic

/-!
Failures of the grammar: how far reading got, and what would have let it go on.

When several readings of a text fail, the one that got furthest is the one to report; readings that
failed at the same place are reported together.
-/

namespace Landscape.Grammar

/-- Something that could have come next. -/
inductive Expectation
  | endOfInput
  | token (token : Token)
  | name
  | string
  | relation
deriving Repr, DecidableEq

namespace Expectation

def text : Expectation → String
  | endOfInput => "end of input"
  | token t => "'" ++ t.render ++ "'"
  | name => "identifier"
  | string => "string"
  | relation => "relationship keyword"

end Expectation

/-- A failure: the lexemes that were still unread, and what was expected in place of the first of
them. -/
structure Failure where
  rest : List Lexeme
  expected : List Expectation
deriving Repr, DecidableEq

namespace Failure

/-- The failure that got further, or both together if they stopped at the same place. -/
def furthest (a b : Failure) : Failure :=
  if a.rest.length < b.rest.length then a
  else if b.rest.length < a.rest.length then b
  else ⟨a.rest, a.expected ++ b.expected.filter (fun e => !a.expected.contains e)⟩

/-- The furthest of the failures that there are. -/
def merge : Option Failure → Option Failure → Option Failure
  | none, b => b
  | a, none => a
  | some a, some b => some (a.furthest b)

def message (f : Failure) : String :=
  match f.rest with
  | [] => "Unexpected end of input"
  | found :: _ => "Unexpected " ++ found.token.describe

/-- The texts of the expectations in increasing order, each once. -/
def expectedTexts (f : Failure) : List String :=
  let sorted := (f.expected.map Expectation.text).mergeSort (fun a b => decide (a ≤ b))
  sorted.foldr (fun text rest => if rest.head? = some text then rest else text :: rest) []

/-- Where the failure is: at the token that was not expected, or at the end of the source. -/
def span (source : String) (f : Failure) : Span :=
  match f.rest with
  | [] => Span.emptyAt source.utf8ByteSize
  | found :: _ => found.span

def diagnostic (source : String) (f : Failure) : Diagnostic :=
  (((Diagnostic.error f.message).withCode Code.syntaxError.text).withExpected
    f.expectedTexts).placedIn source (f.span source)

end Failure

end Landscape.Grammar
