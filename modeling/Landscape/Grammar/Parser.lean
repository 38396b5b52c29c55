import Landscape.Grammar.Failure

/-!
Parsers: partial readings of a list of lexemes.

A parser reads a prefix of the lexemes and gives a value with the lexemes left over. Choice is
ordered: the first alternative that succeeds is taken, and what the others would have read is
forgotten. A success carries a doubt, the furthest failure met on the way by a part that could be
left out; it is reported if the text turns out not to go on after all.
-/

namespace Landscape.Grammar

/-- What a parser says about a list of lexemes. -/
inductive Reply (α : Type)
  | ok (value : α) (rest : List Lexeme) (doubt : Option Failure)
  | fail (failure : Failure)
deriving Repr

def Parser (α : Type) : Type :=
  List Lexeme → Reply α

namespace Reply

/-- A reply as it looks after an earlier success with a doubt of its own. -/
def after {α : Type} (doubt : Option Failure) : Reply α → Reply α
  | ok value rest later => ok value rest (Failure.merge doubt later)
  | fail failure => fail ((doubt.map failure.furthest).getD failure)

end Reply

namespace Parser

variable {α β : Type}

/-- Reads nothing. -/
def succeed (value : α) : Parser α :=
  fun input => .ok value input none

/-- Reads with `p`, then goes on with what `p` gave. -/
def andThen (p : Parser α) (next : α → Parser β) : Parser β :=
  fun input =>
    match p input with
    | .ok value rest doubt => (next value rest).after doubt
    | .fail failure => .fail failure

instance : Monad Parser where
  pure := succeed
  bind := andThen

/-- Reads one token that `accept` gives a value to. At the end of the input nothing is expected. -/
def token (accept : Token → Option α) (expected : List Expectation) : Parser α
  | [] => .fail ⟨[], []⟩
  | found :: rest =>
    match accept found.token with
    | some value => .ok value rest none
    | none => .fail ⟨found :: rest, expected⟩

/-- Reads one token that is allowed, and expects none in particular. -/
def anyToken (allowed : Token → Bool) : Parser Token :=
  token (fun t => if allowed t then some t else none) []

/-- Reads the token `t`, which is expected even at the end of the input. -/
def exactly (t : Token) : Parser Unit
  | [] => .fail ⟨[], [.token t]⟩
  | found :: rest =>
    if found.token = t then .ok () rest none else .fail ⟨found :: rest, [.token t]⟩

/-- Reads nothing, where nothing is left. -/
def endOfInput : Parser Unit
  | [] => .ok () [] none
  | found :: rest => .fail ⟨found :: rest, [.endOfInput]⟩

/-- The first of two parsers that succeeds. -/
def orElse (p q : Parser α) : Parser α :=
  fun input =>
    match p input with
    | .ok value rest doubt => .ok value rest doubt
    | .fail a =>
      match q input with
      | .ok value rest doubt => .ok value rest doubt
      | .fail b => .fail (a.furthest b)

/-- The first of several parsers that succeeds. -/
def firstOf : List (Parser α) → Parser α
  | [] => fun input => .fail ⟨input, []⟩
  | p :: ps => orElse p (firstOf ps)

/-- Reads with `p`, or reads nothing. -/
def optional (p : Parser α) : Parser (Option α) :=
  fun input =>
    match p input with
    | .ok value rest doubt => .ok (some value) rest doubt
    | .fail failure => .ok none input (some failure)

/-- Reads with `p` as long as it succeeds, at most `limit` times. -/
def upTo (p : Parser α) : Nat → Parser (List α)
  | 0 => succeed []
  | limit + 1 => fun input =>
    match p input with
    | .fail failure => .ok [] input (some failure)
    | .ok value rest doubt =>
      match upTo p limit rest with
      | .ok values final later => .ok (value :: values) final (Failure.merge doubt later)
      | .fail failure => .fail failure

/-- Reads with `p` as often as it succeeds. A parser that reads at least one token cannot succeed
more often than there are tokens, so the limit is never met. -/
def many (p : Parser α) : Parser (List α) :=
  fun input => upTo p (input.length + 1) input

/-- Reads one or more items with commas between them. A comma without an item after it is left
alone. -/
def separated (p : Parser α) : Parser (List α) := do
  let first ← p
  let others ← many (do exactly .comma; p)
  return first :: others

/-- Reads with `p` between two marks. -/
def between (opening closing : Token) (p : Parser α) : Parser α := do
  exactly opening
  let value ← p
  exactly closing
  return value

def braced (p : Parser α) : Parser α :=
  between .openBrace .closeBrace p

/-- The span from the first to the last lexeme that lies between two points of the input. -/
def spanBetween (input rest : List Lexeme) : Span :=
  let read := input.take (input.length - rest.length)
  match read.head?, read.getLast? with
  | some first, some last => ⟨first.span.start, last.span.stop⟩
  | _, _ => Span.none

/-- Gives the value that `p` reads the span it was read from. -/
def located (p : Parser (Span → α)) : Parser α :=
  fun input =>
    match p input with
    | .ok value rest doubt => .ok (value (spanBetween input rest)) rest doubt
    | .fail failure => .fail failure

/-- A parser that may use itself, unfolded to a depth. -/
def unfold (step : Parser α → Parser α) : Nat → Parser α
  | 0 => fun input => .fail ⟨input, []⟩
  | depth + 1 => step (unfold step depth)

/-- A parser that may use itself after it has read something. It cannot be nested deeper than there
are tokens. -/
def nested (step : Parser α → Parser α) : Parser α :=
  fun input => unfold step (input.length + 1) input

end Parser

end Landscape.Grammar
