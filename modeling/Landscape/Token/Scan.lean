import Landscape.Diagnostic
import Landscape.Text.Bytes
import Landscape.Token.Rule

/-!
Reading a source text as tokens.

At each place the rule that reaches furthest is taken. Where no rule applies the text cannot be
read: a string that never ends, a block comment that never ends, or a blank that separates nothing.
-/

namespace Landscape

open Text

/-- Where a source text stops being made of tokens, and the character found there. -/
structure Unreadable where
  offset : Nat
  char : Char
deriving Repr, DecidableEq

namespace Unreadable

/-- Every quote that is not the start of a string is one that is never closed. -/
def message (fault : Unreadable) : String :=
  if fault.char = '"' then
    "Unterminated string literal"
  else
    "Unexpected character '" ++ String.singleton fault.char ++ "'"

def diagnostic (source : String) (fault : Unreadable) : Diagnostic :=
  ((Diagnostic.error fault.message).withCode Code.syntaxError.text).placedIn source
    (Span.emptyAt fault.offset)

end Unreadable

/-- What comes of scanning can be compared by evaluation. -/
instance decidableEqExcept {ε α : Type} [DecidableEq ε] [DecidableEq α] :
    DecidableEq (Except ε α)
  | .ok a, .ok b => decidable_of_decidable_of_iff (p := a = b) ⟨congrArg _, Except.ok.inj⟩
  | .error a, .error b => decidable_of_decidable_of_iff (p := a = b) ⟨congrArg _, Except.error.inj⟩
  | .ok _, .error _ | .error _, .ok _ => isFalse nofun

/-- The tokens of a text that starts at a byte offset of its source. -/
def scanFrom (offset : Nat) (cs : List Char) : Except Unreadable (List Lexeme) :=
  match cs with
  | [] => .ok []
  | c :: rest =>
    let rule := Rule.longest (c :: rest)
    match rule.reach (c :: rest) with
    | 0 => .error ⟨offset, c⟩
    | n + 1 =>
      let text := c :: rest.take n
      let stop := offset + byteLength text
      match scanFrom stop (rest.drop n) with
      | .error fault => .error fault
      | .ok lexemes =>
        match rule.token? text with
        | some token => .ok (⟨token, ⟨offset, stop⟩⟩ :: lexemes)
        | none => .ok lexemes
termination_by cs.length
decreasing_by simp only [List.length_drop, List.length_cons]; omega

/-- The tokens of a source text. -/
def scan (source : String) : Except Unreadable (List Lexeme) :=
  scanFrom 0 source.toList

end Landscape
