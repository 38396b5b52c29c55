import Landscape.Grammar.Terminal

/-!
Bodies: what may stand between the braces of a declaration.

A body is generous. It knows the nested declarations and the settings; any other name may open a
block, and a token that fits nowhere is skipped. Two things are never skipped: braces, so that every
block ends where it should, and declaration keywords, so that a body which is not closed cannot
swallow the declaration after it.
-/

namespace Landscape.Grammar

open Landscape.Grammar.Parser

/-- Whether the input starts with a setting, as far as its equals sign. -/
def settingAhead : List Lexeme → Bool
  | ⟨.name _, _⟩ :: ⟨.equals, _⟩ :: _ => true
  | _ => false

/-- A token between the name of a nested declaration and its body. The heading ends where a setting
starts, so that a declaration without a body leaves the setting after it alone. -/
def headingToken : Parser Token :=
  fun input =>
    if settingAhead input then
      .fail ⟨input, []⟩
    else
      anyToken (fun t => !(t.isBrace || t = .equals || isDeclarationKeyword t)) input

/-- A token of a body that means nothing. -/
def strayToken : Parser Unit := do
  let _ ← anyToken fun t => !(t.isBrace || isDeclarationKeyword t)

/-- A nested declaration: what its keyword says, its name, other tokens, and a body that may be left
out. -/
def namedDeclaration {α : Type} (opening : Parser α) (heading : α → String → Heading)
    (body : Parser (List Entry)) : Parser Entry :=
  located do
    let kind ← opening
    let name ← name
    let _ ← many headingToken
    let entries ← optional (braced body)
    return fun span => .declaration (heading kind name) (entries.getD []) span

def objectKeyword : Parser ObjectKind :=
  token (fun | .name text => ObjectKind.ofKeyword? text | _ => none) []

/-- A block with a keyword that means nothing. Its body is required. -/
def unknownBlock (body : Parser (List Entry)) : Parser Entry :=
  located do
    let keyword ← blockKeyword isDeclarationKeyword
    let words ← many headingToken
    let entries ← braced body
    return fun span => .declaration (.unknown keyword (words.map Token.contents)) entries span

def groupDeclaration (keyword : String) (kind : GroupKind) (body : Parser (List Entry)) :
    Parser Entry :=
  namedDeclaration (quietKeyword keyword) (fun _ name => .group kind name) body

/-- One entry of a body, or a token that is skipped. -/
def bodyEntry (scope : Scope) (body : Parser (List Entry)) : Parser (Option Entry) :=
  firstOf [
    some <$> namedDeclaration (quietKeyword "Subdomain") (fun _ name => .subdomain name []) body,
    some <$> namedDeclaration objectKeyword Heading.object body,
    some <$> groupDeclaration "Aggregate" .aggregate body,
    some <$> groupDeclaration "Service" .service body,
    some <$> groupDeclaration "Module" .module body,
    (fun setting => some (.setting scope setting)) <$> attributeSetting,
    some <$> unknownBlock body,
    (fun _ => none) <$> strayToken]

/-- The entries of a body, without its braces. All settings in it, at any depth, have one scope. -/
def body (scope : Scope) : Parser (List Entry) :=
  nested fun inner => (fun entries => entries.filterMap id) <$> many (bodyEntry scope inner)

end Landscape.Grammar
